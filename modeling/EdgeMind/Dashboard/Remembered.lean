import EdgeMind.Dashboard.Reload
import EdgeMind.Framework.LastWrite

/-!
# The remembered configuration

A load remembers what it asked for as soon as it gets a handle, before it looks at the status. The
C interface hands out a handle after some failures too, so that the report of the failure can be
read; such a load has failed and is remembered.
-/

namespace EdgeMind

open Framework EdgeMind.Runtime

namespace Dashboard.DashboardServer

section Steps

variable {H : Type}

/-- The request loads, and is answered with an error. -/
def LoadFails (s : DashboardServer H) : Request H → Prop
  | .lifecycle request create =>
      ∃ outcome, s.loadOutcome request create = some outcome ∧ outcome.errorJson ≠ none
  | _ => False

/-- The configuration of a load that is answered without an error. -/
def loadedConfiguration (s : DashboardServer H) : Request H → Option RuntimeConfigState
  | .lifecycle request create => do
      let outcome ← s.loadOutcome request create
      guard (outcome.errorJson = none)
      s.requested request
  | _ => none

/-- A load gets a handle under the status of a failure, and asked for something else than is
remembered. -/
structure Overwriting (s : DashboardServer H) (request : LifecycleRequest)
    (create : Api.Config → Option H × Api.Status) (candidate : RuntimeConfigState) : Prop where
  requested : s.requested request = some candidate
  handle : (create candidate.config).1.isSome = true
  status : (create candidate.config).2 ≠ .ok
  differs : candidate ≠ s.state

/-- What is not refused is answered without an error if it gets a handle under the status of a
success. -/
theorem loadFromRequest_errorJson {s : DashboardServer H} {body : Bytes}
    {candidate : RuntimeConfigState} (h : s.candidate body = .ok candidate)
    (create : Api.Config → Option H × Api.Status) :
    (s.loadFromRequest body create).errorJson = none ↔
      (create candidate.config).1.isSome = true ∧ (create candidate.config).2 = .ok := by
  rw [loadFromRequest, h]
  dsimp only
  cases (create candidate.config).1 with
  | none => simp
  | some handle => simp

theorem loadFails_iff {s : DashboardServer H} {request : LifecycleRequest}
    {candidate : RuntimeConfigState} (h : s.requested request = some candidate)
    (create : Api.Config → Option H × Api.Status) :
    s.LoadFails (.lifecycle request create) ↔
      ¬((create candidate.config).1.isSome = true ∧ (create candidate.config).2 = .ok) := by
  obtain ⟨body, hcandidate, houtcome⟩ := requested_ok h
  rw [← loadFromRequest_errorJson hcandidate, LoadFails, houtcome create]
  simp

theorem loadedConfiguration_requested {s : DashboardServer H} {request : LifecycleRequest}
    {candidate : RuntimeConfigState} (h : s.requested request = some candidate)
    (create : Api.Config → Option H × Api.Status) :
    s.loadedConfiguration (.lifecycle request create) =
      if (create candidate.config).1.isSome = true ∧ (create candidate.config).2 = .ok then
        some candidate
      else none := by
  obtain ⟨body, hcandidate, houtcome⟩ := requested_ok h
  simp only [← loadFromRequest_errorJson hcandidate, loadedConfiguration, houtcome create, h]
  by_cases herror : (s.loadFromRequest body create).errorJson = none
  · simp [herror]
  · simp [herror]

theorem loadedConfiguration_refused {s : DashboardServer H} {request : LifecycleRequest}
    (h : s.requested request = none) (create : Api.Config → Option H × Api.Status) :
    s.loadedConfiguration (.lifecycle request create) = none := by
  rw [loadedConfiguration, h]
  cases s.loadOutcome request create with
  | none => rfl
  | some outcome => cases outcome.errorJson <;> simp

/-- What a request leaves remembered: the configuration of a load that succeeds, or what was
remembered before, unless the request overwrites it. -/
theorem handle_remembers {s : DashboardServer H} {request : Request H}
    (h : ∀ r create candidate, request = .lifecycle r create →
      ¬s.Overwriting r create candidate) :
    (s.handle request).server.state = (s.loadedConfiguration request).getD s.state := by
  have htouching (hlifecycle : ∀ r create, request ≠ .lifecycle r create)
      (hstop : request ≠ .stop) : (s.handle request).server.state = s.state :=
    congrArg DashboardServer.state (s.handle_touching hlifecycle hstop).1
  cases request with
  | lifecycle r create =>
      change (s.lifecycle r create).server.state = _
      cases hrequested : s.requested r with
      | none =>
          rw [loadedConfiguration_refused hrequested]
          rcases lifecycle_idle hrequested create with hserver | hserver
          · rw [hserver]
            rfl
          · rw [hserver]
            rfl
      | some candidate =>
          rw [loadedConfiguration_requested hrequested, lifecycle_created hrequested]
          dsimp only
          by_cases hhandle : (create candidate.config).1.isSome = true
          · by_cases hstatus : (create candidate.config).2 = .ok
            · simp [hhandle, hstatus]
            · have hsame : candidate = s.state := by
                by_contra hdiffers
                exact h r create candidate rfl ⟨hrequested, hhandle, hstatus, hdiffers⟩
              rw [if_pos hhandle, if_neg fun hsuccess => hstatus hsuccess.2]
              exact hsame
          · simp [hhandle]
  | stop => rfl
  | _ => exact htouching nofun nofun

theorem failed_state_iff (s : DashboardServer H) (request : Request H) :
    (s.LoadFails request → (s.handle request).server.state = s.state) ↔
      ∀ r create candidate, request = .lifecycle r create → ¬s.Overwriting r create candidate := by
  constructor
  · rintro h r create candidate rfl hoverwriting
    have hfails := (loadFails_iff hoverwriting.requested create).mpr
      fun hsuccess => hoverwriting.status hsuccess.2
    have hstate := h hfails
    change (s.lifecycle r create).server.state = s.state at hstate
    rw [lifecycle_created hoverwriting.requested] at hstate
    exact hoverwriting.differs ((if_pos hoverwriting.handle).symm.trans hstate)
  · intro h hfails
    rw [handle_remembers h]
    cases request with
    | lifecycle r create =>
        obtain ⟨outcome, houtcome, herror⟩ := hfails
        simp [loadedConfiguration, houtcome, herror]
    | _ => exact absurd hfails id

theorem candidate_omits {s : DashboardServer H} {body : Bytes} {candidate : RuntimeConfigState}
    (h : s.candidate body = .ok candidate) :
    (parseJsonInt body (text "context_size") = none →
      candidate.contextSize = s.state.contextSize) ∧
    (parseJsonInt body (text "threads") = none → candidate.threads = s.state.threads) := by
  unfold DashboardServer.candidate at h
  split at h
  · cases h
  · dsimp only at h
    split at h
    · cases h
    · cases h
      constructor
      · intro hnone
        rw [hnone]
        rfl
      · intro hnone
        rw [hnone]
        rfl

end Steps

/-- A request whose create call, if it makes one, is answered by the C interface. -/
structure ApiRequest where
  request : Request Runtime
  answered : ∀ r create, request = .lifecycle r create → ∃ w input, create = created w input

def apiStep (s : DashboardServer Runtime) (i : ApiRequest) :
    DashboardServer Runtime × HandlerResult Runtime :=
  requestStep s i.request

/-- A load fails first at a stage whose report the handle is kept for, and asked for something else
than is remembered. -/
def Overwrites (s : DashboardServer Runtime) (i : ApiRequest) : Prop :=
  ∃ r w input candidate, i.request = .lifecycle r (created w input) ∧
    s.requested r = some candidate ∧
    KeptFailure w (Api.toCppConfig (some candidate.config)) input ∧ candidate ≠ s.state

theorem not_overwrites_iff (s : DashboardServer Runtime) (i : ApiRequest) :
    ¬s.Overwrites i ↔ ∀ r create candidate, i.request = .lifecycle r create →
      ¬s.Overwriting r create candidate := by
  constructor
  · intro h r create candidate hrequest hoverwriting
    obtain ⟨w, input, rfl⟩ := i.answered r create hrequest
    have hkept := (Api.create_kept_iff (some candidate.config) w input).mp
      ⟨hoverwriting.handle, hoverwriting.status⟩
    exact h ⟨r, w, input, candidate, hrequest, hoverwriting.requested, hkept, hoverwriting.differs⟩
  · rintro h ⟨r, w, input, candidate, hrequest, hrequested, hkept, hdiffers⟩
    obtain ⟨hhandle, hstatus⟩ := (Api.create_kept_iff (some candidate.config) w input).mpr hkept
    exact h r _ candidate hrequest ⟨hrequested, hhandle, hstatus, hdiffers⟩

/-- The configuration of the last load of a run that succeeded, or the one that the server started
with. -/
def lastLoaded (s : DashboardServer Runtime) (requests : List ApiRequest) : RuntimeConfigState :=
  ((trace apiStep s requests).filterMap fun e =>
    e.before.loadedConfiguration e.input.request).getLast?.getD s.state

/-- A load of a run that fails keeps what is remembered, exactly if it does not fail first at a
stage whose report the handle is kept for, or asked for no other than what is remembered. If no load
of the run overwrites it, then the configuration of the last successful load is remembered, and is
what a reload asks for and what completes a load that names no sizes. -/
theorem failed_load_iff (modelRegistryPath : Bytes) (requests : List ApiRequest) :
    let s := start modelRegistryPath
    let after := final apiStep s requests
    (∀ e ∈ trace apiStep s requests,
      (e.before.LoadFails e.input.request → e.output.server.state = e.before.state) ↔
        ¬e.before.Overwrites e.input) ∧
    ((∀ e ∈ trace apiStep s requests, ¬e.before.Overwrites e.input) →
      after.state = lastLoaded s requests ∧
      (∀ candidate, after.requested .reload = some candidate →
        candidate = lastLoaded s requests) ∧
      ∀ body candidate, after.candidate body = .ok candidate →
        (parseJsonInt body (text "context_size") = none →
          candidate.contextSize = (lastLoaded s requests).contextSize) ∧
        (parseJsonInt body (text "threads") = none →
          candidate.threads = (lastLoaded s requests).threads)) := by
  intro s after
  constructor
  · intro e he
    rw [output_of_mem_trace e he, not_overwrites_iff]
    exact failed_state_iff e.before e.input.request
  · intro h
    have hstate : after.state = lastLoaded s requests :=
      @trace_assigned _ _ _ _ apiStep DashboardServer.state
        (fun s i => s.loadedConfiguration i.request) s requests
        fun e he => handle_remembers ((not_overwrites_iff e.before e.input).mp (h e he))
    have hnamed : after.state.NamedOnce :=
      final_invariant (fun s : DashboardServer Runtime => s.state.NamedOnce) (fun _ => True)
        (fun _ i _ hs => handle_named hs i.request) (.inl rfl) (fun _ _ => trivial)
    rw [← hstate]
    refine ⟨rfl, fun candidate hcandidate => ?_, fun body candidate hcandidate => ?_⟩
    · exact (requested_reload hnamed hcandidate).1
    · exact candidate_omits hcandidate

/-- A request to load a file that is not there, with a context size of its own. -/
def missingSized : ApiRequest where
  request := .lifecycle
    (.load (text "\x7b\"model_path\":\"missing.gguf\",\"context_size\":4096\x7d"))
    (created sampleWorld sampleInput)
  answered _ _ h := by
    cases h
    exact ⟨_, _, rfl⟩

/-- Its verification fails, and its path and context size are remembered. -/
theorem failed_load_remembered :
    let s : DashboardServer Runtime := start []
    let after := final apiStep s [missingSized]
    s.LoadFails missingSized.request ∧ after.lastStatus = .errorModelVerificationFailed ∧
      s.state.modelPath = [] ∧ after.state.modelPath = text "missing.gguf" ∧
      s.state.contextSize = 1024 ∧ after.state.contextSize = 4096 ∧
      ¬∀ (modelRegistryPath : Bytes) (requests : List ApiRequest),
        ∀ e ∈ trace apiStep (start modelRegistryPath) requests,
          e.before.LoadFails e.input.request → e.output.server.state = e.before.state := by
  intro s after
  have hfails : s.LoadFails missingSized.request := ⟨_, rfl, by decide +kernel⟩
  have hsize : after.state.contextSize = 4096 := by decide +kernel
  refine ⟨hfails, by decide +kernel, rfl, by decide +kernel, rfl, hsize, fun h => ?_⟩
  have hstate := h [] [missingSized] _ List.mem_cons_self hfails
  have hsame : after.state.contextSize = s.state.contextSize :=
    congrArg RuntimeConfigState.contextSize hstate
  rw [hsize] at hsame
  exact absurd hsame (by decide)

end Dashboard.DashboardServer

end EdgeMind
