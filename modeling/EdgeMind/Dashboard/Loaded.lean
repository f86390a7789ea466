import EdgeMind.Core.Pipeline
import EdgeMind.Dashboard.Server

/-!
# Whether a model is loaded

The health route looks at the handle only, the runtime route also at the status of the last load. A
handle that is kept for the report of a failed load is what tells them apart.
-/

namespace EdgeMind

open Framework EdgeMind.Runtime

/-- The load fails first at a stage whose report the handle is kept for. -/
def Runtime.KeptFailure (w : World) (config : RuntimeConfig) (input : LoadInput) : Prop :=
  ∃ stage, Reaches {} w config input stage ∧ Fails {} w config input stage ∧
    stageError {} w config input stage ∈
      [RuntimeError.memoryBudgetExceeded, .quotaExceeded, .modelVerificationFailed]

namespace Api

theorem toCStatus_ok_iff (error : RuntimeError) : toCStatus error = .ok ↔ error = .none := by
  cases error <;> simp [toCStatus]

theorem create_ready {c : Option Config} {w : World} {input : LoadInput} {r : Runtime}
    (h : (create c w input).handle = some r) :
    r.isReady = true ↔ (create c w input).status = .ok := by
  have htells := load_tells {} w (toCppConfig c) input
  rw [create_handle h, htells.ready, htells.message]
  exact (toCStatus_ok_iff _).symm

theorem create_kept_iff (c : Option Config) (w : World) (input : LoadInput) :
    (create c w input).handle.isSome = true ∧ (create c w input).status ≠ .ok ↔
      KeptFailure w (toCppConfig c) input := by
  have hfailure : KeptFailure w (toCppConfig c) input ↔
      (({} : Runtime).load w (toCppConfig c) input).runtime.lastError ∈
        [RuntimeError.memoryBudgetExceeded, .quotaExceeded, .modelVerificationFailed] := by
    constructor
    · rintro ⟨stage, hreaches, hfails, hmem⟩
      rw [(load_tells {} w (toCppConfig c) input).lastError stage hreaches hfails]
      exact hmem
    · intro hmem
      obtain ⟨stage, hreaches, hfails, herror⟩ :=
        (load_lastError_iff {} w (toCppConfig c) input (ne_of_mem_of_not_mem hmem
          (by decide))).mp rfl
      exact ⟨stage, hreaches, hfails, herror ▸ hmem⟩
  rw [hfailure]
  unfold create
  dsimp only
  generalize (Runtime.load _ _ _ _).runtime.lastError = error
  cases error <;> simp [toCStatus]

end Api

namespace Dashboard.DashboardServer

/-- Both routes tell what the runtime that is held tells. -/
structure Agree (s : DashboardServer Runtime) : Prop where
  health : s.healthLoaded = s.runtimeLoaded
  ready : s.runtimeLoaded = s.runtime.any Runtime.isReady

/-- What the C interface answers to a create call. -/
def created (w : World) (input : LoadInput) (config : Api.Config) : Option Runtime × Api.Status :=
  ((Api.create (some config) w input).handle, (Api.create (some config) w input).status)

/-- One request in the surroundings of the create call that it may make. -/
def lifecycleStep (s : DashboardServer Runtime) (i : LifecycleRequest × World × LoadInput) :
    DashboardServer Runtime × HandlerResult Runtime :=
  let result := s.lifecycle i.1 (created i.2.1 i.2.2)
  (result.server, result)

def LeavesFailed (s : DashboardServer Runtime) (i : LifecycleRequest × World × LoadInput) : Prop :=
  ∃ candidate, s.requested i.1 = some candidate ∧
    KeptFailure i.2.1 (Api.toCppConfig (some candidate.config)) i.2.2

/-- Only a runtime that is ready is held, under the status of its load. -/
structure Sound (s : DashboardServer Runtime) : Prop where
  ready : ∀ r, s.runtime = some r → r.isReady = true
  status : s.runtime.isSome = true → s.lastStatus = .ok

theorem loaded_eq_iff (s : DashboardServer Runtime) :
    s.healthLoaded = s.runtimeLoaded ↔ (s.runtime.isSome = true → s.lastStatus = .ok) := by
  rw [healthLoaded, runtimeLoaded]
  cases s.runtime <;> simp

theorem Sound.agree {s : DashboardServer Runtime} (h : Sound s) : Agree s := by
  have hloaded : s.healthLoaded = s.runtimeLoaded := (loaded_eq_iff s).mpr h.status
  refine ⟨hloaded, ?_⟩
  rw [← hloaded, healthLoaded]
  cases hruntime : s.runtime with
  | none => rfl
  | some r => exact (h.ready r hruntime).symm

theorem sound_of_none {s : DashboardServer Runtime} (h : s.runtime = none) : Sound s where
  ready r hr := absurd (h.symm.trans hr) (Option.some_ne_none r).symm
  status hsome := by
    rw [h] at hsome
    cases hsome

theorem step_sound {s : DashboardServer Runtime} (i : LifecycleRequest × World × LoadInput)
    (hleaves : ¬LeavesFailed s i) (h : Sound s) : Sound (lifecycleStep s i).1 := by
  obtain ⟨request, w, input⟩ := i
  change Sound (s.lifecycle request (created w input)).server
  cases hrequested : s.requested request with
  | none =>
      rcases lifecycle_idle hrequested (created w input) with hserver | hserver
      · rw [hserver]
        exact h
      · rw [hserver]
        exact sound_of_none rfl
  | some candidate =>
      have hstatus : (Api.create (some candidate.config) w input).handle.isSome = true →
          (Api.create (some candidate.config) w input).status = .ok := by
        intro hsome
        by_contra hfailed
        exact hleaves ⟨candidate, hrequested, (Api.create_kept_iff _ w input).mp ⟨hsome, hfailed⟩⟩
      rw [lifecycle_created hrequested]
      refine ⟨fun r hr => ?_, hstatus⟩
      have hhandle : (Api.create (some candidate.config) w input).handle = some r := hr
      rw [Api.create_ready hhandle]
      exact hstatus (hhandle ▸ rfl)

theorem leavesFailed_differ {s : DashboardServer Runtime}
    {i : LifecycleRequest × World × LoadInput} (h : LeavesFailed s i) :
    ¬Agree (lifecycleStep s i).1 := by
  obtain ⟨request, w, input⟩ := i
  obtain ⟨candidate, hrequested, hkept⟩ := h
  obtain ⟨hhandle, hfailed⟩ := (Api.create_kept_iff (some candidate.config) w input).mpr hkept
  intro hagree
  have hflags := (loaded_eq_iff _).mp hagree.health
  have hserver := lifecycle_created hrequested (created w input)
  rw [show (lifecycleStep s (request, w, input)).1 = _ from hserver] at hflags
  exact hfailed (hflags hhandle)

/-- Over a run of load, reload and unload requests both routes tell what the runtime that is held
tells, exactly if no load of the run fails at a stage whose report the handle is kept for. -/
theorem loaded_agree_iff (modelRegistryPath : Bytes)
    (requests : List (LifecycleRequest × World × LoadInput)) :
    let s := start modelRegistryPath
    Agree s ∧ ((∀ e ∈ trace lifecycleStep s requests, Agree e.output.server) ↔
      ∀ e ∈ trace lifecycleStep s requests, ¬LeavesFailed e.before e.input) := by
  intro s
  have hstart : Sound s := sound_of_none rfl
  refine ⟨hstart.agree, fun h e he hleaves => ?_, fun h e he => ?_⟩
  · have houtput := output_of_mem_trace e he
    have hagree := h e he
    rw [houtput] at hagree
    exact leavesFailed_differ hleaves hagree
  · obtain ⟨hbefore, houtput⟩ := trace_invariant Sound (fun s i => ¬LeavesFailed s i)
      (fun _ i hleaves hs => step_sound i hleaves hs) hstart h e he
    rw [houtput]
    exact (step_sound e.input (h e he) hbefore).agree

def missingModel : LifecycleRequest :=
  .load (text "\x7b\"model_path\":\"missing.gguf\"\x7d")

/-- Its verification fails and the handle is kept: the health route tells that a model is loaded. -/
theorem loaded_differ :
    let after := final lifecycleStep (start []) [(missingModel, sampleWorld, sampleInput)]
    after.lastStatus = .errorModelVerificationFailed ∧ after.healthLoaded = true ∧
      after.runtimeLoaded = false ∧ after.runtime.any Runtime.isReady = false ∧
      ¬∀ (modelRegistryPath : Bytes) (requests : List (LifecycleRequest × World × LoadInput)),
        ∀ e ∈ trace lifecycleStep (start modelRegistryPath) requests, Agree e.output.server := by
  intro after
  have hhealth : after.healthLoaded = true := by decide +kernel
  have hruntime : after.runtimeLoaded = false := by decide +kernel
  refine ⟨by decide +kernel, hhealth, hruntime, by decide +kernel, fun h => ?_⟩
  have hagree := (h [] [(missingModel, sampleWorld, sampleInput)] _ List.mem_cons_self).health
  change after.healthLoaded = after.runtimeLoaded at hagree
  rw [hhealth, hruntime] at hagree
  cases hagree

end Dashboard.DashboardServer

end EdgeMind
