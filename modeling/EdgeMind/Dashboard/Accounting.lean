import EdgeMind.Core.QuotaStage
import EdgeMind.Core.UsageRuns
import EdgeMind.Dashboard.Reload
import EdgeMind.Dashboard.System

/-!
# The usage state of the dashboard

The limits and the path of the usage state are the same for every load that the server makes. So its
runtimes, one after the other, keep one account, whatever is loaded, unloaded and loaded again.
-/

namespace EdgeMind

open Framework UsageAccounting UsageManager UsageRun

namespace Dashboard

namespace System

def points (s : System) : List UsagePoint := s.effects.filterMap Effect.point?

def startConfig (modelRegistryPath : Bytes) : RuntimeConfig :=
  let server : DashboardServer Runtime := .start modelRegistryPath
  Api.toCppConfig (some server.state.config)

/-- Only the model, its context and its threads have been changed since the start. -/
def Settled (modelRegistryPath : Bytes) (state : RuntimeConfigState) : Prop :=
  ∃ modelId modelPath contextSize threads, state = {
    (DashboardServer.start modelRegistryPath : DashboardServer Runtime).state with
    modelId, modelPath, contextSize, threads }

section Settled

variable {modelRegistryPath : Bytes} {state : RuntimeConfigState}

theorem Settled.account (h : Settled modelRegistryPath state) :
    Api.SameAccount (Api.toCppConfig (some state.config)) (startConfig modelRegistryPath) := by
  obtain ⟨modelId, modelPath, contextSize, threads, rfl⟩ := h
  exact ⟨rfl, rfl, rfl⟩

theorem candidate_settled {server : DashboardServer Runtime} {body : Bytes}
    {candidate : RuntimeConfigState} (h : Settled modelRegistryPath server.state)
    (hcandidate : server.candidate body = .ok candidate) : Settled modelRegistryPath candidate := by
  obtain ⟨modelId, modelPath, contextSize, threads, hstate⟩ := h
  unfold DashboardServer.candidate at hcandidate
  split at hcandidate
  · cases hcandidate
  · dsimp only at hcandidate
    split at hcandidate
    · cases hcandidate
    · rw [← Except.ok.inj hcandidate, hstate]
      exact ⟨_, _, _, _, rfl⟩

theorem requested_settled {server : DashboardServer Runtime} {request : LifecycleRequest}
    {candidate : RuntimeConfigState} (h : Settled modelRegistryPath server.state)
    (hrequested : server.requested request = some candidate) :
    Settled modelRegistryPath candidate := by
  obtain ⟨body, hcandidate, -⟩ := DashboardServer.requested_ok hrequested
  exact candidate_settled h hcandidate

end Settled

structure Metered (modelRegistryPath : Bytes) (s : System) : Prop extends
    Api.Account (startConfig modelRegistryPath) s.server.runtime s.world.usage s.points where
  settled : Settled modelRegistryPath s.server.state

structure Saves (e : Surroundings) : Prop where
  loadAdmission : e.load.admissionSave = .ok
  loadSession : e.load.sessionSave = .ok
  generateAdmission : e.generate.admissionSave = .ok
  generateRecord : e.generate.recordSave = .ok

namespace Metered

variable {modelRegistryPath : Bytes} {s : System} {r : Runtime}

theorem start {world : World}
    (habsent : world.usage (startConfig modelRegistryPath).usageStatePath = .absent) :
    Metered modelRegistryPath (.start modelRegistryPath world) where
  toAccount := .start habsent
  settled := ⟨_, _, _, _, rfl⟩

theorem unloaded (h : Metered modelRegistryPath s) : Metered modelRegistryPath s.unloaded where
  toAccount := h.toAccount.dropped
  settled := h.settled

theorem called (h : Metered modelRegistryPath s) (hruntime : s.server.runtime = some r)
    {c : Runtime.Call} (hc : Api.Kept (startConfig modelRegistryPath) c) :
    Metered modelRegistryPath (s.callRuntime r c) := by
  have haccount := h.toAccount
  rw [hruntime] at haccount
  refine ⟨?_, h.settled⟩
  rw [points, callRuntime, List.filterMap_append]
  exact haccount.call hc

theorem created (h : Metered modelRegistryPath s) (hnone : s.server.runtime = none) {e : Surroundings}
    (hsaves : Saves e) {candidate : RuntimeConfigState} (hsettled : Settled modelRegistryPath candidate)
    {fresh : Option Runtime} {status : Api.Status}
    (hcreate : DashboardServer.created s.world e.load candidate.config = (fresh, status)) :
    Metered modelRegistryPath { perform e s (.create candidate.config fresh status) with
      server := {
        state := if fresh.isSome then candidate else s.server.state
        runtime := fresh
        lastStatus := status } } := by
  have hhandle : (Api.create (some candidate.config) s.world e.load).handle = fresh :=
    congrArg Prod.fst hcreate
  have haccount := h.toAccount
  rw [hnone] at haccount
  have hcreated := haccount.created hsettled.account hsaves.loadAdmission hsaves.loadSession
  dsimp only at hcreated
  rw [hhandle] at hcreated
  constructor
  · rw [points, perform, List.filterMap_append]
    exact hcreated
  · dsimp only
    split
    · exact hsettled
    · exact h.settled

theorem step (h : Metered modelRegistryPath s) (i : ClientRequest × Surroundings)
    (hsaves : Saves i.2) : Metered modelRegistryPath (s.step i).1 := by
  have hcase := s.step_case i
  obtain ⟨request, e⟩ := i
  generalize (s.step _).1 = after at hcase ⊢
  cases hcase with
  | kept _ => exact h
  | unloaded _ => exact h.unloaded
  | called hserves hruntime =>
      apply h.called hruntime
      cases hserves with
      | reset => trivial
      | generate body prompt _ => exact ⟨hsaves.generateAdmission, hsaves.generateRecord⟩
  | created hrequested hcreate =>
      exact h.unloaded.created rfl hsaves (requested_settled h.settled hrequested) hcreate

theorem run {world : World}
    (habsent : world.usage (startConfig modelRegistryPath).usageStatePath = .absent)
    {requests : List (ClientRequest × Surroundings)} (hsaves : ∀ i ∈ requests, Saves i.2) :
    Metered modelRegistryPath (final System.step (.start modelRegistryPath world) requests) :=
  final_invariant (Metered modelRegistryPath) (fun i => Saves i.2)
    (fun _ i hi h => h.step i hi) (.start habsent) hsaves

end Metered

theorem startConfig_policy (modelRegistryPath : Bytes) :
    toUsagePolicy (startConfig modelRegistryPath) = {
      sessionTimeLimitSeconds := 0
      dailyMessageLimit := 0
      dailyTokenLimit := 0
      resetPeriodSeconds := 86400 } := by
  simp [startConfig, DashboardServer.start, RuntimeConfigState.config, Api.toCppConfig,
    toUsagePolicy, Api.positiveOr]

theorem admitted_of_account {modelRegistryPath : Bytes} {config : RuntimeConfig}
    (haccount : Api.SameAccount config (startConfig modelRegistryPath))
    (hvalid : validateConfig config = []) {usage : FileSystem} {points : List UsagePoint} {now : Int}
    (h : Tracks config usage points)
    (hclocked : Clocked (points ++
      [checkPoint usage config.usageStatePath (toUsagePolicy config) now])) :
    (checkAdmission usage config.usageStatePath (toUsagePolicy config) now .ok).2.allowed = true := by
  obtain ⟨hreset, hmax⟩ := policy_pos hvalid
  obtain ⟨-, state, -, hdecision⟩ := h.check hclocked hreset hmax
  rw [hdecision, evaluate_allowed_iff, haccount.policy, startConfig_policy]
  exact ⟨fun htime => absurd htime.1 (by decide), fun hlimit => absurd hlimit.1 (by decide),
    fun hlimit => absurd hlimit.1 (by decide)⟩

theorem toRuntimeError_ne_quota (error : EngineError) : toRuntimeError error ≠ .quotaExceeded := by
  cases error <;> decide

theorem toCStatus_quota {error : RuntimeError} (h : Api.toCStatus error = .errorQuotaExceeded) :
    error = .quotaExceeded := by
  cases error <;> first | rfl | cases h

theorem load_denied {r : Runtime} {w : World} {config : RuntimeConfig} {input : LoadInput}
    (h : (r.load w config input).runtime.lastError = .quotaExceeded) :
    validateConfig config = [] ∧ ¬(Runtime.quotaStage w config input).2.allowed = true ∧
      (r.load w config input).effects =
        [.checkAdmission input.admissionNow (Runtime.quotaStage w config input).1] := by
  obtain ⟨hconfig, hquota⟩ := (Runtime.load_quotaExceeded_iff r w config input).mp h
  refine ⟨hconfig, hquota, ?_⟩
  have hcase := Runtime.load_case r w config input
  generalize r.load w config input = result at hcase h
  cases hcase with
  | invalid hinvalid => exact absurd hconfig hinvalid
  | denied _ _ => rfl
  | unresolved _ hallowed _ => exact absurd hallowed hquota
  | rejected _ hallowed _ _ => exact absurd hallowed hquota
  | engine _ hallowed _ _ => exact absurd hallowed hquota

theorem generateAdmitted_undenied (r : Runtime) (w : World) (prompt : Bytes) (input : GenerateInput)
    (effects : List Effect) :
    (r.generateAdmitted w prompt input effects).runtime.lastError ≠ .quotaExceeded := by
  rw [Runtime.generateAdmitted_runtime]
  exact toRuntimeError_ne_quota _

theorem generate_denied {r : Runtime} {w : World} {prompt : Bytes} {input : GenerateInput}
    (h : (r.generate w prompt input).runtime.lastError = .quotaExceeded) :
    r.isReady = true ∧ ∃ statePath, r.usageManager = some statePath ∧
      let check := checkAdmission w.usage statePath (toUsagePolicy r.config) input.admissionNow
        input.admissionSave
      ¬check.2.allowed = true ∧
        (r.generate w prompt input).effects = [.checkAdmission input.admissionNow check.1] := by
  by_cases hready : r.isReady = true
  · refine ⟨hready, ?_⟩
    unfold Runtime.generate at h ⊢
    rw [if_neg (not_not_intro hready)] at h ⊢
    cases hmanager : r.usageManager with
    | none =>
        rw [hmanager] at h
        exact absurd h (generateAdmitted_undenied r w prompt input [])
    | some statePath =>
        rw [hmanager] at h
        dsimp only at h ⊢
        split at h
        · next hallowed =>
            rw [if_pos hallowed]
            exact ⟨statePath, rfl, hallowed, rfl⟩
        · exact absurd h (generateAdmitted_undenied r _ prompt input _)
  · rw [Runtime.generate, if_pos hready] at h
    cases h

/-- The model of a request is denied for the quota: in a load, or in a generation. -/
def Denied (s : System) : ClientRequest × Surroundings → Prop
  | (.lifecycle request, e) => ∃ candidate, s.server.requested request = some candidate ∧
      (DashboardServer.created s.world e.load candidate.config).2 = .errorQuotaExceeded
  | (.generate body, e) => ∃ r prompt,
      (s.server.generate body (s.answer e body)).calls = [.generate r prompt] ∧
        (s.outcome e prompt).status = .errorQuotaExceeded
  | _ => False

theorem points_created {s : System} {request : LifecycleRequest} {candidate : RuntimeConfigState}
    (hrequested : s.server.requested request = some candidate) (e : Surroundings) :
    (s.step (.lifecycle request, e)).1.points = s.points ++
      (({} : Runtime).load s.world (Api.toCppConfig (some candidate.config)) e.load).effects.filterMap
        Effect.point? := by
  have hcase := s.server.lifecycle_case request (DashboardServer.created s.world e.load)
  change ((s.server.lifecycle request _).calls.foldl (perform e)
    { s with server := (s.server.lifecycle request _).server }).points = _
  generalize (s.server.lifecycle request _).server = server at hcase ⊢
  generalize (s.server.lifecycle request _).calls = calls at hcase ⊢
  cases hcase with
  | refused hnone => cases hrequested.symm.trans hnone
  | unloaded hunload =>
      subst hunload
      cases hrequested
  | created candidate' h' fresh status _ =>
      obtain rfl := Option.some.inj (hrequested.symm.trans h')
      rw [DashboardServer.unloadCurrent, List.foldl_append, perform_destroys]
      exact List.filterMap_append

theorem points_generate {s : System} {body prompt : Bytes} {e : Surroundings} {r : Runtime}
    (hcalls : (s.server.generate body (s.answer e body)).calls = [.generate r prompt]) :
    s.server.runtime = some r ∧ (s.step (.generate body, e)).1.points = s.points ++
      (r.generate s.world (Api.promptText (some prompt))
        (Api.withCallback e.generate (some (onToken e)))).effects.filterMap Effect.point? := by
  have hcase := s.server.generate_case body (s.answer e body)
  change _ ∧ ((s.server.generate body (s.answer e body)).calls.foldl (perform e)
    { s with server := (s.server.generate body (s.answer e body)).server }).points = _
  generalize s.server.generate body (s.answer e body) = result at hcase hcalls ⊢
  cases hcase with
  | refused _ _ => cases hcalls
  | called prompt' _ r' hruntime =>
      cases hcalls
      exact ⟨hruntime, List.filterMap_append⟩

namespace Metered

variable {modelRegistryPath : Bytes} {s : System} {e : Surroundings}

theorem load_undenied (h : Metered modelRegistryPath s) {request : LifecycleRequest}
    {candidate : RuntimeConfigState} (hrequested : s.server.requested request = some candidate)
    (hsaves : Saves e) (hclocked : Clocked (s.step (.lifecycle request, e)).1.points) :
    (DashboardServer.created s.world e.load candidate.config).2 ≠ .errorQuotaExceeded := by
  intro hstatus
  have haccount := (requested_settled h.settled hrequested).account
  obtain ⟨hvalid, hdenied, heffects⟩ := load_denied (toCStatus_quota hstatus)
  rw [points_created hrequested, heffects] at hclocked
  rw [Runtime.quotaStage, hsaves.loadAdmission] at hdenied hclocked
  exact hdenied (admitted_of_account haccount hvalid ((haccount.tracks _ _).mpr (h.tracked hclocked.left))
    hclocked)

theorem generate_undenied (h : Metered modelRegistryPath s) {body prompt : Bytes} {r : Runtime}
    (hcalls : (s.server.generate body (s.answer e body)).calls = [.generate r prompt])
    (hsaves : Saves e) (hclocked : Clocked (s.step (.generate body, e)).1.points) :
    (s.outcome e prompt).status ≠ .errorQuotaExceeded := by
  intro hstatus
  obtain ⟨hruntime, hpoints⟩ := points_generate hcalls
  rw [outcome, hruntime] at hstatus
  obtain ⟨hready, statePath, hmanager, hdenied, heffects⟩ := generate_denied (toCStatus_quota hstatus)
  obtain ⟨config, hvalid, haccount, hconfigured⟩ :=
    h.keeps r hruntime (Bool.and_eq_true_iff.mp hready).1
  obtain ⟨hpolicy, hpath, -⟩ := hconfigured (Bool.and_eq_true_iff.mp hready).1
  obtain rfl := Option.some.inj (hmanager.symm.trans hpath)
  have hsave : (Api.withCallback e.generate (some (onToken e))).admissionSave = .ok :=
    hsaves.generateAdmission
  rw [hpoints, heffects, hpolicy, hsave] at hclocked
  rw [hpolicy, hsave] at hdenied
  exact hdenied (admitted_of_account haccount hvalid ((haccount.tracks _ _).mpr (h.tracked hclocked.left))
    hclocked)

end Metered

theorem step_points (s : System) (i : ClientRequest × Surroundings) :
    ∃ more, (s.step i).1.points = s.points ++ more := by
  have hcase := s.step_case i
  obtain ⟨request, e⟩ := i
  generalize (s.step _).1 = after at hcase ⊢
  cases hcase with
  | kept _ => exact ⟨[], (List.append_nil _).symm⟩
  | called _ _ => exact ⟨_, List.filterMap_append⟩
  | unloaded _ => exact ⟨[], (List.append_nil _).symm⟩
  | created _ _ => exact ⟨_, List.filterMap_append⟩

theorem run_points (s : System) (requests : List (ClientRequest × Surroundings)) :
    ∃ more, (final step s requests).points = s.points ++ more := by
  induction requests generalizing s with
  | nil => exact ⟨[], (List.append_nil _).symm⟩
  | cons i requests ih =>
      obtain ⟨first, hfirst⟩ := s.step_points i
      obtain ⟨more, hmore⟩ := ih (s.step i).1
      exact ⟨first ++ more, by rw [final, hmore, hfirst, List.append_assoc]⟩

theorem step_undenied {modelRegistryPath : Bytes} {s : System} (h : Metered modelRegistryPath s)
    {i : ClientRequest × Surroundings} (hsaves : Saves i.2) (hclocked : Clocked (s.step i).1.points) :
    ¬Denied s i := by
  obtain ⟨request, e⟩ := i
  cases request with
  | lifecycle request =>
      rintro ⟨candidate, hrequested, hstatus⟩
      exact h.load_undenied hrequested hsaves hclocked hstatus
  | generate body =>
      rintro ⟨r, prompt, hcalls, hstatus⟩
      exact h.generate_undenied hcalls hsaves hclocked hstatus
  | _ => exact id

theorem run_undenied {modelRegistryPath : Bytes} {s : System} (h : Metered modelRegistryPath s)
    {requests : List (ClientRequest × Surroundings)} (hsaves : ∀ i ∈ requests, Saves i.2)
    (hclocked : Clocked (final step s requests).points) :
    ∀ e ∈ trace step s requests, ¬Denied e.before e.input := by
  induction requests generalizing s with
  | nil =>
      intro e he
      cases he
  | cons i requests ih =>
      rw [List.forall_mem_cons] at hsaves
      obtain ⟨more, hmore⟩ := run_points (s.step i).1 requests
      intro e he
      rcases List.mem_cons.mp he with rfl | he
      · rw [final, hmore] at hclocked
        exact step_undenied h hsaves.1 hclocked.left
      · exact ih (h.step i hsaves.1) hsaves.2 hclocked e he

/-- The message counter is the number of generations that were recorded since the start of the period, up
to the largest sane counter, and a new period begins no earlier than the last one ends. -/
def CountsMessages (config : RuntimeConfig) (past : List UsagePoint) (p : UsagePoint) : Prop :=
  ∃ state, UsageStateStore.load p.usage config.usageStatePath = (.ok, state) ∧
    state.messagesUsedThisPeriod =
      min (recordedSince state.periodStartUnix (past ++ [p]) : Int) UsageState.maxSaneCounter ∧
    ∀ q ∈ past.getLast?,
      let before := (UsageStateStore.load q.usage config.usageStatePath).2
      state.periodStartUnix = before.periodStartUnix ∨
        before.periodStartUnix + config.resetPeriodSeconds.toInt ≤ state.periodStartUnix

/-- Over any run from an absent usage state, whatever is loaded and unloaded in between, the server counts
every generation of all its runtimes, and it never denies one. -/
theorem dashboard_account (modelRegistryPath : Bytes) (world : World)
    (habsent : world.usage (startConfig modelRegistryPath).usageStatePath = .absent)
    (requests : List (ClientRequest × Surroundings)) (hsaves : ∀ i ∈ requests, Saves i.2)
    (hclocked : Clocked (final step (start modelRegistryPath world) requests).points) :
    let after := final step (start modelRegistryPath world) requests
    AtEvery (CountsMessages (startConfig modelRegistryPath)) after.points ∧
      ∀ e ∈ trace step (start modelRegistryPath world) requests, ¬Denied e.before e.input := by
  have htracked := (Metered.run habsent hsaves).tracked hclocked
  refine ⟨htracked.every.imp ?_, run_undenied (.start habsent) hsaves hclocked⟩
  rintro past p ⟨state, hload, haccounted, hnext⟩
  exact ⟨state, hload, haccounted.count, hnext⟩

def sampleSurroundings : Surroundings where
  load := Runtime.sampleInput
  generate := sampleGenerate
  hasMemory := true
  writable _ := (true, true)
  writableAtEnd := true
  info := { desc := [], nParams := 0, size := 24, nCtxTrain := 1024, nCtx := 1024, nThreads := 4 }
  sizedNow := 1000
  reportNow := 1000

/-- A model that is loaded twice, with a generation each time. -/
def sampleRequests (e : Surroundings) : List (ClientRequest × Surroundings) :=
  let load : ClientRequest := .lifecycle (.load (text "\x7b\"model_path\":\"m.gguf\"\x7d"))
  let generate : ClientRequest := .generate (text "\x7b\"prompt\":\"hi\"\x7d")
  [load, generate, .lifecycle .reload, generate, .stop].map fun request => (request, e)

theorem sampleRequests_saves {e : Surroundings} (h : Saves e) : ∀ i ∈ sampleRequests e, Saves i.2 := by
  intro i hi
  obtain ⟨request, -, rfl⟩ := List.mem_map.mp hi
  exact h

theorem dashboard_account_reloaded :
    let requests := sampleRequests sampleSurroundings
    let after := final step (start [] Runtime.sampleWorld) requests
    (AtEvery (CountsMessages (startConfig [])) after.points ∧
      ∀ e ∈ trace step (start [] Runtime.sampleWorld) requests, ¬Denied e.before e.input) ∧
      recordedSince 0 after.points = 2 := by
  intro requests after
  have hnows : after.points.map UsagePoint.now = List.replicate 8 1000 := by decide +kernel
  refine ⟨dashboard_account [] Runtime.sampleWorld rfl requests
    (sampleRequests_saves ⟨rfl, rfl, rfl, rfl⟩) ?_, by decide +kernel⟩
  rw [clocked_iff, hnows]
  decide

end System

end Dashboard

end EdgeMind
