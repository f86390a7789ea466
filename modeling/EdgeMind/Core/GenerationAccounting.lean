import EdgeMind.Core.LostRecords
import EdgeMind.Usage.Reports

/-!
# The accounting of a generation

Every generation that reaches the engine is recorded once, whatever exit it takes, as one message
and as many tokens as pieces were handed to the callback. One that does not reach it leaves the
usage file as the admission check does.
-/

namespace EdgeMind

open Framework UsageAccounting

namespace UsageManager

/-- The state found with one message and its tokens added, in a new period if its own has ended. -/
def recordedState (policy : UsagePolicy) (found : UsageState) (now : Int) (tokens : Nat) :
    UsageState :=
  let rolled := periodHasRolledOver policy found now
  { found with
    periodStartUnix := if rolled then now else found.periodStartUnix
    messagesUsedThisPeriod :=
      min ((if rolled then 0 else found.messagesUsedThisPeriod) + 1) UsageState.maxSaneCounter
    tokensUsedThisPeriod :=
      min ((if rolled then 0 else found.tokensUsedThisPeriod) + tokens) UsageState.maxSaneCounter }

/-- A record can be stored unless it begins a period at a time that cannot. -/
def Recordable (policy : UsagePolicy) (found : UsageState) (now : Int) : Prop :=
  periodHasRolledOver policy found now = true → 0 ≤ now ∧ now ≤ UsageState.maxSaneTimestamp

theorem addGeneration_current {policy : UsagePolicy} {found : UsageState}
    (h : UsageStateStore.Valid found) {now : Int} (hrecordable : Recordable policy found now)
    (tokens : Nat) :
    addGeneration (currentState policy found now) tokens = recordedState policy found now tokens := by
  by_cases hrolled : periodHasRolledOver policy found now = true
  · rw [currentState_rolled hrolled, addGeneration_eq
      ((rollOverPeriod_valid_iff h now).mpr (hrecordable hrolled)) (Int.natCast_nonneg tokens)]
    simp only [recordedState, rollOverPeriod, hrolled, if_true]
  · have hcurrent : currentState policy found now = found := if_neg hrolled
    rw [hcurrent, addGeneration_eq h (Int.natCast_nonneg tokens)]
    simp only [recordedState, hrolled, Bool.false_eq_true, if_false]

theorem recordGeneration_exact (fs : FileSystem) (statePath : Path) (policy : UsagePolicy)
    (tokens : Nat) (now : Int) (outcome : SaveOutcome)
    (hload : (UsageStateStore.load fs statePath).1 ≠ .corrupted) :
    let found := (UsageStateStore.load fs statePath).2
    let recorded := recordedState policy found now tokens
    let after := (recordGeneration fs statePath policy tokens now outcome).1
    (outcome = .ok ∧ Recordable policy found now →
      after statePath = .file (UsageStateStore.stateText recorded) true ∧
        UsageStateStore.load after statePath = (.ok, recorded) ∧ UsageStateStore.Valid recorded) ∧
    (¬(outcome = .ok ∧ Recordable policy found now) → after statePath = fs statePath) := by
  intro found recorded after
  have hreturns := recordGeneration_returns_iff fs statePath policy tokens now outcome
  rw [and_iff_right hload] at hreturns
  obtain ⟨hsaved, hfailed⟩ := recordGeneration_file fs statePath policy tokens now outcome
  constructor
  · intro h
    obtain ⟨hfile, hvalid⟩ := hsaved (hreturns.mpr h)
    rw [addGeneration_current (UsageStateStore.load_valid fs statePath) h.2] at hfile hvalid
    exact ⟨hfile, UsageStateStore.load_stateText hvalid hfile, hvalid⟩
  · intro h
    exact hfailed (Bool.eq_false_iff.mpr fun htrue => h (hreturns.mp htrue))

theorem checkAdmission_file (fs : FileSystem) (statePath : Path) (policy : UsagePolicy) (now : Int)
    (outcome : SaveOutcome) :
    let found := UsageStateStore.load fs statePath
    let after := (checkAdmission fs statePath policy now outcome).1
    after statePath = fs statePath ∨
      found.1 ≠ .corrupted ∧ periodHasRolledOver policy found.2 now = true ∧
        after statePath =
          .file (UsageStateStore.stateText (rollOverPeriod found.2 now)) true := by
  intro found after
  have hafter : after = (checkAdmission fs statePath policy now outcome).1 := rfl
  unfold checkAdmission at hafter
  dsimp only at hafter
  by_cases hload : found.1 = .corrupted
  · rw [if_pos hload] at hafter
    exact .inl (by rw [hafter])
  rw [if_neg hload] at hafter
  by_cases hrolled : periodHasRolledOver policy found.2 now = true
  · rw [if_pos hrolled] at hafter
    rw [hafter]
    cases hsave : (UsageStateStore.save fs statePath (rollOverPeriod found.2 now) outcome).2 with
    | false => exact .inl (UsageStateStore.save_failed hsave)
    | true => exact .inr ⟨hload, hrolled, UsageStateStore.save_file hsave⟩
  · rw [if_neg hrolled] at hafter
    exact .inl (by rw [hafter])

end UsageManager

namespace Runtime

/-- A ready runtime accounts in the state file of its configuration. -/
def Managed (r : Runtime) : Prop :=
  r.ready = true → r.usageManager = some r.config.usageStatePath

theorem load_managed (r : Runtime) (w : World) (config : RuntimeConfig) (input : LoadInput) :
    (r.load w config input).runtime.Managed := by
  have hcase := load_case r w config input
  generalize r.load w config input = result at hcase
  cases hcase with
  | engine =>
      unfold loadEngine
      dsimp only
      split
      · exact nofun
      · exact fun _ => rfl
  | _ => exact nofun

theorem step_managed (r : Runtime) (wc : World × Call) (h : r.Managed) : (step r wc).1.Managed := by
  obtain ⟨w, call⟩ := wc
  cases call with
  | load config input => exact load_managed r w config input
  | unload => exact nofun
  | generate prompt input =>
      obtain ⟨engine, lastError, hruntime, -, -⟩ := r.generate_runtime w prompt input
      change (r.generate w prompt input).runtime.Managed
      rw [hruntime]
      exact h
  | resetContext hasMemory => exact h

theorem final_managed (calls : List (World × Call)) : (final step {} calls).Managed :=
  final_invariant Managed (fun _ => True) (fun r wc _ => step_managed r wc)
    (fun h => absurd h Bool.false_ne_true) (fun _ _ => trivial)

theorem countP_isRecord_llama (calls : List LlamaCall) :
    (calls.map Effect.llama).countP Effect.isRecord = 0 := by
  rw [List.countP_eq_zero]
  intro effect h
  obtain ⟨call, -, rfl⟩ := List.mem_map.mp h
  exact Bool.false_ne_true

/-- In every reachable state a generation that is not ready leaves the usage files, one that is
denied rolls the period over at most, and any other is recorded once in the state that is found
then, unless that cannot be saved. -/
theorem generate_accounting (calls : List (World × Call)) (w : World) (prompt : Bytes)
    (input : GenerateInput) :
    let r := final step {} calls
    let path := r.config.usageStatePath
    let policy := toUsagePolicy r.config
    let check := UsageManager.checkAdmission w.usage path policy input.admissionNow
      input.admissionSave
    let tokens := (r.engine.generate prompt input.llama).pieces.length
    let result := r.generate w prompt input
    let records := result.effects.countP Effect.isRecord
    (¬r.isReady = true → result.world.usage = w.usage ∧ records = 0) ∧
    (r.isReady = true → ¬check.2.allowed = true → records = 0 ∧
      (result.world.usage path = w.usage path ∨
        let found := UsageStateStore.load w.usage path
        found.1 ≠ .corrupted ∧ periodHasRolledOver policy found.2 input.admissionNow = true ∧
          result.world.usage path = .file
            (UsageStateStore.stateText (rollOverPeriod found.2 input.admissionNow)) true)) ∧
    (r.isReady = true → check.2.allowed = true → records = 1 ∧
      let found := UsageStateStore.load check.1 path
      let recorded := UsageManager.recordedState policy found.2 input.recordNow tokens
      let saved := input.recordSave = .ok ∧
        UsageManager.Recordable policy found.2 input.recordNow
      found.1 ≠ .corrupted ∧
      (saved → result.world.usage path = .file (UsageStateStore.stateText recorded) true ∧
        UsageStateStore.load result.world.usage path = (.ok, recorded) ∧
        UsageStateStore.Valid recorded) ∧
      (¬saved → result.world.usage path = check.1 path)) := by
  intro r path policy check tokens result records
  have hmanager : r.isReady = true → r.usageManager = some path :=
    fun h => final_managed calls (Bool.and_eq_true_iff.mp h).1
  have hcase := generate_transactions hmanager w prompt input
  dsimp only at hcase
  rcases hcase with ⟨hno, heffects, husage⟩ | ⟨hready, hdenied, heffects, husage⟩ |
    ⟨hready, hallowed, heffects, husage⟩
  · have hrecords : records = 0 := by
      rw [show records = result.effects.countP Effect.isRecord from rfl, heffects]
      rfl
    exact ⟨fun _ => ⟨husage, hrecords⟩, fun h => absurd h hno, fun h => absurd h hno⟩
  · have hrecords : records = 0 := by
      rw [show records = result.effects.countP Effect.isRecord from rfl, heffects]
      rfl
    have hfile := UsageManager.checkAdmission_file w.usage path policy input.admissionNow
      input.admissionSave
    rw [← husage] at hfile
    exact ⟨fun h => absurd hready h, fun _ _ => ⟨hrecords, hfile⟩,
      fun _ h => absurd h hdenied⟩
  · have hrecords : records = 1 := by
      rw [show records = result.effects.countP Effect.isRecord from rfl, heffects,
        List.countP_append, List.countP_append, countP_isRecord_llama]
      rfl
    have hload : (UsageStateStore.load check.1 path).1 ≠ .corrupted := by
      rw [(UsageManager.checkAdmission_current w.usage path policy input.admissionNow
        input.admissionSave).1.ne]
      exact ((UsageManager.checkAdmission_allowed_iff w.usage path policy input.admissionNow
        input.admissionSave).mp hallowed).1
    obtain ⟨hsaved, hfailed⟩ := UsageManager.recordGeneration_exact check.1 path policy tokens
      input.recordNow input.recordSave hload
    rw [← husage] at hsaved hfailed
    exact ⟨fun h => absurd hready h, fun _ h => absurd hallowed h,
      fun _ _ => ⟨hrecords, hload, hsaved, hfailed⟩⟩

end Runtime

end EdgeMind
