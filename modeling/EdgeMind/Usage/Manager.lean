import EdgeMind.Usage.StateStore

/-!
# The usage manager

Every operation is one transaction on the state file: load it, roll the period over if it has
expired, decide or record, and save. The clock reading and the outcome of the save are arguments.
-/

namespace EdgeMind

open Framework

namespace UsageManager

def corruptedDecision (statePath : Path) : UsageDecision where
  allowed := false
  outcome := .stateCorrupted
  diagnostic :=
    text "STATUS: DENIED\n" ++
    text "Reason: usage state file could not be read safely (missing fields, unrecognized\n" ++
    text "version, or out-of-range values).\n\n" ++
    text "Path: " ++ statePath ++ text "\n\n" ++
    text "This is treated as a fail-closed condition, distinct from a legitimately\n" ++
    text "exhausted quota: SYJ EdgeMind will not silently grant unlimited usage when\n" ++
    text "its own local state cannot be trusted. If you know this state file is safe\n" ++
    text "to discard (e.g. after a manual edit gone wrong), remove it to start fresh.\n"

/-- The state at the clock value: rolled over if its period has expired. -/
def currentState (policy : UsagePolicy) (state : UsageState) (now : Int) : UsageState :=
  if UsageAccounting.periodHasRolledOver policy state now then
    UsageAccounting.rollOverPeriod state now
  else state

/-- A rollover is persisted if it can be; the decision does not depend on it. -/
def checkAdmission (fs : FileSystem) (statePath : Path) (policy : UsagePolicy) (now : Int)
    (outcome : SaveOutcome) : FileSystem × UsageDecision :=
  let (result, state) := UsageStateStore.load fs statePath
  if result = .corrupted then (fs, corruptedDecision statePath)
  else
    let fs := if UsageAccounting.periodHasRolledOver policy state now then
      (UsageStateStore.save fs statePath (UsageAccounting.rollOverPeriod state now) outcome).1 else fs
    (fs, UsageAccounting.evaluate policy (currentState policy state now) now)

def sessionStart (fs : FileSystem) (statePath : Path) (now : Int) (outcome : SaveOutcome) :
    FileSystem × Bool :=
  let (result, state) := UsageStateStore.load fs statePath
  if result = .corrupted then (fs, false)
  else UsageStateStore.save fs statePath { state with sessionStartUnix := now } outcome

/-- One message and its tokens, saturating at the largest sane counter. -/
def addGeneration (state : UsageState) (tokensGenerated : Int) : UsageState :=
  let state := if state.messagesUsedThisPeriod < UsageState.maxSaneCounter then
    { state with messagesUsedThisPeriod := state.messagesUsedThisPeriod + 1 } else state
  let remainingHeadroom := UsageState.maxSaneCounter - state.tokensUsedThisPeriod
  if remainingHeadroom > 0 then
    { state with
      tokensUsedThisPeriod := state.tokensUsedThisPeriod + min tokensGenerated remainingHeadroom }
  else state

def recordGeneration (fs : FileSystem) (statePath : Path) (policy : UsagePolicy)
    (tokensGenerated : Int) (now : Int) (outcome : SaveOutcome) : FileSystem × Bool :=
  if tokensGenerated < 0 then (fs, false)
  else
    let (result, state) := UsageStateStore.load fs statePath
    if result = .corrupted then (fs, false)
    else
      UsageStateStore.save fs statePath
        (addGeneration (currentState policy state now) tokensGenerated) outcome

/-- The report does not persist a rollover. -/
def usageReport (fs : FileSystem) (statePath : Path) (policy : UsagePolicy) (now : Int) : Bytes :=
  let (result, state) := UsageStateStore.load fs statePath
  if result = .corrupted then (corruptedDecision statePath).diagnostic
  else (UsageAccounting.evaluate policy (currentState policy state now) now).diagnostic

open UsageAccounting

theorem periodHasRolledOver_iff (policy : UsagePolicy) (state : UsageState) (now : Int) :
    periodHasRolledOver policy state now = true ↔ state.periodStartUnix ≤ 0 ∨
      now < state.periodStartUnix ∨ policy.resetPeriodSeconds ≤ now - state.periodStartUnix := by
  unfold periodHasRolledOver
  split_ifs with hfresh hback
  · simp [hfresh]
  · simp [hback]
  · simp [hfresh, hback]

@[simp]
theorem currentState_sessionStart (policy : UsagePolicy) (state : UsageState) (now : Int) :
    (currentState policy state now).sessionStartUnix = state.sessionStartUnix := by
  unfold currentState
  split <;> rfl

theorem checkAdmission_decision (fs : FileSystem) (statePath : Path) (policy : UsagePolicy)
    (now : Int) (outcome : SaveOutcome) :
    (checkAdmission fs statePath policy now outcome).2 =
      if (UsageStateStore.load fs statePath).1 = .corrupted then corruptedDecision statePath
      else evaluate policy (currentState policy (UsageStateStore.load fs statePath).2 now) now := by
  unfold checkAdmission
  dsimp only
  split <;> rfl

theorem usageReport_eq (fs : FileSystem) (statePath : Path) (policy : UsagePolicy) (now : Int)
    (outcome : SaveOutcome) :
    usageReport fs statePath policy now =
      (checkAdmission fs statePath policy now outcome).2.diagnostic := by
  rw [checkAdmission_decision]
  unfold usageReport
  dsimp only
  split <;> rfl

theorem currentState_rolled {policy : UsagePolicy} {state : UsageState} {now : Int}
    (h : periodHasRolledOver policy state now = true) :
    currentState policy state now = rollOverPeriod state now := by
  rw [currentState, if_pos h]

theorem allowed_of_rolled {policy : UsagePolicy} {state : UsageState} {now : Int}
    (hsession : policy.sessionTimeLimitSeconds ≤ 0 ∨ state.sessionStartUnix ≤ 0)
    (hrolled : periodHasRolledOver policy state now = true) :
    (evaluate policy (currentState policy state now) now).allowed = true := by
  rw [evaluate_allowed_iff, currentState_rolled hrolled]
  simp only [TimeExhausted, LimitReached, rollOverPeriod]
  omega

theorem exhaustedTime_of_late {policy : UsagePolicy} {state : UsageState} {now : Int}
    (hlimit : 0 < policy.sessionTimeLimitSeconds) (hstart : 0 < state.sessionStartUnix)
    (hlate : state.sessionStartUnix + policy.sessionTimeLimitSeconds ≤ now) :
    (evaluate policy (currentState policy state now) now).outcome = .exhaustedTime := by
  have htime : TimeExhausted policy (currentState policy state now) now := by
    rw [TimeExhausted, currentState_sessionStart]
    omega
  rw [evaluate_outcome, outcomeOf, if_pos htime]

theorem rollOverPeriod_valid_iff {state : UsageState} (h : UsageStateStore.Valid state)
    (now : Int) : UsageStateStore.Valid (rollOverPeriod state now) ↔
      0 ≤ now ∧ now ≤ UsageState.maxSaneTimestamp := by
  constructor
  · intro hrolled
    exact ⟨hrolled.periodStart_nonneg, hrolled.periodStart_le⟩
  · intro hnow
    exact { h with
      periodStart_nonneg := hnow.1
      periodStart_le := hnow.2
      messages_nonneg := le_rfl
      messages_le := UsageStateStore.valid_default.messages_le
      tokens_nonneg := le_rfl
      tokens_le := UsageStateStore.valid_default.tokens_le }

theorem addGeneration_eq {state : UsageState} (h : UsageStateStore.Valid state)
    {tokensGenerated : Int} (htokens : 0 ≤ tokensGenerated) :
    addGeneration state tokensGenerated = { state with
      messagesUsedThisPeriod := min (state.messagesUsedThisPeriod + 1) UsageState.maxSaneCounter
      tokensUsedThisPeriod :=
        min (state.tokensUsedThisPeriod + tokensGenerated) UsageState.maxSaneCounter } := by
  have hm := h.messages_le
  have ht := h.tokens_le
  have hmessages : (if state.messagesUsedThisPeriod < UsageState.maxSaneCounter then
      { state with messagesUsedThisPeriod := state.messagesUsedThisPeriod + 1 } else state) =
      { state with
        messagesUsedThisPeriod :=
          min (state.messagesUsedThisPeriod + 1) UsageState.maxSaneCounter } := by
    split
    · rw [min_eq_left (by omega)]
    · rw [min_eq_right (by omega), ← le_antisymm hm (by omega)]
  unfold addGeneration
  dsimp only
  rw [hmessages]
  dsimp only
  split
  · rw [show state.tokensUsedThisPeriod + min tokensGenerated
      (UsageState.maxSaneCounter - state.tokensUsedThisPeriod) =
        min (state.tokensUsedThisPeriod + tokensGenerated) UsageState.maxSaneCounter by omega]
  · rw [show min (state.tokensUsedThisPeriod + tokensGenerated) UsageState.maxSaneCounter =
      state.tokensUsedThisPeriod by omega]

theorem addGeneration_valid {state : UsageState} (h : UsageStateStore.Valid state)
    {tokensGenerated : Int} (htokens : 0 ≤ tokensGenerated) :
    UsageStateStore.Valid (addGeneration state tokensGenerated) := by
  have hm := h.messages_nonneg
  have ht := h.tokens_nonneg
  have hc : 0 ≤ UsageState.maxSaneCounter := by decide
  rw [addGeneration_eq h htokens]
  exact { h with
    messages_nonneg := by dsimp only; omega
    messages_le := min_le_right _ _
    tokens_nonneg := by dsimp only; omega
    tokens_le := min_le_right _ _ }

@[simp]
theorem addGeneration_periodStart (state : UsageState) (tokensGenerated : Int) :
    (addGeneration state tokensGenerated).periodStartUnix = state.periodStartUnix := by
  unfold addGeneration
  dsimp only
  split_ifs <;> rfl

@[simp]
theorem addGeneration_sessionStart (state : UsageState) (tokensGenerated : Int) :
    (addGeneration state tokensGenerated).sessionStartUnix = state.sessionStartUnix := by
  unfold addGeneration
  dsimp only
  split_ifs <;> rfl

@[simp]
theorem addGeneration_messages (state : UsageState) (tokensGenerated : Int) :
    (addGeneration state tokensGenerated).messagesUsedThisPeriod =
      if state.messagesUsedThisPeriod < UsageState.maxSaneCounter then
        state.messagesUsedThisPeriod + 1 else state.messagesUsedThisPeriod := by
  unfold addGeneration
  dsimp only
  split_ifs <;> rfl

theorem generation_valid_iff (policy : UsagePolicy) {state : UsageState}
    (h : UsageStateStore.Valid state) {tokensGenerated : Int} (htokens : 0 ≤ tokensGenerated)
    (now : Int) :
    UsageStateStore.Valid (addGeneration (currentState policy state now) tokensGenerated) ↔
      (periodHasRolledOver policy state now = true →
        0 ≤ now ∧ now ≤ UsageState.maxSaneTimestamp) := by
  constructor
  · intro hvalid hrolled
    have hstart : (addGeneration (currentState policy state now)
        tokensGenerated).periodStartUnix = now := by
      rw [addGeneration_periodStart, currentState_rolled hrolled]
      rfl
    exact ⟨hstart ▸ hvalid.periodStart_nonneg, hstart ▸ hvalid.periodStart_le⟩
  · intro hstorable
    refine addGeneration_valid ?_ htokens
    unfold currentState
    split
    · next hrolled => exact (rollOverPeriod_valid_iff h now).mpr (hstorable hrolled)
    · exact h

/-- The rollover of an admission check is written to the state file. -/
def RolloverSaved (policy : UsagePolicy) (state : UsageState) (now : Int) (outcome : SaveOutcome) :
    Prop :=
  periodHasRolledOver policy state now = true ∧ outcome = .ok ∧ 0 ≤ now ∧
    now ≤ UsageState.maxSaneTimestamp

instance (policy : UsagePolicy) (state : UsageState) (now : Int) (outcome : SaveOutcome) :
    Decidable (RolloverSaved policy state now outcome) :=
  inferInstanceAs (Decidable (_ ∧ _))

theorem checkAdmission_stored (fs : FileSystem) (statePath : Path) (policy : UsagePolicy)
    (now : Int) (outcome : SaveOutcome) :
    UsageStateStore.load (checkAdmission fs statePath policy now outcome).1 statePath =
      if (UsageStateStore.load fs statePath).1 ≠ .corrupted ∧
          RolloverSaved policy (UsageStateStore.load fs statePath).2 now outcome then
        (.ok, rollOverPeriod (UsageStateStore.load fs statePath).2 now)
      else UsageStateStore.load fs statePath := by
  have hvalid := rollOverPeriod_valid_iff (UsageStateStore.load_valid fs statePath) now
  unfold checkAdmission
  dsimp only
  by_cases hload : (UsageStateStore.load fs statePath).1 = .corrupted
  · rw [if_pos hload, if_neg (fun h => h.1 hload)]
  rw [if_neg hload]
  dsimp only
  by_cases hrolled : periodHasRolledOver policy (UsageStateStore.load fs statePath).2 now = true
  · rw [if_pos hrolled]
    have hsaved := UsageStateStore.save_eq_true_iff fs statePath
      (rollOverPeriod (UsageStateStore.load fs statePath).2 now) outcome
    rw [hvalid] at hsaved
    by_cases hok : outcome = .ok ∧ 0 ≤ now ∧ now ≤ UsageState.maxSaneTimestamp
    · rw [if_pos ⟨hload, hrolled, hok⟩]
      exact UsageStateStore.load_save (hsaved.mpr hok)
    · rw [if_neg (fun h => hok h.2.2)]
      exact UsageStateStore.load_congr (UsageStateStore.save_failed
        (Bool.eq_false_iff.mpr fun h => hok (hsaved.mp h)))
  · rw [if_neg hrolled, if_neg (fun h => hrolled h.2.1)]

theorem checkAdmission_local (statePath : Path) (policy : UsagePolicy) (now : Int)
    (outcome : SaveOutcome) :
    LocalTo statePath fun fs => checkAdmission fs statePath policy now outcome := by
  have hlocal (loaded : UsageStateLoadResult × UsageState) : LocalTo statePath fun fs =>
      if loaded.1 = .corrupted then (fs, corruptedDecision statePath)
      else (if periodHasRolledOver policy loaded.2 now then
          (UsageStateStore.save fs statePath (rollOverPeriod loaded.2 now) outcome).1 else fs,
        evaluate policy (currentState policy loaded.2 now) now) := by
    refine .ite (.keep _) ?_
    split
    · exact (UsageStateStore.save_local statePath _ outcome).map fun _ => _
    · exact .keep _
  exact .load (fun _ _ => UsageStateStore.load_congr) hlocal

theorem sessionStart_local (statePath : Path) (now : Int) (outcome : SaveOutcome) :
    LocalTo statePath fun fs => sessionStart fs statePath now outcome := by
  have hlocal (loaded : UsageStateLoadResult × UsageState) : LocalTo statePath fun fs =>
      if loaded.1 = .corrupted then (fs, false)
      else UsageStateStore.save fs statePath { loaded.2 with sessionStartUnix := now } outcome :=
    .ite (.keep _) (UsageStateStore.save_local statePath _ outcome)
  exact .load (fun _ _ => UsageStateStore.load_congr) hlocal

theorem recordGeneration_local (statePath : Path) (policy : UsagePolicy) (tokensGenerated : Int)
    (now : Int) (outcome : SaveOutcome) :
    LocalTo statePath fun fs => recordGeneration fs statePath policy tokensGenerated now outcome := by
  have hlocal (loaded : UsageStateLoadResult × UsageState) : LocalTo statePath fun fs =>
      if loaded.1 = .corrupted then (fs, false)
      else UsageStateStore.save fs statePath
        (addGeneration (currentState policy loaded.2 now) tokensGenerated) outcome :=
    .ite (.keep _) (UsageStateStore.save_local statePath _ outcome)
  exact .ite (.keep _) (.load (fun _ _ => UsageStateStore.load_congr) hlocal)

end UsageManager

end EdgeMind
