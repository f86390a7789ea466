import EdgeMind.Core.Config
import EdgeMind.Framework.CheckedInt
import EdgeMind.Usage.Manager

/-!
# Quota arithmetic in 64 bits

The functions of the usage limits with every sum and difference checked. On validated
configurations, states and clock values only one of them can leave the range: the time at which the
period ends, since nothing bounds the length of a period from above.
-/

namespace EdgeMind

open Framework RuntimeConfig

namespace UsageAccounting

def periodHasRolledOver64 (policy : UsagePolicy) (state : UsageState) (now : Int) : Option Bool :=
  if state.periodStartUnix ≤ 0 then some true
  else if now < state.periodStartUnix then some true
  else do
    let elapsed ← subInt64 now state.periodStartUnix
    return elapsed ≥ policy.resetPeriodSeconds

def evaluateSession64 (policy : UsagePolicy) (state : UsageState) (now : Int)
    (decision : UsageDecision) : Option UsageDecision :=
  if policy.sessionTimeLimitSeconds > 0 ∧ state.sessionStartUnix > 0 ∧
      now ≥ state.sessionStartUnix then do
    let elapsed ← subInt64 now state.sessionStartUnix
    let remaining ← subInt64 policy.sessionTimeLimitSeconds elapsed
    let decision := { decision with secondsRemaining := max 0 remaining }
    if elapsed ≥ policy.sessionTimeLimitSeconds then
      return { decision with allowed := false, outcome := .exhaustedTime }
    else return decision
  else if policy.sessionTimeLimitSeconds > 0 then
    some { decision with secondsRemaining := policy.sessionTimeLimitSeconds }
  else some decision

def evaluateMessages64 (policy : UsagePolicy) (state : UsageState) (decision : UsageDecision) :
    Option UsageDecision :=
  if policy.dailyMessageLimit > 0 then do
    let remaining ← subInt64 policy.dailyMessageLimit state.messagesUsedThisPeriod
    let decision := { decision with messagesRemaining := max 0 remaining }
    if state.messagesUsedThisPeriod ≥ policy.dailyMessageLimit ∧ decision.allowed then
      return { decision with allowed := false, outcome := .exhaustedMessages }
    else return decision
  else some decision

def evaluateTokens64 (policy : UsagePolicy) (state : UsageState) (decision : UsageDecision) :
    Option UsageDecision :=
  if policy.dailyTokenLimit > 0 then do
    let remaining ← subInt64 policy.dailyTokenLimit state.tokensUsedThisPeriod
    let decision := { decision with tokensRemaining := max 0 remaining }
    if state.tokensUsedThisPeriod ≥ policy.dailyTokenLimit ∧ decision.allowed then
      return { decision with allowed := false, outcome := .exhaustedTokens }
    else return decision
  else some decision

def periodReset64 (policy : UsagePolicy) (state : UsageState) (now : Int) : Option Int :=
  if state.periodStartUnix > 0 then addInt64 state.periodStartUnix policy.resetPeriodSeconds
  else addInt64 now policy.resetPeriodSeconds

def evaluate64 (policy : UsagePolicy) (state : UsageState) (now : Int) : Option UsageDecision := do
  let decision ← evaluateSession64 policy state now { allowed := true, outcome := .allowed }
  let decision ← evaluateMessages64 policy state decision
  let decision ← evaluateTokens64 policy state decision
  let periodResetUnix ← periodReset64 policy state now
  let decision := { decision with periodResetUnix }
  return { decision with diagnostic := formatDiagnostic decision policy }

end UsageAccounting

namespace UsageManager

def addMessage64 (state : UsageState) : Option UsageState :=
  if state.messagesUsedThisPeriod < UsageState.maxSaneCounter then do
    let messagesUsedThisPeriod ← addInt64 state.messagesUsedThisPeriod 1
    return { state with messagesUsedThisPeriod }
  else some state

def addTokens64 (state : UsageState) (tokensGenerated : Int) : Option UsageState := do
  let remainingHeadroom ← subInt64 UsageState.maxSaneCounter state.tokensUsedThisPeriod
  if remainingHeadroom > 0 then do
    let tokensUsedThisPeriod ←
      addInt64 state.tokensUsedThisPeriod (min tokensGenerated remainingHeadroom)
    return { state with tokensUsedThisPeriod }
  else some state

def addGeneration64 (state : UsageState) (tokensGenerated : Int) : Option UsageState := do
  let state ← addMessage64 state
  addTokens64 state tokensGenerated

def recordGeneration64 (fs : FileSystem) (statePath : Path) (policy : UsagePolicy)
    (tokensGenerated : Int) (now : Int) (outcome : SaveOutcome) : Option (FileSystem × Bool) :=
  if tokensGenerated < 0 then some (fs, false)
  else
    let (result, state) := UsageStateStore.load fs statePath
    if result = .corrupted then some (fs, false)
    else do
      let rolled ← UsageAccounting.periodHasRolledOver64 policy state now
      let state := if rolled then UsageAccounting.rollOverPeriod state now else state
      let state ← addGeneration64 state tokensGenerated
      return UsageStateStore.save fs statePath state outcome

end UsageManager

namespace UsageAccounting

section Bounds

variable {policy : UsagePolicy} {state : UsageState} {now : Int}

theorem periodHasRolledOver64_eq (hstate : UsageStateStore.Valid state)
    (hmax : now ≤ UsageState.maxSaneTimestamp) :
    periodHasRolledOver64 policy state now = some (periodHasRolledOver policy state now) := by
  have hstart := hstate.periodStart_nonneg
  have hstamp : UsageState.maxSaneTimestamp < 2 ^ 63 := by decide
  have hle := hstate.periodStart_le
  unfold periodHasRolledOver64 periodHasRolledOver
  split
  · rfl
  · split
    · rfl
    · rw [subInt64_bind (by omega) hstart (by omega) (by omega)]
      rfl

theorem evaluateSession64_eq (hstate : UsageStateStore.Valid state)
    (hmax : now ≤ UsageState.maxSaneTimestamp) (hlimit : policy.sessionTimeLimitSeconds < 2 ^ 63)
    (decision : UsageDecision) :
    evaluateSession64 policy state now decision =
      some (evaluateSession policy state now decision) := by
  have hstart := hstate.sessionStart_nonneg
  have hstamp : UsageState.maxSaneTimestamp < 2 ^ 63 := by decide
  have hle := hstate.sessionStart_le
  unfold evaluateSession64 evaluateSession
  split
  · next h =>
      obtain ⟨hpos, -, hnow⟩ := h
      rw [subInt64_bind (by omega) hstart (by omega) (by omega),
        subInt64_bind (by omega) (by omega) hlimit (by omega)]
      dsimp only
      split <;> rfl
  · split <;> rfl

theorem evaluateMessages64_eq (hstate : UsageStateStore.Valid state)
    (hlimit : policy.dailyMessageLimit < 2 ^ 63) (decision : UsageDecision) :
    evaluateMessages64 policy state decision = some (evaluateMessages policy state decision) := by
  have hused := hstate.messages_nonneg
  have hcounter : UsageState.maxSaneCounter < 2 ^ 63 := by decide
  have hle := hstate.messages_le
  unfold evaluateMessages64 evaluateMessages
  split
  · rw [subInt64_bind (by omega) hused hlimit (by omega)]
    dsimp only
    split <;> rfl
  · rfl

theorem evaluateTokens64_eq (hstate : UsageStateStore.Valid state)
    (hlimit : policy.dailyTokenLimit < 2 ^ 63) (decision : UsageDecision) :
    evaluateTokens64 policy state decision = some (evaluateTokens policy state decision) := by
  have hused := hstate.tokens_nonneg
  have hcounter : UsageState.maxSaneCounter < 2 ^ 63 := by decide
  have hle := hstate.tokens_le
  unfold evaluateTokens64 evaluateTokens
  split
  · rw [subInt64_bind (by omega) hused hlimit (by omega)]
    dsimp only
    split <;> rfl
  · rfl

theorem evaluate64_eq (hstate : UsageStateStore.Valid state)
    (hmax : now ≤ UsageState.maxSaneTimestamp) (htime : policy.sessionTimeLimitSeconds < 2 ^ 63)
    (hmessages : policy.dailyMessageLimit < 2 ^ 63) (htokens : policy.dailyTokenLimit < 2 ^ 63) :
    evaluate64 policy state now =
      if InInt64 (resetTime policy state now) then some (evaluate policy state now) else none := by
  have hreset : periodReset64 policy state now =
      if InInt64 (resetTime policy state now) then some (resetTime policy state now) else none := by
    unfold periodReset64 resetTime
    split <;> rfl
  rw [evaluate64, evaluateSession64_eq hstate hmax htime, Option.bind_eq_bind, Option.bind_some,
    evaluateMessages64_eq hstate hmessages, Option.bind_some, evaluateTokens64_eq hstate htokens,
    Option.bind_some, hreset]
  split <;> rfl

end Bounds

end UsageAccounting

namespace UsageManager

theorem addMessage64_eq {state : UsageState} (h : UsageStateStore.Valid state) :
    addMessage64 state = some (
      if state.messagesUsedThisPeriod < UsageState.maxSaneCounter then
        { state with messagesUsedThisPeriod := state.messagesUsedThisPeriod + 1 } else state) := by
  have hused := h.messages_nonneg
  have hcounter : UsageState.maxSaneCounter + 1 < 2 ^ 63 := by decide
  unfold addMessage64
  split
  · rw [addInt64_eq (by unfold InInt64; omega)]
    rfl
  · rfl

theorem addTokens64_eq {state : UsageState} (hused : 0 ≤ state.tokensUsedThisPeriod)
    (hle : state.tokensUsedThisPeriod ≤ UsageState.maxSaneCounter) {tokensGenerated : Int}
    (htokens : 0 ≤ tokensGenerated) :
    addTokens64 state tokensGenerated = some (
      if UsageState.maxSaneCounter - state.tokensUsedThisPeriod > 0 then
        { state with
          tokensUsedThisPeriod := state.tokensUsedThisPeriod +
            min tokensGenerated (UsageState.maxSaneCounter - state.tokensUsedThisPeriod) }
      else state) := by
  have hcounter : UsageState.maxSaneCounter < 2 ^ 63 := by decide
  unfold addTokens64
  rw [subInt64_bind (by omega) hused (by omega) (by omega)]
  split
  · rw [addInt64_eq (by unfold InInt64; omega)]
    rfl
  · rfl

theorem addGeneration64_eq {state : UsageState} (h : UsageStateStore.Valid state)
    {tokensGenerated : Int} (htokens : 0 ≤ tokensGenerated) :
    addGeneration64 state tokensGenerated = some (addGeneration state tokensGenerated) := by
  rw [addGeneration64, addMessage64_eq h, Option.bind_eq_bind, Option.bind_some,
    addTokens64_eq ?_ ?_ htokens]
  · rfl
  · split
    · exact h.tokens_nonneg
    · exact h.tokens_nonneg
  · split
    · exact h.tokens_le
    · exact h.tokens_le

theorem recordGeneration64_eq (fs : FileSystem) (statePath : Path) (policy : UsagePolicy)
    (tokensGenerated : Int) {now : Int} (hnow : 0 ≤ now) (hmax : now ≤ UsageState.maxSaneTimestamp)
    (outcome : SaveOutcome) :
    recordGeneration64 fs statePath policy tokensGenerated now outcome =
      some (recordGeneration fs statePath policy tokensGenerated now outcome) := by
  have hload := UsageStateStore.load_valid fs statePath
  unfold recordGeneration64 recordGeneration
  split
  · rfl
  · next htokens =>
      dsimp only
      split
      · rfl
      · have hcurrent : UsageStateStore.Valid
            (currentState policy (UsageStateStore.load fs statePath).2 now) := by
          unfold currentState
          split
          · exact (rollOverPeriod_valid_iff hload now).mpr ⟨hnow, hmax⟩
          · exact hload
        have hadded := addGeneration64_eq hcurrent (not_lt.mp htokens)
        unfold currentState at hadded
        rw [UsageAccounting.periodHasRolledOver64_eq hload hmax, Option.bind_eq_bind,
          Option.bind_some, hadded]
        rfl

end UsageManager

/-- On what validation accepts, with the clock in its range, the quota arithmetic stays within 64
bits exactly if the time at which the period ends does. -/
theorem quotaArithmetic_fits_iff {config : RuntimeConfig} {state : UsageState} {now : Int}
    (hconfig : validateConfig config = []) (hstate : UsageStateStore.validateState state = true)
    (hnow : 0 ≤ now) (hmax : now ≤ UsageState.maxSaneTimestamp) :
    ((UsageAccounting.periodHasRolledOver64 (toUsagePolicy config) state now).isSome = true ∧
      (UsageAccounting.evaluate64 (toUsagePolicy config) state now).isSome = true ∧
      ∀ (fs : FileSystem) (statePath : Path) (tokensGenerated : Int) (outcome : SaveOutcome),
        (UsageStateStore.load fs statePath).2 = state → 0 ≤ tokensGenerated →
        (UsageManager.recordGeneration64 fs statePath (toUsagePolicy config) tokensGenerated now
          outcome).isSome = true) ↔
      (if state.periodStartUnix > 0 then state.periodStartUnix else now) +
        config.resetPeriodSeconds.toInt ≤ 9223372036854775807 := by
  rw [UsageStateStore.validateState_iff] at hstate
  have hpolicy := (validConfig_of_validateConfig hconfig).policy
  have hreset : (UsageAccounting.evaluate64 (toUsagePolicy config) state now).isSome = true ↔
      InInt64 (UsageAccounting.resetTime (toUsagePolicy config) state now) := by
    rw [UsageAccounting.evaluate64_eq hstate hmax (Int64.toInt_lt _) (Int64.toInt_lt _)
      (Int64.toInt_lt _)]
    split <;> simp [*]
  have hperiod : (toUsagePolicy config).resetPeriodSeconds = config.resetPeriodSeconds.toInt := rfl
  have hfits : InInt64 (UsageAccounting.resetTime (toUsagePolicy config) state now) ↔
      (if state.periodStartUnix > 0 then state.periodStartUnix else now) +
        config.resetPeriodSeconds.toInt ≤ 9223372036854775807 := by
    unfold InInt64 UsageAccounting.resetTime
    split <;> omega
  rw [hreset, hfits, UsageAccounting.periodHasRolledOver64_eq hstate hmax]
  refine ⟨fun h => h.2.1, fun h => ⟨rfl, h, fun fs statePath tokensGenerated outcome _ _ => ?_⟩⟩
  rw [UsageManager.recordGeneration64_eq fs statePath _ _ hnow hmax]
  rfl

/-- The default period ends in range. -/
theorem quotaArithmetic_fits_default :
    (UsageAccounting.evaluate64 (toUsagePolicy { modelPath := text "m.gguf" }) {} 1700000000).isSome =
      true :=
  ((@quotaArithmetic_fits_iff { modelPath := text "m.gguf" } {} 1700000000 (by decide +kernel)
    (by decide) (by decide) (by decide)).mpr (by decide)).2.1

/-- The longest period that a configuration can have is accepted, and its end is out of range. -/
theorem quotaArithmetic_overflow :
    ¬∀ (config : RuntimeConfig) (state : UsageState) (now : Int), validateConfig config = [] →
      UsageStateStore.validateState state = true → 0 ≤ now → now ≤ UsageState.maxSaneTimestamp →
      (UsageAccounting.evaluate64 (toUsagePolicy config) state now).isSome = true := by
  intro h
  have hfits := h { modelPath := text "m.gguf", resetPeriodSeconds := 9223372036854775807 }
    { periodStartUnix := 1 } 1 (by decide +kernel) (by decide) (by decide) (by decide)
  exact absurd hfits (by decide)

end EdgeMind
