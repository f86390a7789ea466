import EdgeMind.Framework.Run
import EdgeMind.Usage.Manager

/-!
# What the usage limits report

A decision agrees with the amounts and the time it reports, whatever denies it. The usage report is
the one of the decision that would be made, and nothing that is done to the state file depends on
whether it was asked for.
-/

namespace EdgeMind

open Framework

namespace UsageAccounting

/-- The parts of a decision agree: the flag, the outcome, what remains of the enabled limits and the
end of the period. -/
structure Agrees (policy : UsagePolicy) (state : UsageState) (now : Int)
    (decision : UsageDecision) : Prop where
  allowed_iff_outcome : decision.allowed = true ↔ decision.outcome = .allowed
  allowed_iff_remaining : decision.allowed = true ↔
    (0 < policy.sessionTimeLimitSeconds → 0 < decision.secondsRemaining) ∧
    (0 < policy.dailyMessageLimit → 0 < decision.messagesRemaining) ∧
    (0 < policy.dailyTokenLimit → 0 < decision.tokensRemaining)
  outcome : decision.outcome =
    if 0 < policy.sessionTimeLimitSeconds ∧ decision.secondsRemaining = 0 then .exhaustedTime
    else if 0 < policy.dailyMessageLimit ∧ decision.messagesRemaining = 0 then .exhaustedMessages
    else if 0 < policy.dailyTokenLimit ∧ decision.tokensRemaining = 0 then .exhaustedTokens
    else .allowed
  seconds : 0 < policy.sessionTimeLimitSeconds → decision.secondsRemaining =
    if 0 < state.sessionStartUnix ∧ state.sessionStartUnix ≤ now then
      max 0 (policy.sessionTimeLimitSeconds - (now - state.sessionStartUnix))
    else policy.sessionTimeLimitSeconds
  messages : 0 < policy.dailyMessageLimit → decision.messagesRemaining =
    max 0 (policy.dailyMessageLimit - state.messagesUsedThisPeriod)
  tokens : 0 < policy.dailyTokenLimit → decision.tokensRemaining =
    max 0 (policy.dailyTokenLimit - state.tokensUsedThisPeriod)
  remaining_nonneg : 0 ≤ decision.secondsRemaining ∧ 0 ≤ decision.messagesRemaining ∧
    0 ≤ decision.tokensRemaining
  period : 0 < state.periodStartUnix → ∀ t, state.periodStartUnix ≤ t →
    (periodHasRolledOver policy state t = true ↔ decision.periodResetUnix ≤ t)

theorem sessionRemaining_nonneg (policy : UsagePolicy) (state : UsageState) (now : Int) :
    0 ≤ sessionRemaining policy state now := by
  unfold sessionRemaining
  split_ifs <;> omega

theorem remainingOf_nonneg (limit used : Int) : 0 ≤ remainingOf limit used := by
  unfold remainingOf
  split <;> omega

theorem timeExhausted_iff (policy : UsagePolicy) (state : UsageState) (now : Int) :
    TimeExhausted policy state now ↔
      0 < policy.sessionTimeLimitSeconds ∧ sessionRemaining policy state now = 0 := by
  unfold TimeExhausted sessionRemaining
  split_ifs <;> omega

theorem limitReached_iff (limit used : Int) :
    LimitReached limit used ↔ 0 < limit ∧ remainingOf limit used = 0 := by
  unfold LimitReached remainingOf
  split_ifs <;> omega

theorem resetTime_le_iff (policy : UsagePolicy) {state : UsageState}
    (hstart : 0 < state.periodStartUnix) (now : Int) {t : Int} (ht : state.periodStartUnix ≤ t) :
    periodHasRolledOver policy state t = true ↔ resetTime policy state now ≤ t := by
  rw [UsageManager.periodHasRolledOver_iff, resetTime, if_pos hstart]
  omega

/-- Every decision agrees with what it reports. -/
theorem evaluate_agrees (policy : UsagePolicy) (state : UsageState) (now : Int) :
    Agrees policy state now (evaluate policy state now) := by
  have hseconds := sessionRemaining_nonneg policy state now
  have hmessages := remainingOf_nonneg policy.dailyMessageLimit state.messagesUsedThisPeriod
  have htokens := remainingOf_nonneg policy.dailyTokenLimit state.tokensUsedThisPeriod
  have hallowed := evaluate_allowed_iff policy state now
  rw [timeExhausted_iff, limitReached_iff, limitReached_iff] at hallowed
  have houtcome := evaluate_outcome policy state now
  simp only [outcomeOf, timeExhausted_iff, limitReached_iff] at houtcome
  have hparts := evaluate_eq policy state now
  constructor
  case allowed_iff_outcome => exact evaluate_allowed_eq policy state now
  case allowed_iff_remaining =>
    rw [hallowed, hparts]
    dsimp only [decisionOf]
    omega
  case outcome =>
    rw [houtcome, hparts]
    rfl
  case seconds =>
    intro hlimit
    rw [hparts]
    exact if_pos hlimit
  case messages =>
    intro hlimit
    rw [hparts]
    exact if_pos hlimit
  case tokens =>
    intro hlimit
    rw [hparts]
    exact if_pos hlimit
  case remaining_nonneg =>
    rw [hparts]
    exact ⟨hseconds, hmessages, htokens⟩
  case period =>
    intro hstart t ht
    rw [hparts]
    exact resetTime_le_iff policy hstart now ht

end UsageAccounting

namespace UsageManager

open UsageAccounting

/-- The operations of a manager, each with its clock reading and the outcome of its save. -/
inductive Operation
  | checkAdmission (now : Int) (outcome : SaveOutcome)
  | sessionStart (now : Int) (outcome : SaveOutcome)
  | recordGeneration (tokensGenerated : Int) (now : Int) (outcome : SaveOutcome)
  | usageReport (now : Int)

inductive Answer
  | decision (decision : UsageDecision)
  | saved (saved : Bool)
  | report (text : Bytes)
deriving DecidableEq

def perform (statePath : Path) (policy : UsagePolicy) (fs : FileSystem) :
    Operation → FileSystem × Answer
  | .checkAdmission now outcome =>
      let (fs, decision) := checkAdmission fs statePath policy now outcome
      (fs, .decision decision)
  | .sessionStart now outcome =>
      let (fs, saved) := sessionStart fs statePath now outcome
      (fs, .saved saved)
  | .recordGeneration tokensGenerated now outcome =>
      let (fs, saved) := recordGeneration fs statePath policy tokensGenerated now outcome
      (fs, .saved saved)
  | .usageReport now => (fs, .report (usageReport fs statePath policy now))

theorem currentState_idem (policy : UsagePolicy) (state : UsageState) (now : Int) :
    currentState policy (currentState policy state now) now = currentState policy state now := by
  by_cases hrolled : periodHasRolledOver policy state now = true
  · rw [currentState_rolled hrolled]
    unfold currentState
    split <;> rfl
  · have hcurrent : currentState policy state now = state := if_neg hrolled
    rw [hcurrent, hcurrent]

theorem checkAdmission_current (fs : FileSystem) (statePath : Path) (policy : UsagePolicy)
    (now : Int) (outcome : SaveOutcome) :
    ((UsageStateStore.load (checkAdmission fs statePath policy now outcome).1 statePath).1 =
        .corrupted ↔ (UsageStateStore.load fs statePath).1 = .corrupted) ∧
      currentState policy
        (UsageStateStore.load (checkAdmission fs statePath policy now outcome).1 statePath).2 now =
        currentState policy (UsageStateStore.load fs statePath).2 now := by
  rw [checkAdmission_stored]
  split
  · next h =>
      obtain ⟨hload, hrolled, -⟩ := h
      refine ⟨iff_of_false nofun hload, ?_⟩
      rw [← currentState_rolled hrolled, currentState_idem]
  · exact ⟨Iff.rfl, rfl⟩

theorem checkAdmission_idem (fs : FileSystem) (statePath : Path) (policy : UsagePolicy) (now : Int)
    (outcome outcome' : SaveOutcome) :
    (checkAdmission (checkAdmission fs statePath policy now outcome).1 statePath policy now
      outcome').2 = (checkAdmission fs statePath policy now outcome).2 := by
  obtain ⟨hcorrupted, hcurrent⟩ := checkAdmission_current fs statePath policy now outcome
  rw [checkAdmission_decision, checkAdmission_decision fs, hcurrent]
  simp only [hcorrupted]

/-- A report changes nothing and is what a check at the same time would say, after which a second
check says it again. -/
theorem usageReport_faithful (fs : FileSystem) (statePath : Path) (policy : UsagePolicy) (now : Int)
    (outcome outcome' : SaveOutcome) :
    let report := perform statePath policy fs (.usageReport now)
    let checked := checkAdmission fs statePath policy now outcome
    report.1 = fs ∧ report.2 = .report checked.2.diagnostic ∧
      (checkAdmission checked.1 statePath policy now outcome').2 = checked.2 :=
  ⟨rfl, congrArg Answer.report (usageReport_eq fs statePath policy now outcome),
    checkAdmission_idem fs statePath policy now outcome outcome'⟩

end UsageManager

end EdgeMind
