import EdgeMind.Framework.Decimal

/-!
# Usage limits and their accounting

The policy, the persisted counters and the pure decision over them. Times and counters are
integers: where the clock and the reset period stay below `2^62`, no sum or difference of a
validated state and policy leaves 64 bits.
-/

namespace EdgeMind

open Framework

structure UsagePolicy where
  sessionTimeLimitSeconds : Int := 0
  dailyMessageLimit : Int := 0
  dailyTokenLimit : Int := 0
  resetPeriodSeconds : Int := 86400
deriving DecidableEq

structure UsageState where
  version : Int := 1
  periodStartUnix : Int := 0
  messagesUsedThisPeriod : Int := 0
  tokensUsedThisPeriod : Int := 0
  sessionStartUnix : Int := 0
deriving DecidableEq

namespace UsageState

def usageStateVersion : Int := 1

def maxSaneTimestamp : Int := 4102444800

def maxSaneCounter : Int := 1000000000000000

end UsageState

inductive UsageOutcome
  | allowed
  | exhaustedTime
  | exhaustedMessages
  | exhaustedTokens
  | stateCorrupted
deriving DecidableEq

structure UsageDecision where
  allowed : Bool := false
  outcome : UsageOutcome := .stateCorrupted
  secondsRemaining : Int := 0
  messagesRemaining : Int := 0
  tokensRemaining : Int := 0
  periodResetUnix : Int := 0
  diagnostic : Bytes := []
deriving DecidableEq

namespace UsageAccounting

def periodHasRolledOver (policy : UsagePolicy) (state : UsageState) (now : Int) : Bool :=
  if state.periodStartUnix ≤ 0 then true
  else if now < state.periodStartUnix then true
  else now - state.periodStartUnix ≥ policy.resetPeriodSeconds

def rollOverPeriod (state : UsageState) (now : Int) : UsageState :=
  { state with
    periodStartUnix := now
    messagesUsedThisPeriod := 0
    tokensUsedThisPeriod := 0 }

/-- One line of the report: what remains of an enabled limit. -/
def remainingLine (label unit : Bytes) (limit remaining : Int) : Bytes :=
  label ++ (if limit > 0 then
    intDecimal remaining ++ unit ++ text " (limit: " ++ intDecimal limit ++ unit ++ text ")\n"
    else text "unlimited\n")

def statusLines : UsageOutcome → Bytes
  | .allowed => text "STATUS: ALLOWED\n"
  | .exhaustedTime => text "STATUS: DENIED\n" ++ text "Reason: session time limit reached.\n"
  | .exhaustedMessages => text "STATUS: DENIED\n" ++ text "Reason: daily message limit reached.\n"
  | .exhaustedTokens => text "STATUS: DENIED\n" ++ text "Reason: daily token limit reached.\n"
  | .stateCorrupted => text "STATUS: DENIED\n" ++
      text "Reason: usage state could not be read safely (see diagnostic detail).\n"

def formatDiagnostic (decision : UsageDecision) (policy : UsagePolicy) : Bytes :=
  remainingLine (text "Session time remaining: ") (text "s") policy.sessionTimeLimitSeconds
      decision.secondsRemaining ++
    remainingLine (text "Messages remaining:     ") [] policy.dailyMessageLimit
      decision.messagesRemaining ++
    remainingLine (text "Tokens remaining:       ") [] policy.dailyTokenLimit
      decision.tokensRemaining ++
    text "Quota resets at (unix): " ++ intDecimal decision.periodResetUnix ++ text "\n\n" ++
    statusLines decision.outcome

/-- The session-time stage of `evaluate`. -/
def evaluateSession (policy : UsagePolicy) (state : UsageState) (now : Int)
    (decision : UsageDecision) : UsageDecision :=
  if policy.sessionTimeLimitSeconds > 0 ∧ state.sessionStartUnix > 0 ∧
      now ≥ state.sessionStartUnix then
    let elapsed := now - state.sessionStartUnix
    let decision := { decision with
      secondsRemaining := max 0 (policy.sessionTimeLimitSeconds - elapsed) }
    if elapsed ≥ policy.sessionTimeLimitSeconds then
      { decision with allowed := false, outcome := .exhaustedTime }
    else decision
  else if policy.sessionTimeLimitSeconds > 0 then
    { decision with secondsRemaining := policy.sessionTimeLimitSeconds }
  else decision

def evaluateMessages (policy : UsagePolicy) (state : UsageState) (decision : UsageDecision) :
    UsageDecision :=
  if policy.dailyMessageLimit > 0 then
    let decision := { decision with
      messagesRemaining := max 0 (policy.dailyMessageLimit - state.messagesUsedThisPeriod) }
    if state.messagesUsedThisPeriod ≥ policy.dailyMessageLimit ∧ decision.allowed then
      { decision with allowed := false, outcome := .exhaustedMessages }
    else decision
  else decision

def evaluateTokens (policy : UsagePolicy) (state : UsageState) (decision : UsageDecision) :
    UsageDecision :=
  if policy.dailyTokenLimit > 0 then
    let decision := { decision with
      tokensRemaining := max 0 (policy.dailyTokenLimit - state.tokensUsedThisPeriod) }
    if state.tokensUsedThisPeriod ≥ policy.dailyTokenLimit ∧ decision.allowed then
      { decision with allowed := false, outcome := .exhaustedTokens }
    else decision
  else decision

def evaluate (policy : UsagePolicy) (state : UsageState) (now : Int) : UsageDecision :=
  let decision : UsageDecision := { allowed := true, outcome := .allowed }
  let decision := evaluateTokens policy state
    (evaluateMessages policy state (evaluateSession policy state now decision))
  let decision := { decision with
    periodResetUnix :=
      if state.periodStartUnix > 0 then state.periodStartUnix + policy.resetPeriodSeconds
      else now + policy.resetPeriodSeconds }
  { decision with diagnostic := formatDiagnostic decision policy }

/-- The enabled limit on session time is used up. -/
def TimeExhausted (policy : UsagePolicy) (state : UsageState) (now : Int) : Prop :=
  policy.sessionTimeLimitSeconds > 0 ∧ state.sessionStartUnix > 0 ∧ now ≥ state.sessionStartUnix ∧
    now - state.sessionStartUnix ≥ policy.sessionTimeLimitSeconds

def LimitReached (limit used : Int) : Prop := limit > 0 ∧ used ≥ limit

instance (policy : UsagePolicy) (state : UsageState) (now : Int) :
    Decidable (TimeExhausted policy state now) :=
  inferInstanceAs (Decidable (_ ∧ _))

instance (limit used : Int) : Decidable (LimitReached limit used) :=
  inferInstanceAs (Decidable (_ ∧ _))

/-- The outcome is the first exhausted dimension, in the order time, messages, tokens. -/
def outcomeOf (policy : UsagePolicy) (state : UsageState) (now : Int) : UsageOutcome :=
  if TimeExhausted policy state now then .exhaustedTime
  else if LimitReached policy.dailyMessageLimit state.messagesUsedThisPeriod then
    .exhaustedMessages
  else if LimitReached policy.dailyTokenLimit state.tokensUsedThisPeriod then .exhaustedTokens
  else .allowed

def remainingOf (limit used : Int) : Int := if limit > 0 then max 0 (limit - used) else 0

/-- Seconds that remain of the session, as they are reported. -/
def sessionRemaining (policy : UsagePolicy) (state : UsageState) (now : Int) : Int :=
  if policy.sessionTimeLimitSeconds > 0 then
    if state.sessionStartUnix > 0 ∧ now ≥ state.sessionStartUnix then
      max 0 (policy.sessionTimeLimitSeconds - (now - state.sessionStartUnix))
    else policy.sessionTimeLimitSeconds
  else 0

def resetTime (policy : UsagePolicy) (state : UsageState) (now : Int) : Int :=
  if state.periodStartUnix > 0 then state.periodStartUnix + policy.resetPeriodSeconds
  else now + policy.resetPeriodSeconds

private theorem evaluateSession_eq (policy : UsagePolicy) (state : UsageState) (now : Int) :
    evaluateSession policy state now { allowed := true, outcome := .allowed } =
      { allowed := ¬TimeExhausted policy state now
        outcome := if TimeExhausted policy state now then .exhaustedTime else .allowed
        secondsRemaining := sessionRemaining policy state now } := by
  unfold evaluateSession sessionRemaining TimeExhausted
  by_cases hlimit : policy.sessionTimeLimitSeconds > 0
  · by_cases hstart : state.sessionStartUnix > 0 ∧ now ≥ state.sessionStartUnix
    · by_cases hdone : now - state.sessionStartUnix ≥ policy.sessionTimeLimitSeconds
      · simp [hlimit, hstart, hdone]
      · simp [hlimit, hstart, hdone]
    · have hno : ¬(policy.sessionTimeLimitSeconds > 0 ∧ state.sessionStartUnix > 0 ∧
          now ≥ state.sessionStartUnix) := fun h => hstart h.2
      have hnot : ¬(policy.sessionTimeLimitSeconds > 0 ∧ state.sessionStartUnix > 0 ∧
          now ≥ state.sessionStartUnix ∧
            now - state.sessionStartUnix ≥ policy.sessionTimeLimitSeconds) :=
        fun h => hstart ⟨h.2.1, h.2.2.1⟩
      rw [if_neg hno, if_pos hlimit, if_pos hlimit, if_neg hstart]
      simp [hnot]
  · simp [hlimit]

private theorem evaluateMessages_eq (policy : UsagePolicy) (state : UsageState)
    (d : UsageDecision) (h : d.messagesRemaining = 0) :
    evaluateMessages policy state d = { d with
      messagesRemaining := remainingOf policy.dailyMessageLimit state.messagesUsedThisPeriod
      allowed := d.allowed && ¬LimitReached policy.dailyMessageLimit state.messagesUsedThisPeriod
      outcome := if d.allowed ∧ LimitReached policy.dailyMessageLimit state.messagesUsedThisPeriod
        then .exhaustedMessages else d.outcome } := by
  obtain ⟨allowed, outcome, seconds, messages, tokens, reset, diagnostic⟩ := d
  unfold evaluateMessages remainingOf LimitReached
  dsimp only at h ⊢
  subst h
  by_cases hlimit : policy.dailyMessageLimit > 0
  · by_cases hdone : state.messagesUsedThisPeriod ≥ policy.dailyMessageLimit
    · cases allowed <;> simp [hlimit, hdone]
    · cases allowed <;> simp [hlimit, hdone]
  · simp [hlimit]

private theorem evaluateTokens_eq (policy : UsagePolicy) (state : UsageState)
    (d : UsageDecision) (h : d.tokensRemaining = 0) :
    evaluateTokens policy state d = { d with
      tokensRemaining := remainingOf policy.dailyTokenLimit state.tokensUsedThisPeriod
      allowed := d.allowed && ¬LimitReached policy.dailyTokenLimit state.tokensUsedThisPeriod
      outcome := if d.allowed ∧ LimitReached policy.dailyTokenLimit state.tokensUsedThisPeriod
        then .exhaustedTokens else d.outcome } := by
  obtain ⟨allowed, outcome, seconds, messages, tokens, reset, diagnostic⟩ := d
  unfold evaluateTokens remainingOf LimitReached
  dsimp only at h ⊢
  subst h
  by_cases hlimit : policy.dailyTokenLimit > 0
  · by_cases hdone : state.tokensUsedThisPeriod ≥ policy.dailyTokenLimit
    · cases allowed <;> simp [hlimit, hdone]
    · cases allowed <;> simp [hlimit, hdone]
  · simp [hlimit]

def decisionOf (policy : UsagePolicy) (state : UsageState) (now : Int) : UsageDecision where
  allowed := outcomeOf policy state now = .allowed
  outcome := outcomeOf policy state now
  secondsRemaining := sessionRemaining policy state now
  messagesRemaining := remainingOf policy.dailyMessageLimit state.messagesUsedThisPeriod
  tokensRemaining := remainingOf policy.dailyTokenLimit state.tokensUsedThisPeriod
  periodResetUnix := resetTime policy state now

theorem evaluate_eq (policy : UsagePolicy) (state : UsageState) (now : Int) :
    evaluate policy state now = { decisionOf policy state now with
      diagnostic := formatDiagnostic (decisionOf policy state now) policy } := by
  have hstages : evaluateTokens policy state (evaluateMessages policy state
      (evaluateSession policy state now { allowed := true, outcome := .allowed })) =
      { decisionOf policy state now with periodResetUnix := 0 } := by
    rw [evaluateSession_eq, evaluateMessages_eq _ _ _ rfl, evaluateTokens_eq _ _ _ rfl]
    unfold decisionOf outcomeOf
    by_cases htime : TimeExhausted policy state now
    · simp [htime]
    · by_cases hmessages : LimitReached policy.dailyMessageLimit state.messagesUsedThisPeriod
      · simp [htime, hmessages]
      · by_cases htokens : LimitReached policy.dailyTokenLimit state.tokensUsedThisPeriod
        · simp [htime, hmessages, htokens]
        · simp [htime, hmessages, htokens]
  simp only [evaluate, hstages]
  rfl

theorem evaluate_allowed_iff (policy : UsagePolicy) (state : UsageState) (now : Int) :
    (evaluate policy state now).allowed = true ↔ ¬TimeExhausted policy state now ∧
      ¬LimitReached policy.dailyMessageLimit state.messagesUsedThisPeriod ∧
      ¬LimitReached policy.dailyTokenLimit state.tokensUsedThisPeriod := by
  rw [evaluate_eq]
  simp only [decisionOf, outcomeOf]
  split_ifs <;> simp_all

theorem evaluate_allowed_eq (policy : UsagePolicy) (state : UsageState) (now : Int) :
    (evaluate policy state now).allowed = true ↔ (evaluate policy state now).outcome = .allowed := by
  rw [evaluate_eq]
  simp [decisionOf]

theorem evaluate_outcome (policy : UsagePolicy) (state : UsageState) (now : Int) :
    (evaluate policy state now).outcome = outcomeOf policy state now := by
  rw [evaluate_eq]
  rfl

end UsageAccounting

end EdgeMind
