import EdgeMind.Usage.Accounting

/-!
# What a usage diagnostic tells

The text of a decision determines its outcome, the limits it was judged against, what remains of
the enabled ones and the time of the next reset.
-/

namespace EdgeMind

open Framework

namespace UsageAccounting

private theorem nondigit_head {unit rest : Bytes} {b : UInt8}
    (hunit : ∀ c ∈ unit.head?, isDigit c = false) (hb : isDigit b = false) :
    ∀ c ∈ (unit ++ b :: rest).head?, isDigit c = false := by
  cases unit with
  | nil => simpa using hb
  | cons c unit => simpa using hunit

private theorem remainingLine_enabled (label unit : Bytes) {limit : Int} (h : 0 < limit)
    (remaining : Int) (rest : Bytes) :
    remainingLine label unit limit remaining ++ rest = label ++ (intDecimal remaining ++
      (unit ++ 32 :: (text "(limit: " ++ (intDecimal limit ++ (unit ++ 41 :: 10 :: rest))))) := by
  have hopen : text " (limit: " = 32 :: text "(limit: " := rfl
  have hclose : text ")\n" = [41, 10] := rfl
  simp [remainingLine, h, hopen, hclose]

private theorem remainingLine_disabled (label unit : Bytes) {limit : Int} (h : ¬0 < limit)
    (remaining : Int) (rest : Bytes) :
    remainingLine label unit limit remaining ++ rest =
      label ++ 117 :: (text "nlimited\n" ++ rest) := by
  have hword : text "unlimited\n" = 117 :: text "nlimited\n" := rfl
  simp [remainingLine, h, hword]

theorem remainingLine_append_inj {label unit : Bytes} {limit limit' remaining remaining' : Int}
    {rest rest' : Bytes} (hunit : ∀ c ∈ unit.head?, isDigit c = false) (hlimit : 0 ≤ limit)
    (hlimit' : 0 ≤ limit')
    (h : remainingLine label unit limit remaining ++ rest =
      remainingLine label unit limit' remaining' ++ rest') :
    limit = limit' ∧ (0 < limit → remaining = remaining') ∧ rest = rest' := by
  by_cases hpos : 0 < limit <;> by_cases hpos' : 0 < limit'
  · rw [remainingLine_enabled _ _ hpos, remainingLine_enabled _ _ hpos'] at h
    obtain ⟨hremaining, h⟩ := intDecimal_append_inj (nondigit_head hunit (by decide))
      (nondigit_head hunit (by decide)) (List.append_cancel_left h)
    have h := List.append_cancel_left (List.cons.inj (List.append_cancel_left h)).2
    obtain ⟨heq, h⟩ := intDecimal_append_inj (nondigit_head hunit (by decide))
      (nondigit_head hunit (by decide)) h
    have h := List.append_cancel_left h
    exact ⟨heq, fun _ => hremaining, (List.cons.inj (List.cons.inj h).2).2⟩
  · rw [remainingLine_enabled _ _ hpos, remainingLine_disabled _ _ hpos'] at h
    exact absurd (List.append_cancel_left h) (intDecimal_append_ne (by decide) (by decide))
  · rw [remainingLine_disabled _ _ hpos, remainingLine_enabled _ _ hpos'] at h
    exact absurd (List.append_cancel_left h).symm (intDecimal_append_ne (by decide) (by decide))
  · rw [remainingLine_disabled _ _ hpos, remainingLine_disabled _ _ hpos'] at h
    have h := List.append_cancel_left (List.cons.inj (List.append_cancel_left h)).2
    exact ⟨by omega, fun h0 => absurd h0 hpos, h⟩

theorem statusLines_injective {o o' : UsageOutcome} (h : statusLines o = statusLines o') :
    o = o' := by
  revert h
  cases o <;> cases o' <;> decide

def SameLimits (p p' : UsagePolicy) : Prop :=
  p.sessionTimeLimitSeconds = p'.sessionTimeLimitSeconds ∧
    p.dailyMessageLimit = p'.dailyMessageLimit ∧ p.dailyTokenLimit = p'.dailyTokenLimit

/-- What a diagnostic shows of a decision under a policy. -/
structure SameReport (d d' : UsageDecision) (p p' : UsagePolicy) : Prop where
  limits : SameLimits p p'
  seconds : 0 < p.sessionTimeLimitSeconds → d.secondsRemaining = d'.secondsRemaining
  messages : 0 < p.dailyMessageLimit → d.messagesRemaining = d'.messagesRemaining
  tokens : 0 < p.dailyTokenLimit → d.tokensRemaining = d'.tokensRemaining
  reset : d.periodResetUnix = d'.periodResetUnix
  outcome : d.outcome = d'.outcome

structure SaneLimits (p : UsagePolicy) : Prop where
  session : 0 ≤ p.sessionTimeLimitSeconds
  messages : 0 ≤ p.dailyMessageLimit
  tokens : 0 ≤ p.dailyTokenLimit

private theorem remainingLine_congr (label unit : Bytes) {limit remaining remaining' : Int}
    (h : 0 < limit → remaining = remaining') :
    remainingLine label unit limit remaining = remainingLine label unit limit remaining' := by
  unfold remainingLine
  by_cases hpos : limit > 0
  · rw [h hpos]
  · rw [if_neg hpos, if_neg hpos]

theorem formatDiagnostic_eq_iff {d d' : UsageDecision} {p p' : UsagePolicy} (hp : SaneLimits p)
    (hp' : SaneLimits p') :
    formatDiagnostic d p = formatDiagnostic d' p' ↔ SameReport d d' p p' := by
  constructor
  · intro h
    simp only [formatDiagnostic, List.append_assoc] at h
    have hseconds : ∀ c ∈ (text "s").head?, isDigit c = false := by
      intro c hc
      cases hc
      rfl
    have hnone : ∀ c ∈ ([] : Bytes).head?, isDigit c = false := nofun
    obtain ⟨hsession, hseconds, h⟩ :=
      remainingLine_append_inj hseconds hp.session hp'.session h
    obtain ⟨hmessage, hmessages, h⟩ :=
      remainingLine_append_inj hnone hp.messages hp'.messages h
    obtain ⟨htoken, htokens, h⟩ := remainingLine_append_inj hnone hp.tokens hp'.tokens h
    have hbreak (rest : Bytes) : ∀ c ∈ (text "\n\n" ++ rest).head?, isDigit c = false := by
      intro c hc
      cases hc
      rfl
    obtain ⟨hreset, h⟩ := intDecimal_append_inj (hbreak _) (hbreak _) (List.append_cancel_left h)
    exact ⟨⟨hsession, hmessage, htoken⟩, hseconds, hmessages, htokens, hreset,
      statusLines_injective (List.append_cancel_left h)⟩
  · intro h
    obtain ⟨⟨hsession, hmessage, htoken⟩, hseconds, hmessages, htokens, hreset, houtcome⟩ := h
    simp only [formatDiagnostic]
    rw [← hsession, ← hmessage, ← htoken, hreset, houtcome, remainingLine_congr _ _ hseconds,
      remainingLine_congr _ _ hmessages, remainingLine_congr _ _ htokens]

end UsageAccounting

end EdgeMind
