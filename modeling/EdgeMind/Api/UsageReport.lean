import EdgeMind.Api.EdgeMindApi
import EdgeMind.Core.QuotaStage
import EdgeMind.Usage.Diagnostic

/-!
# The usage report after a denial

The report is computed from the stored configuration, which a denied load does not replace. It tells
the denial exactly if the state cannot be read, or the stored configuration has the same limits and
comes to the same reset time.
-/

namespace EdgeMind

open Framework UsageAccounting UsageManager

theorem resetTime_currentState (p : UsagePolicy) (s : UsageState) (now : Int) :
    resetTime p (currentState p s now) now =
      (if periodHasRolledOver p s now then now else s.periodStartUnix) + p.resetPeriodSeconds := by
  unfold currentState resetTime
  by_cases hrolled : periodHasRolledOver p s now = true
  · rw [if_pos hrolled, if_pos hrolled, rollOverPeriod]
    dsimp only
    split <;> rfl
  · rw [if_neg hrolled, if_neg hrolled, if_pos]
    rw [periodHasRolledOver_iff] at hrolled
    omega

theorem currentState_rollOverPeriod (p : UsagePolicy) (s : UsageState) (now : Int) :
    currentState p (rollOverPeriod s now) now = rollOverPeriod s now := by
  unfold currentState
  split <;> rfl

theorem currentState_messages (p : UsagePolicy) (s : UsageState) (now : Int) :
    (currentState p s now).messagesUsedThisPeriod =
      if periodHasRolledOver p s now then 0 else s.messagesUsedThisPeriod := by
  unfold currentState
  split <;> rfl

theorem currentState_tokens (p : UsagePolicy) (s : UsageState) (now : Int) :
    (currentState p s now).tokensUsedThisPeriod =
      if periodHasRolledOver p s now then 0 else s.tokensUsedThisPeriod := by
  unfold currentState
  split <;> rfl

/-- Within one session two decisions show the same exactly if limits, enabled counters and reset
time agree. -/
theorem sameReport_iff {p p' : UsagePolicy} {s s' : UsageState} (now : Int)
    (hsession : s.sessionStartUnix = s'.sessionStartUnix) :
    SameReport (decisionOf p s now) (decisionOf p' s' now) p p' ↔ SameLimits p p' ∧
      (0 < p.dailyMessageLimit → max 0 (p.dailyMessageLimit - s.messagesUsedThisPeriod) =
        max 0 (p.dailyMessageLimit - s'.messagesUsedThisPeriod)) ∧
      (0 < p.dailyTokenLimit → max 0 (p.dailyTokenLimit - s.tokensUsedThisPeriod) =
        max 0 (p.dailyTokenLimit - s'.tokensUsedThisPeriod)) ∧
      resetTime p s now = resetTime p' s' now := by
  constructor
  · intro h
    obtain ⟨⟨hs, hm, ht⟩, -, hmessages, htokens, hreset, -⟩ := h
    refine ⟨⟨hs, hm, ht⟩, fun hpos => ?_, fun hpos => ?_, hreset⟩
    · have h := hmessages hpos
      simpa only [decisionOf, remainingOf, ← hm, if_pos hpos] using h
    · have h := htokens hpos
      simpa only [decisionOf, remainingOf, ← ht, if_pos hpos] using h
  · intro h
    obtain ⟨⟨hs, hm, ht⟩, hmessages, htokens, hreset⟩ := h
    have htime : TimeExhausted p s now ↔ TimeExhausted p' s' now := by
      rw [TimeExhausted, TimeExhausted, hs, hsession]
    have hmessage : LimitReached p.dailyMessageLimit s.messagesUsedThisPeriod ↔
        LimitReached p'.dailyMessageLimit s'.messagesUsedThisPeriod := by
      rw [LimitReached, LimitReached, ← hm]
      omega
    have htoken : LimitReached p.dailyTokenLimit s.tokensUsedThisPeriod ↔
        LimitReached p'.dailyTokenLimit s'.tokensUsedThisPeriod := by
      rw [LimitReached, LimitReached, ← ht]
      omega
    exact {
      limits := ⟨hs, hm, ht⟩
      seconds := fun _ => by simp only [decisionOf, sessionRemaining, hs, hsession]
      messages := fun hpos => by
        simp only [decisionOf, remainingOf, ← hm, if_pos hpos]
        exact hmessages hpos
      tokens := fun hpos => by
        simp only [decisionOf, remainingOf, ← ht, if_pos hpos]
        exact htokens hpos
      reset := hreset
      outcome := by simp only [decisionOf, outcomeOf, htime, hmessage, htoken] }

/-- Two periods that differ lead to the same reset time, with nothing used in the period that is
running: one of them has just rolled over and the other has not. -/
def SameResetByChance (p p' : UsagePolicy) (s : UsageState) (now : Int) (outcome : SaveOutcome) :
    Prop :=
  (0 < p.dailyMessageLimit → s.messagesUsedThisPeriod = 0) ∧
    (0 < p.dailyTokenLimit → s.tokensUsedThisPeriod = 0) ∧
    ((periodHasRolledOver p s now = true ∧ ¬RolloverSaved p s now outcome ∧
        periodHasRolledOver p' s now = false ∧
        s.periodStartUnix + p'.resetPeriodSeconds = now + p.resetPeriodSeconds) ∨
      (periodHasRolledOver p s now = false ∧ periodHasRolledOver p' s now = true ∧
        s.periodStartUnix + p.resetPeriodSeconds = now + p'.resetPeriodSeconds))

theorem diagnostic_eq_iff {p p' : UsagePolicy} (hp : SaneLimits p) (hp' : SaneLimits p')
    {s : UsageState} (hs : UsageStateStore.Valid s) (now : Int) (outcome : SaveOutcome) :
    (evaluate p' (currentState p' (if RolloverSaved p s now outcome then rollOverPeriod s now else s)
        now) now).diagnostic = (evaluate p (currentState p s now) now).diagnostic ↔
      SameLimits p p' ∧ (p.resetPeriodSeconds = p'.resetPeriodSeconds ∨
        SameResetByChance p p' s now outcome) := by
  have hm := hs.messages_nonneg
  have ht := hs.tokens_nonneg
  have hperiod := periodHasRolledOver_iff p s now
  have hperiod' := periodHasRolledOver_iff p' s now
  rw [eq_comm, evaluate_eq, evaluate_eq]
  change formatDiagnostic (decisionOf _ _ _) p = formatDiagnostic (decisionOf _ _ _) p' ↔ _
  rw [formatDiagnostic_eq_iff hp hp']
  by_cases hsaved : RolloverSaved p s now outcome
  · -- both decisions are about the period that begins now
    have hnone : ¬SameResetByChance p p' s now outcome := by
      intro h
      obtain ⟨-, -, hchance | hchance⟩ := h
      · exact hchance.2.1 hsaved
      · rw [hsaved.1] at hchance
        cases hchance.1
    have hreset (q : UsagePolicy) :
        resetTime q (rollOverPeriod s now) now = now + q.resetPeriodSeconds := by
      unfold resetTime
      split <;> rfl
    rw [if_pos hsaved, currentState_rollOverPeriod, currentState_rolled hsaved.1,
      sameReport_iff now rfl, hreset, hreset]
    simp only [hnone, or_false, implies_true, true_and, add_right_inj]
  · rw [if_neg hsaved, sameReport_iff now (by simp), resetTime_currentState,
      resetTime_currentState, currentState_messages, currentState_messages, currentState_tokens,
      currentState_tokens]
    apply and_congr_right
    intro _
    unfold SameResetByChance
    by_cases hrolled : periodHasRolledOver p s now = true
    · by_cases hrolled' : periodHasRolledOver p' s now = true
      · simp [hrolled, hrolled']
      · simp only [hrolled, hrolled', hsaved, if_true, if_false, Bool.true_eq_false, false_and,
          or_false, true_and, not_false_eq_true, Bool.false_eq_true]
        rw [hperiod] at hrolled
        rw [hperiod'] at hrolled'
        omega
    · by_cases hrolled' : periodHasRolledOver p' s now = true
      · simp only [hrolled, hrolled', if_true, if_false, false_and, false_or, true_and,
          Bool.false_eq_true]
        rw [hperiod] at hrolled
        rw [hperiod'] at hrolled'
        omega
      · simp [hrolled, hrolled']

private theorem statusLines_denied {o : UsageOutcome} (h : o ≠ .allowed) :
    text "STATUS: DENIED\n" <+: statusLines o := by
  cases o with
  | allowed => exact absurd rfl h
  | _ => exact List.prefix_append _ _

theorem evaluate_denied {p : UsagePolicy} {s : UsageState} {now : Int}
    (h : ¬(evaluate p s now).allowed = true) :
    text "STATUS: DENIED\n" <:+: (evaluate p s now).diagnostic := by
  rw [evaluate_allowed_eq] at h
  rw [evaluate_eq] at h ⊢
  exact (statusLines_denied h).isInfix.trans (List.suffix_append _ _).isInfix

theorem corruptedDecision_denied (statePath : Path) :
    text "STATUS: DENIED\n" <:+: (corruptedDecision statePath).diagnostic := by
  simp only [corruptedDecision, List.append_assoc]
  exact (List.prefix_append _ _).isInfix

namespace Runtime

theorem quotaStage_denied {w : World} {config : RuntimeConfig} {input : LoadInput}
    (h : ¬(quotaStage w config input).2.allowed = true) :
    text "STATUS: DENIED\n" <:+: (quotaStage w config input).2.diagnostic := by
  rw [quotaStage_decision] at h ⊢
  split at h
  · next hload =>
      rw [if_pos hload]
      exact corruptedDecision_denied _
  · next hload =>
      rw [if_neg hload]
      exact evaluate_denied h

theorem load_denied (r : Runtime) {w : World} {config : RuntimeConfig} {input : LoadInput}
    (hconfig : validateConfig config = []) (hquota : ¬(quotaStage w config input).2.allowed = true) :
    (r.load w config input).runtime =
        { opened r config with lastError := .quotaExceeded } ∧
      (r.load w config input).world.usage = (quotaStage w config input).1 := by
  have hcase := load_case r w config input
  generalize r.load w config input = result at hcase
  cases hcase with
  | invalid h => exact absurd hconfig h
  | denied => exact ⟨rfl, rfl⟩
  | unresolved _ h => exact absurd h hquota
  | rejected _ h => exact absurd h hquota
  | engine _ h => exact absurd h hquota

/-- The report tells the decision that denied the load. -/
def Explains (report : Bytes) (decision : UsageDecision) : Prop :=
  report = decision.diagnostic ∧ text "STATUS: DENIED\n" <:+: report

/-- What makes the report of a runtime tell a denial. -/
def ReportAgrees (stored : RuntimeConfig) (w : World) (config : RuntimeConfig)
    (input : LoadInput) : Prop :=
  (UsageStateStore.load w.usage config.usageStatePath).1 = .corrupted ∨
    SameLimits (toUsagePolicy config) (toUsagePolicy stored) ∧
      (config.resetPeriodSeconds = stored.resetPeriodSeconds ∨
        SameResetByChance (toUsagePolicy config) (toUsagePolicy stored)
          (UsageStateStore.load w.usage config.usageStatePath).2 input.admissionNow
          input.admissionSave)

theorem explains_iff {r : Runtime} (hr : SaneLimits (toUsagePolicy r.config)) {w : World}
    {config : RuntimeConfig} {input : LoadInput}
    (h : (r.load w config input).runtime.lastError = .quotaExceeded) :
    Explains ((r.load w config input).runtime.usageReport (r.load w config input).world.usage
      input.admissionNow) (quotaStage w config input).2 ↔ ReportAgrees r.config w config input := by
  obtain ⟨hconfig, hquota⟩ := (load_quotaExceeded_iff r w config input).mp h
  obtain ⟨hruntime, husage⟩ := load_denied r hconfig hquota
  have hsane : SaneLimits (toUsagePolicy config) :=
    have hpolicy := (validConfig_of_validateConfig hconfig).policy
    ⟨hpolicy.1, hpolicy.2.1, hpolicy.2.2.1⟩
  have hstored := checkAdmission_stored w.usage config.usageStatePath (toUsagePolicy config)
    input.admissionNow input.admissionSave
  have hdenied := quotaStage_denied hquota
  have hreset : config.resetPeriodSeconds = r.config.resetPeriodSeconds ↔
      (toUsagePolicy config).resetPeriodSeconds = (toUsagePolicy r.config).resetPeriodSeconds :=
    Int64.toInt_inj.symm
  have hexplains (report : Bytes) : Explains report (quotaStage w config input).2 ↔
      report = (quotaStage w config input).2.diagnostic :=
    ⟨fun h => h.1, fun h => ⟨h, h ▸ hdenied⟩⟩
  rw [hexplains, hruntime, husage, quotaStage_decision, ReportAgrees, hreset]
  change UsageManager.usageReport (quotaStage w config input).1 config.usageStatePath
    (toUsagePolicy r.config) input.admissionNow = _ ↔ _
  rw [UsageManager.usageReport_eq _ _ _ _ .ok, checkAdmission_decision, quotaStage]
  by_cases hload : (UsageStateStore.load w.usage config.usageStatePath).1 = .corrupted
  · rw [if_neg (fun h => h.1 hload)] at hstored
    simp [hstored, hload]
  · have hiff := diagnostic_eq_iff hsane hr
      (UsageStateStore.load_valid w.usage config.usageStatePath) input.admissionNow
      input.admissionSave
    by_cases hsaved : RolloverSaved (toUsagePolicy config)
        (UsageStateStore.load w.usage config.usageStatePath).2 input.admissionNow
        input.admissionSave
    · rw [if_pos hsaved] at hiff
      rw [if_pos ⟨hload, hsaved⟩] at hstored
      rw [hstored, if_neg nofun, if_neg hload, hiff, or_iff_right hload]
    · rw [if_neg hsaved] at hiff
      rw [if_neg (fun h => hsaved h.2)] at hstored
      rw [hstored, if_neg hload, if_neg hload, hiff, or_iff_right hload]

private theorem step_saneLimits (r : Runtime) (wc : World × Call)
    (h : SaneLimits (toUsagePolicy r.config)) :
    SaneLimits (toUsagePolicy (step r wc).1.config) := by
  obtain ⟨w, c⟩ := wc
  cases c with
  | load config input =>
      change SaneLimits (toUsagePolicy (r.load w config input).runtime.config)
      have hcase := load_case r w config input
      generalize r.load w config input = result at hcase
      cases hcase with
      | engine hconfig =>
          unfold loadEngine
          dsimp only
          split
          · exact h
          · have hpolicy := (validConfig_of_validateConfig hconfig).policy
            exact ⟨hpolicy.1, hpolicy.2.1, hpolicy.2.2.1⟩
      | _ => exact h
  | unload => exact h
  | generate prompt input =>
      obtain ⟨engine, lastError, hruntime, -⟩ := generate_runtime r w prompt input
      change SaneLimits (toUsagePolicy (r.generate w prompt input).runtime.config)
      rw [hruntime]
      exact h
  | resetContext hasMemory => exact h

theorem run_saneLimits (calls : List (World × Call)) :
    SaneLimits (toUsagePolicy (final step {} calls).config) :=
  final_invariant (fun r : Runtime => SaneLimits (toUsagePolicy r.config)) (fun _ => True)
    (fun r wc _ h => step_saneLimits r wc h)
    ⟨le_rfl, le_rfl, le_rfl⟩ (fun _ _ => trivial)

end Runtime

namespace Api

open EdgeMind.Runtime

theorem toCStatus_quotaExceeded_iff (e : RuntimeError) :
    toCStatus e = .errorQuotaExceeded ↔ e = .quotaExceeded := by
  cases e <;> simp [toCStatus]

theorem copyOut_eq_iff (report report' : Bytes) :
    (∀ bufSize, (report.length, copyOut report bufSize) =
      (report'.length, copyOut report' bufSize)) ↔ report = report' := by
  constructor
  · intro h
    have hlen := congrArg Prod.fst (h 0)
    have hcopy := congrArg Prod.snd (h (report.length + 1))
    dsimp only at hlen hcopy
    rw [copyOut, copyOut, if_pos (Nat.succ_pos _), if_pos (Nat.succ_pos _), Nat.add_sub_cancel,
      List.take_length, hlen, List.take_length] at hcopy
    exact List.append_cancel_right hcopy
  · rintro rfl bufSize
    rfl

/-- A fresh runtime has no limits, so its report tells a denial only if it cannot read the state. -/
theorem reportAgrees_fresh_iff {w : World} {config : RuntimeConfig} {input : LoadInput}
    (hquota : ¬(quotaStage w config input).2.allowed = true) :
    ReportAgrees {} w config input ↔
      (UsageStateStore.load w.usage config.usageStatePath).1 = .corrupted := by
  refine ⟨fun h => ?_, Or.inl⟩
  by_contra hload
  obtain ⟨⟨hsession, hmessages, htokens⟩, -⟩ := h.resolve_left hload
  apply hquota
  rw [quotaStage_decision, if_neg hload, evaluate_allowed_iff]
  have hnone (limit : Int) (h : limit = (0 : Int64).toInt) : ¬0 < limit := by
    rw [h]
    decide
  exact ⟨fun h => hnone _ hsession h.1, fun h => hnone _ hmessages h.1,
    fun h => hnone _ htokens h.1⟩

theorem create_denied {c : Option Config} {w : World} {input : LoadInput}
    (h : (create c w input).status = .errorQuotaExceeded) :
    (create c w input).handle = some (({} : Runtime).load w (toCppConfig c) input).runtime ∧
      (({} : Runtime).load w (toCppConfig c) input).runtime.lastError = .quotaExceeded := by
  have herror := (toCStatus_quotaExceeded_iff _).mp h
  refine ⟨?_, herror⟩
  simp only [create, herror]
  rfl

end Api

open EdgeMind.Runtime in
/-- After a denied load the report tells the denial exactly if the state file cannot be read, or
the stored configuration agrees with the refused one on the limits and the reset time; on the
handle that the C interface keeps, exactly if the state file cannot be read. -/
theorem usageReport_explains (calls : List (World × Call)) (w : World) (input : LoadInput) :
    (∀ config : RuntimeConfig,
      ((final step {} calls).load w config input).runtime.lastError = .quotaExceeded →
        (Explains (((final step {} calls).load w config input).runtime.usageReport
            ((final step {} calls).load w config input).world.usage input.admissionNow)
            (quotaStage w config input).2 ↔
          ReportAgrees (final step {} calls).config w config input)) ∧
    ∀ c : Option Api.Config,
      (Api.create c w input).status = .errorQuotaExceeded →
        ((∀ bufSize, Api.getUsageReport (Api.create c w input).handle
            (Api.create c w input).world.usage input.admissionNow bufSize =
              ((quotaStage w (Api.toCppConfig c) input).2.diagnostic.length,
                Api.copyOut (quotaStage w (Api.toCppConfig c) input).2.diagnostic bufSize)) ↔
          (UsageStateStore.load w.usage (Api.toCppConfig c).usageStatePath).1 = .corrupted) := by
  refine ⟨fun config h => explains_iff (run_saneLimits calls) h, ?_⟩
  intro c h
  obtain ⟨hhandle, herror⟩ := Api.create_denied h
  obtain ⟨-, hquota⟩ := (load_quotaExceeded_iff _ w _ input).mp herror
  have hexplains := explains_iff (r := {}) (run_saneLimits []) herror
  rw [Api.reportAgrees_fresh_iff hquota] at hexplains
  rw [hhandle, ← hexplains]
  refine (Api.copyOut_eq_iff _ _).trans ⟨fun heq => ⟨heq, ?_⟩, fun h => h.1⟩
  exact heq ▸ quotaStage_denied hquota

namespace Runtime

/-- One message a day. -/
def limitedConfig : RuntimeConfig := { sampleConfig with dailyMessageLimit := 1 }

/-- Usage files in which the one message has been used. -/
def exhaustedUsage : FileSystem := fun _ =>
  .file (UsageStateStore.stateText { periodStartUnix := 1000, messagesUsedThisPeriod := 1 }) true

/-- On a fresh runtime the report says that the denied load is allowed. -/
theorem usageReport_fresh : validateConfig limitedConfig = [] ∧
    (({} : Runtime).load (laterWorld exhaustedUsage) limitedConfig sampleInput).runtime.lastError =
      .quotaExceeded ∧
    ¬Explains ((({} : Runtime).load (laterWorld exhaustedUsage) limitedConfig
        sampleInput).runtime.usageReport
      (({} : Runtime).load (laterWorld exhaustedUsage) limitedConfig sampleInput).world.usage
      sampleInput.admissionNow)
      (quotaStage (laterWorld exhaustedUsage) limitedConfig sampleInput).2 := by
  refine ⟨by decide +kernel, by decide +kernel, fun h => ?_⟩
  exact absurd h.1 (by decide +kernel)

/-- After a load that succeeded under the same configuration the report tells the denial, and the
handle of a fresh runtime tells that the state cannot be read. -/
theorem usageReport_reloaded :
    Explains (((final step {} [(sampleWorld, .load limitedConfig sampleInput)]).load
        (laterWorld exhaustedUsage) limitedConfig sampleInput).runtime.usageReport
      ((final step {} [(sampleWorld, .load limitedConfig sampleInput)]).load
        (laterWorld exhaustedUsage) limitedConfig sampleInput).world.usage
      sampleInput.admissionNow)
      (quotaStage (laterWorld exhaustedUsage) limitedConfig sampleInput).2 ∧
    let created := Api.create (some { modelPath := some (text "m.gguf") })
      (laterWorld fun _ => .special) sampleInput
    (Api.getUsageReport created.handle created.world.usage sampleInput.admissionNow 7).2 =
      text "STATUS" ++ [0] := by
  refine ⟨((usageReport_explains [(sampleWorld, .load limitedConfig sampleInput)]
    (laterWorld exhaustedUsage) sampleInput).1 limitedConfig (by decide +kernel)).mpr
    (.inr ⟨⟨by decide +kernel, by decide +kernel, by decide +kernel⟩, .inl (by decide +kernel)⟩),
    ?_⟩
  have h := ((usageReport_explains [] (laterWorld fun _ => .special) sampleInput).2
    (some { modelPath := some (text "m.gguf") }) (by decide +kernel)).mpr (by decide +kernel) 7
  refine (congrArg Prod.snd h).trans ?_
  decide +kernel

end Runtime

end EdgeMind
