import EdgeMind.Core.Pipeline

/-!
# The quota stage of a load

The admission check comes before the session start is noted, so it judges the session of an earlier
load. A load is admitted from some time on exactly if there is no session limit or no such session.
-/

namespace EdgeMind

open Framework UsageAccounting UsageManager

namespace Runtime

theorem quotaStage_decision (w : World) (config : RuntimeConfig) (input : LoadInput) :
    (quotaStage w config input).2 =
      if (UsageStateStore.load w.usage config.usageStatePath).1 = .corrupted then
        corruptedDecision config.usageStatePath
      else evaluate (toUsagePolicy config) (currentState (toUsagePolicy config)
        (UsageStateStore.load w.usage config.usageStatePath).2 input.admissionNow)
        input.admissionNow :=
  checkAdmission_decision _ _ _ _ _

theorem load_quotaExceeded_iff (r : Runtime) (w : World) (config : RuntimeConfig)
    (input : LoadInput) :
    (r.load w config input).runtime.lastError = .quotaExceeded ↔
      validateConfig config = [] ∧ ¬(quotaStage w config input).2.allowed = true := by
  constructor
  · intro h
    have hcase := load_case r w config input
    generalize r.load w config input = result at hcase h
    cases hcase with
    | denied hconfig hquota => exact ⟨hconfig, hquota⟩
    | engine hconfig hquota hresolution hverification =>
        rw [loadEngine_lastError] at h
        cases herror : InferenceEngine.LoadResult.error _ <;> rw [herror] at h <;> cases h
    | _ => cases h
  · intro hdenied
    obtain ⟨hconfig, hquota⟩ := hdenied
    exact (load_tells r w config input).lastError .quota (reaches_quota hconfig) hquota

/-- From some time on the quota stage admits every load. -/
def EventuallyAdmitted (usage : FileSystem) (config : RuntimeConfig) : Prop :=
  ∃ t0 ≤ UsageState.maxSaneTimestamp + 1000000000, ∀ (r : Runtime) (w : World) (input : LoadInput),
    w.usage = usage → t0 ≤ input.admissionNow →
      (r.load w config input).runtime.lastError ≠ .quotaExceeded

/-- With nothing but a session limit no load is refused for the session of an earlier one. -/
def NeverExhaustedTime (usage : FileSystem) (config : RuntimeConfig) : Prop :=
  config.dailyMessageLimit = 0 → config.dailyTokenLimit = 0 → ∀ (w : World) (input : LoadInput),
    w.usage = usage → (quotaStage w config input).2.outcome ≠ .exhaustedTime

private theorem sessionLimit_zero_iff (config : RuntimeConfig) :
    config.sessionTimeLimitSeconds = 0 ↔ (toUsagePolicy config).sessionTimeLimitSeconds = 0 := by
  rw [← Int64.toInt_inj]
  rfl

/-- Surroundings of a load with the given usage files. -/
def laterWorld (usage : FileSystem) : World := { sampleWorld with usage := usage }

def laterInput (now : Int) : LoadInput := { sampleInput with admissionNow := now }

private theorem refused_late (w : World) {config : RuntimeConfig} (input : LoadInput)
    (hconfig : validateConfig config = [])
    (hload : (UsageStateStore.load w.usage config.usageStatePath).1 ≠ .corrupted)
    (hlimit : 0 < (toUsagePolicy config).sessionTimeLimitSeconds)
    (hstart : 0 < (UsageStateStore.load w.usage config.usageStatePath).2.sessionStartUnix)
    (hlate : (UsageStateStore.load w.usage config.usageStatePath).2.sessionStartUnix +
      (toUsagePolicy config).sessionTimeLimitSeconds ≤ input.admissionNow) :
    (quotaStage w config input).2.outcome = .exhaustedTime ∧
      ∀ r : Runtime, (r.load w config input).runtime.lastError = .quotaExceeded := by
  have houtcome := exhaustedTime_of_late hlimit hstart hlate
  have hdecision := quotaStage_decision w config input
  rw [if_neg hload] at hdecision
  rw [← hdecision] at houtcome
  refine ⟨houtcome, fun r => (load_quotaExceeded_iff r w config input).mpr ⟨hconfig, ?_⟩⟩
  rw [hdecision] at houtcome ⊢
  rw [evaluate_allowed_eq, houtcome]
  nofun

/-- The quota stage keeps admitting loads exactly if no session limit is set or no earlier load
has noted the start of a session. -/
theorem eventuallyAdmitted_iff (usage : FileSystem) (config : RuntimeConfig)
    (hconfig : validateConfig config = []) (hreset : config.resetPeriodSeconds ≤ 1000000000)
    (hload : (UsageStateStore.load usage config.usageStatePath).1 ≠ .corrupted) :
    EventuallyAdmitted usage config ∧ NeverExhaustedTime usage config ↔
      config.sessionTimeLimitSeconds = 0 ∨
        (UsageStateStore.load usage config.usageStatePath).2.sessionStartUnix = 0 := by
  obtain ⟨hsession, -, -, -⟩ := (validConfig_of_validateConfig hconfig).policy
  have hvalid := UsageStateStore.load_valid usage config.usageStatePath
  have hstart := hvalid.sessionStart_nonneg
  rw [sessionLimit_zero_iff]
  constructor
  · intro h
    obtain ⟨t0, -, hadmitted⟩ := h.1
    by_contra hno
    rw [not_or] at hno
    apply hadmitted {} (laterWorld usage) (laterInput (max t0 _)) rfl (le_max_left _ _)
    exact (refused_late (laterWorld usage) (laterInput _) hconfig hload (by omega)
      (lt_of_le_of_ne hstart (Ne.symm hno.2)) (le_max_right _ _)).2 {}
  · intro hnone
    have hdecision (w : World) (input : LoadInput) (hw : w.usage = usage) :
        (quotaStage w config input).2 = evaluate (toUsagePolicy config)
          (currentState (toUsagePolicy config)
            (UsageStateStore.load usage config.usageStatePath).2 input.admissionNow)
          input.admissionNow := by
      rw [quotaStage_decision, hw, if_neg hload]
    generalize (UsageStateStore.load usage config.usageStatePath).2 = state at *
    refine ⟨⟨state.periodStartUnix + (toUsagePolicy config).resetPeriodSeconds, ?_, ?_⟩, ?_⟩
    · have hreset : (toUsagePolicy config).resetPeriodSeconds ≤ 1000000000 :=
        Int64.le_iff_toInt_le.mp hreset
      have hperiod := hvalid.periodStart_le
      omega
    · intro r w input hw hnow
      rw [ne_eq, load_quotaExceeded_iff, hdecision w input hw, not_and, not_not]
      intro _
      apply allowed_of_rolled (by omega)
      rw [periodHasRolledOver_iff]
      omega
    · intro _ _ w input hw
      rw [hdecision w input hw, evaluate_outcome, outcomeOf, if_neg]
      · split_ifs <;> simp
      · rw [TimeExhausted, currentState_sessionStart]
        omega

def sessionConfig : RuntimeConfig := { sampleConfig with sessionTimeLimitSeconds := 3600 }

/-- The usage files left by a run that noted its session start at 1000. -/
def sessionUsage : FileSystem :=
  (({} : Runtime).load sampleWorld sessionConfig sampleInput).world.usage

private theorem sessionUsage_load :
    UsageStateStore.load sessionUsage sessionConfig.usageStatePath =
      (.ok, { periodStartUnix := 1000, sessionStartUnix := 1000 }) := by
  decide +kernel

/-- From 4600 on every later load is refused. -/
theorem eventuallyAdmitted_session : validateConfig sessionConfig = [] ∧
    sessionConfig.resetPeriodSeconds ≤ 1000000000 ∧
    (UsageStateStore.load sessionUsage sessionConfig.usageStatePath).1 = .ok ∧
    ¬EventuallyAdmitted sessionUsage sessionConfig ∧
    ¬NeverExhaustedTime sessionUsage sessionConfig := by
  have hconfig : validateConfig sessionConfig = [] := by decide +kernel
  have hrefused (now : Int) (hnow : 4600 ≤ now) :=
    refused_late (laterWorld sessionUsage) (laterInput now) hconfig
      (by rw [laterWorld, sessionUsage_load]; nofun) (by decide)
      (by rw [laterWorld, sessionUsage_load]; decide)
      (by rw [laterWorld, sessionUsage_load]; exact hnow)
  refine ⟨hconfig, by decide, by rw [sessionUsage_load], ?_, ?_⟩
  · intro hforever
    obtain ⟨t0, -, hadmitted⟩ := hforever
    exact hadmitted {} (laterWorld sessionUsage) (laterInput (max t0 4600)) rfl
      (le_max_left t0 4600) ((hrefused _ (le_max_right t0 4600)).2 {})
  · intro hnever
    exact hnever rfl rfl (laterWorld sessionUsage) (laterInput 4600) rfl (hrefused 4600 le_rfl).1

/-- Without a session limit the same usage files do no harm. -/
theorem eventuallyAdmitted_unlimited :
    EventuallyAdmitted sessionUsage sampleConfig ∧ NeverExhaustedTime sessionUsage sampleConfig := by
  have hload : UsageStateStore.load sessionUsage sampleConfig.usageStatePath = _ := sessionUsage_load
  exact (eventuallyAdmitted_iff sessionUsage sampleConfig (by decide +kernel) (by decide)
    (by rw [hload]; nofun)).mpr (.inl rfl)

end Runtime

end EdgeMind
