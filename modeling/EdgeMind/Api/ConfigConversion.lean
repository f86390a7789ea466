import EdgeMind.Api.EdgeMindApi
import EdgeMind.Core.Pipeline

/-!
# What the conversion of a C configuration lets through

A field of the C configuration that is not positive is replaced by its default before the
configuration is validated. So the validation sees no negative field, and what it rejects can be
read off the other fields.
-/

namespace EdgeMind

open Framework RuntimeConfig

namespace Runtime

theorem load_invalidConfig_iff (r : Runtime) (w : World) (config : RuntimeConfig)
    (input : LoadInput) :
    (r.load w config input).runtime.lastError = .invalidConfig ↔ validateConfig config ≠ [] := by
  have hcase := load_case r w config input
  generalize r.load w config input = result at hcase
  cases hcase with
  | invalid hconfig => exact iff_of_true rfl hconfig
  | denied hconfig hquota => exact iff_of_false (by simp) (not_not_intro hconfig)
  | unresolved hconfig hquota hresolution => exact iff_of_false (by simp) (not_not_intro hconfig)
  | rejected hconfig hquota hresolution hverification =>
      exact iff_of_false (by simp) (not_not_intro hconfig)
  | engine hconfig hquota hresolution hverification =>
      refine iff_of_false ?_ (not_not_intro hconfig)
      rw [loadEngine_lastError]
      generalize (InferenceEngine.load _ _ _ _).error = error
      cases error <;> simp [toRuntimeError]

end Runtime

namespace Api

/-- A value that validation rejects, in one of the fields with a sign. -/
def HasNegative (c : Config) : Prop :=
  c.contextSize < 0 ∨ c.threads < 0 ∨ c.topK < 0 ∨ c.maxTokens < 0 ∨ c.memoryBudgetMb < 0 ∨
    c.safetyReserveMb < 0 ∨ c.sessionTimeLimitSeconds < 0 ∨ c.dailyMessageLimit < 0 ∨
    c.dailyTokenLimit < 0 ∨ c.resetPeriodSeconds < 0

instance (c : Config) : Decidable (HasNegative c) :=
  inferInstanceAs (Decidable (_ ∨ _))

/-- Not exactly one model, a positive value beyond its range, or an empty path. -/
def OtherwiseInvalid (c : Config) : Prop :=
  (stringOr c.modelPath [] = [] ↔ stringOr c.modelId [] = []) ∨
    c.contextSize > 0 ∧ (c.contextSize < minContext ∨ maxContext < c.contextSize) ∨
    c.memoryBudgetMb > 0 ∧
      (c.memoryBudgetMb < minMemoryBudgetMb ∨ maxMemoryBudgetMb < c.memoryBudgetMb) ∨
    positiveOr c.memoryBudgetMb 3000 ≤ positiveOr c.safetyReserveMb 300 ∨
    maxSaneLimit < c.sessionTimeLimitSeconds ∨ maxSaneLimit < c.dailyMessageLimit ∨
    maxSaneLimit < c.dailyTokenLimit ∨
    c.resetPeriodSeconds > 0 ∧ c.resetPeriodSeconds < minResetPeriodSeconds ∨
    c.usageStatePath.map cString = some [] ∨ c.modelRegistryPath.map cString = some [] ∨
    c.temperature.lt (.finite 0) ∨ c.topP.le (.finite 0) ∨ (CFloat.finite 1).lt c.topP

instance (c : Config) : Decidable (OtherwiseInvalid c) :=
  inferInstanceAs (Decidable (_ ∨ _))

theorem positiveOr_iff {α : Type} [LT α] [DecidableLT α] [OfNat α 0] (P : α → Prop) (x default : α)
    (h : P default) : P (positiveOr x default) ↔ (x > 0 → P x) := by
  unfold positiveOr
  split
  · next hx => simp [hx]
  · next hx => simp [hx, h]

theorem limit_converted_iff (limit : Int64) :
    limitOutOfRange (positiveOr limit 0) = false ↔ ¬maxSaneLimit < limit := by
  have hsane : (0 : Int64) < maxSaneLimit := by decide
  rw [positiveOr_iff (fun limit => limitOutOfRange limit = false) limit 0 (by decide)]
  rw [Int64.lt_iff_toInt_lt] at hsane
  simp only [limitOutOfRange, Bool.or_eq_false_iff, decide_eq_false_iff_not, gt_iff_lt,
    Int64.lt_iff_toInt_lt]
  omega

theorem path_converted_iff (buffer : Option Bytes) (default : Bytes) (h : default ≠ []) :
    stringOr buffer default ≠ [] ↔ ¬buffer.map cString = some [] := by
  cases buffer with
  | none => simp [stringOr, h]
  | some buffer => simp [stringOr]

theorem sampling_converted_iff (c : Config) :
    ValidSampling (toCppConfig (some c)) ↔ c.temperature.lt (.finite 0) = false ∧
      c.topP.le (.finite 0) = false ∧ (CFloat.finite 1).lt c.topP = false := by
  constructor
  · intro h
    exact ⟨h.temperature_nonneg, h.topP_pos, h.topP_le⟩
  · intro h
    obtain ⟨htemperature, hpos, hle⟩ := h
    refine ⟨htemperature, hpos, hle, ?_⟩
    change 0 ≤ if c.topK ≥ 0 then c.topK else 40
    split
    · next hk => exact hk
    · decide

theorem ranges_converted_iff (c : Config) :
    ValidConfig (toCppConfig (some c)) ↔
      ¬(stringOr c.modelPath [] = [] ↔ stringOr c.modelId [] = []) ∧
      (c.contextSize > 0 → minContext ≤ c.contextSize ∧ c.contextSize ≤ maxContext) ∧
      (c.memoryBudgetMb > 0 →
        minMemoryBudgetMb ≤ c.memoryBudgetMb ∧ c.memoryBudgetMb ≤ maxMemoryBudgetMb) ∧
      positiveOr c.safetyReserveMb 300 < positiveOr c.memoryBudgetMb 3000 ∧
      ¬maxSaneLimit < c.sessionTimeLimitSeconds ∧ ¬maxSaneLimit < c.dailyMessageLimit ∧
      ¬maxSaneLimit < c.dailyTokenLimit ∧
      (c.resetPeriodSeconds > 0 → minResetPeriodSeconds ≤ c.resetPeriodSeconds) ∧
      ¬c.usageStatePath.map cString = some [] ∧ ¬c.modelRegistryPath.map cString = some [] := by
  rw [← limit_converted_iff, ← limit_converted_iff, ← limit_converted_iff,
    ← path_converted_iff c.usageStatePath ({} : RuntimeConfig).usageStatePath (by decide),
    ← path_converted_iff c.modelRegistryPath ({} : RuntimeConfig).modelRegistryPath (by decide),
    ← positiveOr_iff (fun x => minContext ≤ x ∧ x ≤ maxContext) c.contextSize 1024 (by decide),
    ← positiveOr_iff (fun x => minMemoryBudgetMb ≤ x ∧ x ≤ maxMemoryBudgetMb) c.memoryBudgetMb 3000
      (by decide),
    ← positiveOr_iff (fun x => minResetPeriodSeconds ≤ x) c.resetPeriodSeconds 86400 (by decide)]
  constructor
  · intro h
    have hone : stringOr c.modelPath [] = [] ↔ stringOr c.modelId [] ≠ [] := h.exactlyOne
    exact ⟨by tauto, ⟨h.context_ge, h.context_le⟩, ⟨h.budget_ge, h.budget_le⟩, h.reserve_lt,
      h.session_range, h.messages_range, h.tokens_range, h.reset_ge, h.usagePath_ne,
      h.registryPath_ne⟩
  · intro h
    obtain ⟨hone, hcontext, hbudget, hreserve, hsession, hmessages, htokens, hreset, husage,
      hregistry⟩ := h
    exact {
      exactlyOne := by
        change stringOr c.modelPath [] = [] ↔ stringOr c.modelId [] ≠ []
        tauto
      context_ge := hcontext.1
      context_le := hcontext.2
      threads_pos := (positiveOr_iff (0 < ·) c.threads 4 (by decide)).mpr id
      maxTokens_pos := (positiveOr_iff (0 < ·) c.maxTokens 256 (by decide)).mpr id
      budget_ge := hbudget.1
      budget_le := hbudget.2
      reserve_nonneg := (positiveOr_iff (0 ≤ ·) c.safetyReserveMb 300 (by decide)).mpr Int64.le_of_lt
      reserve_lt := hreserve
      session_range := hsession
      messages_range := hmessages
      tokens_range := htokens
      reset_ge := hreset
      usagePath_ne := husage
      registryPath_ne := hregistry }

theorem validateConfig_converted_iff (c : Config) :
    validateConfig (toCppConfig (some c)) ≠ [] ↔ OtherwiseInvalid c := by
  rw [ne_eq, validateConfig_eq_nil_iff, sampling_converted_iff, ranges_converted_iff]
  unfold OtherwiseInvalid
  simp only [not_and_or, not_not, Classical.not_imp, Bool.not_eq_false, Int32.not_le, Int64.not_le,
    Int64.not_lt, or_assoc]

/-- A creation with a negative field reports an invalid configuration exactly if something other
than a sign is wrong with it. -/
theorem create_negative_iff (c : Config) (w : World) (input : LoadInput) (_ : HasNegative c) :
    (create (some c) w input).status = .errorInvalidConfig ↔ OtherwiseInvalid c := by
  rw [← validateConfig_converted_iff, ← Runtime.load_invalidConfig_iff {} w _ input]
  change toCStatus _ = _ ↔ _
  generalize (Runtime.load _ _ _ _).runtime.lastError = error
  cases error <;> simp [toCStatus]

def negativeLimit : Config := { modelPath := some (text "m.gguf"), dailyMessageLimit := -1 }

/-- A negative limit is accepted and is no limit. -/
theorem create_negativeLimit : HasNegative negativeLimit ∧
    (create (some negativeLimit) Runtime.sampleWorld Runtime.sampleInput).status ≠
      .errorInvalidConfig ∧
    (toUsagePolicy (toCppConfig (some negativeLimit))).dailyMessageLimit = 0 := by
  refine ⟨by decide, by decide +kernel, by decide⟩

theorem create_negativeLimit_shortReset :
    (create (some { negativeLimit with resetPeriodSeconds := 59 }) Runtime.sampleWorld
      Runtime.sampleInput).status = .errorInvalidConfig :=
  (create_negative_iff { negativeLimit with resetPeriodSeconds := 59 } Runtime.sampleWorld
    Runtime.sampleInput (by decide)).mpr (by decide)

end Api

end EdgeMind
