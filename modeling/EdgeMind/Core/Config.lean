import EdgeMind.Usage.Accounting

/-!
# Runtime configuration

The configuration record with its defaults, and its validation, which reports the first problem it
finds. An accepted configuration is within the ranges that the stages after it rely on.
-/

namespace EdgeMind

open Framework

/-- A C++ `float`: comparisons with NaN are false. -/
inductive CFloat
  | nan
  | negInf
  | posInf
  | finite (value : Rat)
deriving DecidableEq

namespace CFloat

def lt : CFloat → CFloat → Bool
  | .nan, _ | _, .nan => false
  | .negInf, .negInf => false
  | .negInf, _ => true
  | _, .negInf => false
  | .posInf, _ => false
  | .finite _, .posInf => true
  | .finite x, .finite y => x < y

def le (x y : CFloat) : Bool := lt x y || (x = y && x ≠ .nan)

end CFloat

structure RuntimeConfig where
  modelPath : Bytes := []
  modelId : Bytes := []
  contextSize : Int32 := 1024
  threads : Int32 := 4
  /-- `0.7f` -/
  temperature : CFloat := .finite (11744051 / 16777216)
  /-- `0.9f` -/
  topP : CFloat := .finite (15099494 / 16777216)
  topK : Int32 := 40
  maxTokens : Int32 := 256
  memoryBudgetMb : Int64 := 3000
  safetyReserveMb : Int64 := 300
  sessionTimeLimitSeconds : Int64 := 0
  dailyMessageLimit : Int64 := 0
  dailyTokenLimit : Int64 := 0
  resetPeriodSeconds : Int64 := 86400
  usageStatePath : Bytes := text ".syj_edgemind_usage_state"
  expectedModelChecksumSha256 : Bytes := []
  modelRegistryPath : Bytes := text ".syj_edgemind_model_registry"
deriving DecidableEq

namespace RuntimeConfig

def minMemoryBudgetMb : Int64 := 256

def maxMemoryBudgetMb : Int64 := 131072

def maxContext : Int32 := 8192

def minContext : Int32 := 16

def maxSaneLimit : Int64 := 1000000000

def minResetPeriodSeconds : Int64 := 60

end RuntimeConfig

open RuntimeConfig

/-- A limit that is negative or beyond the sane range. -/
def limitOutOfRange (limit : Int64) : Bool := limit < 0 || limit > maxSaneLimit

/-- Empty for a valid configuration, else the first problem. -/
def validateConfig (config : RuntimeConfig) : Bytes :=
  if config.modelPath = [] ∧ config.modelId = [] then
    text "Exactly one of model_path or model_id must be set (neither was provided)."
  else if config.modelPath ≠ [] ∧ config.modelId ≠ [] then
    text "Exactly one of model_path or model_id must be set (both were provided)."
  else if config.contextSize < minContext ∨ config.contextSize > maxContext then
    text "Context size " ++ intDecimal config.contextSize.toInt ++
      text " is out of the supported range [" ++ intDecimal minContext.toInt ++ text ", " ++
      intDecimal maxContext.toInt ++ text "]. " ++
      text "Formal memory-budget-based context limits arrive in Phase 2; " ++
      text "this is only a basic sanity bound."
  else if config.threads ≤ 0 then text "Thread count must be a positive integer."
  else if config.temperature.lt (.finite 0) then text "Temperature must be non-negative."
  else if config.topP.le (.finite 0) ∨ (CFloat.finite 1).lt config.topP then
    text "top_p must be in the range (0.0, 1.0]."
  else if config.topK < 0 then
    text "top_k must be non-negative (0 disables top-k filtering)."
  else if config.maxTokens ≤ 0 then text "max_tokens must be a positive integer."
  else if config.memoryBudgetMb < minMemoryBudgetMb ∨
      config.memoryBudgetMb > maxMemoryBudgetMb then
    text "memory_budget_mb " ++ intDecimal config.memoryBudgetMb.toInt ++
      text " is out of the supported range [" ++ intDecimal minMemoryBudgetMb.toInt ++ text ", " ++
      intDecimal maxMemoryBudgetMb.toInt ++ text "]."
  else if config.safetyReserveMb < 0 then text "safety_reserve_mb must be non-negative."
  else if config.safetyReserveMb ≥ config.memoryBudgetMb then
    text "safety_reserve_mb must be less than memory_budget_mb (nothing would ever fit)."
  else if limitOutOfRange config.sessionTimeLimitSeconds then
    text "session_time_limit_seconds must be non-negative and within the supported sane range " ++
      text "(0 disables it)."
  else if limitOutOfRange config.dailyMessageLimit then
    text "daily_message_limit must be non-negative and within the supported sane range " ++
      text "(0 disables it)."
  else if limitOutOfRange config.dailyTokenLimit then
    text "daily_token_limit must be non-negative and within the supported sane range " ++
      text "(0 disables it)."
  else if config.resetPeriodSeconds < minResetPeriodSeconds then
    text "reset_period_seconds must be at least " ++ intDecimal minResetPeriodSeconds.toInt ++
      text " seconds (a shorter reset window is not meaningful)."
  else if config.usageStatePath = [] then text "usage_state_path must not be empty."
  else if config.modelRegistryPath = [] then text "model_registry_path must not be empty."
  else []

def toUsagePolicy (config : RuntimeConfig) : UsagePolicy where
  sessionTimeLimitSeconds := config.sessionTimeLimitSeconds.toInt
  dailyMessageLimit := config.dailyMessageLimit.toInt
  dailyTokenLimit := config.dailyTokenLimit.toInt
  resetPeriodSeconds := config.resetPeriodSeconds.toInt

structure ValidConfig (config : RuntimeConfig) : Prop where
  exactlyOne : config.modelPath = [] ↔ config.modelId ≠ []
  context_ge : minContext ≤ config.contextSize
  context_le : config.contextSize ≤ maxContext
  threads_pos : 0 < config.threads
  maxTokens_pos : 0 < config.maxTokens
  budget_ge : minMemoryBudgetMb ≤ config.memoryBudgetMb
  budget_le : config.memoryBudgetMb ≤ maxMemoryBudgetMb
  reserve_nonneg : 0 ≤ config.safetyReserveMb
  reserve_lt : config.safetyReserveMb < config.memoryBudgetMb
  session_range : limitOutOfRange config.sessionTimeLimitSeconds = false
  messages_range : limitOutOfRange config.dailyMessageLimit = false
  tokens_range : limitOutOfRange config.dailyTokenLimit = false
  reset_ge : minResetPeriodSeconds ≤ config.resetPeriodSeconds
  usagePath_ne : config.usageStatePath ≠ []
  registryPath_ne : config.modelRegistryPath ≠ []

private theorem check_passed {c : Prop} [Decidable c] {problem rest : Bytes}
    (h : (if c then problem else rest) = []) (hne : problem ≠ []) : ¬c ∧ rest = [] := by
  by_cases hc : c
  · rw [if_pos hc] at h
    exact absurd h hne
  · rw [if_neg hc] at h
    exact ⟨hc, h⟩

private theorem append_ne {xs ys : Bytes} (h : xs ≠ []) : xs ++ ys ≠ [] :=
  List.append_ne_nil_of_left_ne_nil h ys

private theorem exactly_one {p q : Prop} (hneither : ¬(p ∧ q)) (hboth : ¬(¬p ∧ ¬q)) :
    p ↔ ¬q := by
  tauto

structure ValidSampling (config : RuntimeConfig) : Prop where
  temperature_nonneg : config.temperature.lt (.finite 0) = false
  topP_pos : config.topP.le (.finite 0) = false
  topP_le : (CFloat.finite 1).lt config.topP = false
  topK_nonneg : 0 ≤ config.topK

private theorem valid_of_validateConfig {config : RuntimeConfig} (h : validateConfig config = []) :
    ValidConfig config ∧ ValidSampling config := by
  unfold validateConfig at h
  obtain ⟨hneither, h⟩ := check_passed h (by decide)
  obtain ⟨hboth, h⟩ := check_passed h (by decide)
  obtain ⟨hcontext, h⟩ := check_passed h
    (append_ne (append_ne (append_ne (append_ne (append_ne (append_ne (append_ne
      (append_ne (by decide)))))))))
  obtain ⟨hthreads, h⟩ := check_passed h (by decide)
  obtain ⟨htemperature, h⟩ := check_passed h (by decide)
  obtain ⟨htopP, h⟩ := check_passed h (by decide)
  obtain ⟨htopK, h⟩ := check_passed h (by decide)
  obtain ⟨hmax, h⟩ := check_passed h (by decide)
  obtain ⟨hbudget, h⟩ := check_passed h
    (append_ne (append_ne (append_ne (append_ne (append_ne (append_ne (by decide)))))))
  obtain ⟨hreserve, h⟩ := check_passed h (by decide)
  obtain ⟨hfit, h⟩ := check_passed h (by decide)
  obtain ⟨hsession, h⟩ := check_passed h (by decide)
  obtain ⟨hmessages, h⟩ := check_passed h (by decide)
  obtain ⟨htokens, h⟩ := check_passed h (by decide)
  obtain ⟨hreset, h⟩ := check_passed h (append_ne (append_ne (by decide)))
  obtain ⟨husage, h⟩ := check_passed h (by decide)
  obtain ⟨hregistry, -⟩ := check_passed h (by decide)
  rw [not_or, Int32.not_lt, Int32.not_lt] at hcontext
  rw [not_or, Int64.not_lt, Int64.not_lt] at hbudget
  rw [not_or] at htopP
  refine ⟨?_, ?_⟩
  · exact {
      exactlyOne := exactly_one hneither hboth
      context_ge := hcontext.1
      context_le := hcontext.2
      threads_pos := Int32.not_le.mp hthreads
      maxTokens_pos := Int32.not_le.mp hmax
      budget_ge := hbudget.1
      budget_le := hbudget.2
      reserve_nonneg := Int64.not_lt.mp hreserve
      reserve_lt := Int64.not_le.mp hfit
      session_range := Bool.eq_false_iff.mpr hsession
      messages_range := Bool.eq_false_iff.mpr hmessages
      tokens_range := Bool.eq_false_iff.mpr htokens
      reset_ge := Int64.not_lt.mp hreset
      usagePath_ne := husage
      registryPath_ne := hregistry }
  · exact {
      temperature_nonneg := Bool.eq_false_iff.mpr htemperature
      topP_pos := Bool.eq_false_iff.mpr htopP.1
      topP_le := Bool.eq_false_iff.mpr htopP.2
      topK_nonneg := Int32.not_lt.mp htopK }

private theorem validateConfig_of_valid {config : RuntimeConfig} (h : ValidConfig config)
    (hs : ValidSampling config) : validateConfig config = [] := by
  have hone := h.exactlyOne
  have hcontext := not_or.mpr ⟨Int32.not_lt.mpr h.context_ge, Int32.not_lt.mpr h.context_le⟩
  have hbudget := not_or.mpr ⟨Int64.not_lt.mpr h.budget_ge, Int64.not_lt.mpr h.budget_le⟩
  have htopP := not_or.mpr ⟨Bool.eq_false_iff.mp hs.topP_pos, Bool.eq_false_iff.mp hs.topP_le⟩
  unfold validateConfig
  rw [if_neg (by tauto), if_neg (by tauto), if_neg hcontext, if_neg (Int32.not_le.mpr h.threads_pos),
    if_neg (Bool.eq_false_iff.mp hs.temperature_nonneg), if_neg htopP,
    if_neg (Int32.not_lt.mpr hs.topK_nonneg), if_neg (Int32.not_le.mpr h.maxTokens_pos),
    if_neg hbudget, if_neg (Int64.not_lt.mpr h.reserve_nonneg),
    if_neg (Int64.not_le.mpr h.reserve_lt), if_neg (Bool.eq_false_iff.mp h.session_range),
    if_neg (Bool.eq_false_iff.mp h.messages_range), if_neg (Bool.eq_false_iff.mp h.tokens_range),
    if_neg (Int64.not_lt.mpr h.reset_ge), if_neg h.usagePath_ne, if_neg h.registryPath_ne]

theorem validateConfig_eq_nil_iff (config : RuntimeConfig) :
    validateConfig config = [] ↔ ValidConfig config ∧ ValidSampling config :=
  ⟨valid_of_validateConfig, fun h => validateConfig_of_valid h.1 h.2⟩

theorem validConfig_of_validateConfig {config : RuntimeConfig} (h : validateConfig config = []) :
    ValidConfig config :=
  ((validateConfig_eq_nil_iff config).mp h).1

theorem limit_nonneg {limit : Int64} (h : limitOutOfRange limit = false) : 0 ≤ limit.toInt := by
  rw [limitOutOfRange, Bool.or_eq_false_iff, decide_eq_false_iff_not, Int64.not_lt] at h
  exact Int64.le_iff_toInt_le.mp h.1

theorem ValidConfig.policy {config : RuntimeConfig} (h : ValidConfig config) :
    0 ≤ (toUsagePolicy config).sessionTimeLimitSeconds ∧
      0 ≤ (toUsagePolicy config).dailyMessageLimit ∧ 0 ≤ (toUsagePolicy config).dailyTokenLimit ∧
      60 ≤ (toUsagePolicy config).resetPeriodSeconds :=
  ⟨limit_nonneg h.session_range, limit_nonneg h.messages_range, limit_nonneg h.tokens_range,
    Int64.le_iff_toInt_le.mp h.reset_ge⟩

theorem ValidConfig.messages_le {config : RuntimeConfig} (h : ValidConfig config) :
    (toUsagePolicy config).dailyMessageLimit ≤ UsageState.maxSaneCounter := by
  have hrange := h.messages_range
  rw [limitOutOfRange, Bool.or_eq_false_iff, decide_eq_false_iff_not, decide_eq_false_iff_not,
    Int64.not_lt] at hrange
  have hle : config.dailyMessageLimit.toInt ≤ 1000000000 :=
    Int64.le_iff_toInt_le.mp (Int64.not_lt.mp hrange.2)
  exact hle.trans (by decide)

end EdgeMind
