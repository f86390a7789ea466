import EdgeMind.Core.Runtime
import EdgeMind.Core.Selection
import Mathlib.Data.List.TakeWhile

/-!
# The C interface

The configuration record with its null pointers, the status codes, and the functions that create a
runtime, report on it and select a model. A pointer to characters is read up to the first NUL.
-/

namespace EdgeMind

open Framework

namespace Api

/-- The C string in a buffer. -/
def cString (buffer : Bytes) : Bytes := buffer.takeWhile (· ≠ 0)

/-- `syj_edgemind_config`; `none` is the null pointer. -/
structure Config where
  modelPath : Option Bytes := none
  contextSize : Int32 := 1024
  threads : Int32 := 4
  temperature : CFloat := ({} : RuntimeConfig).temperature
  topP : CFloat := ({} : RuntimeConfig).topP
  topK : Int32 := 40
  maxTokens : Int32 := 256
  memoryBudgetMb : Int64 := 3000
  safetyReserveMb : Int64 := 300
  sessionTimeLimitSeconds : Int64 := 0
  dailyMessageLimit : Int64 := 0
  dailyTokenLimit : Int64 := 0
  resetPeriodSeconds : Int64 := 86400
  usageStatePath : Option Bytes := none
  expectedModelChecksumSha256 : Option Bytes := none
  modelRegistryPath : Option Bytes := none
  modelId : Option Bytes := none
deriving DecidableEq

/-- A field that is taken over if it is positive. -/
def positiveOr {α : Type} [LT α] [DecidableLT α] [OfNat α 0] (x default : α) : α :=
  if x > 0 then x else default

/-- A string that is taken over unless its pointer is null. -/
def stringOr (buffer : Option Bytes) (default : Bytes) : Bytes :=
  match buffer with
  | none => default
  | some buffer => cString buffer

def toCppConfig (c : Option Config) : RuntimeConfig :=
  let config : RuntimeConfig := {}
  match c with
  | none => config
  | some c => {
      modelPath := stringOr c.modelPath config.modelPath
      contextSize := positiveOr c.contextSize config.contextSize
      threads := positiveOr c.threads config.threads
      temperature := c.temperature
      topP := c.topP
      topK := if c.topK ≥ 0 then c.topK else config.topK
      maxTokens := positiveOr c.maxTokens config.maxTokens
      memoryBudgetMb := positiveOr c.memoryBudgetMb config.memoryBudgetMb
      safetyReserveMb := positiveOr c.safetyReserveMb config.safetyReserveMb
      sessionTimeLimitSeconds :=
        positiveOr c.sessionTimeLimitSeconds config.sessionTimeLimitSeconds
      dailyMessageLimit := positiveOr c.dailyMessageLimit config.dailyMessageLimit
      dailyTokenLimit := positiveOr c.dailyTokenLimit config.dailyTokenLimit
      resetPeriodSeconds := positiveOr c.resetPeriodSeconds config.resetPeriodSeconds
      usageStatePath := stringOr c.usageStatePath config.usageStatePath
      expectedModelChecksumSha256 :=
        stringOr c.expectedModelChecksumSha256 config.expectedModelChecksumSha256
      modelRegistryPath := stringOr c.modelRegistryPath config.modelRegistryPath
      modelId := stringOr c.modelId config.modelId }

inductive Status
  | ok
  | errorInvalidConfig
  | errorModelNotFound
  | errorModelLoadFailed
  | errorContextCreateFailed
  | errorTokenizeFailed
  | errorDecodeFailed
  | errorNotLoaded
  | errorMemoryBudgetExceeded
  | errorQuotaExceeded
  | errorModelVerificationFailed
  | errorModelResolutionFailed
deriving DecidableEq

def toCStatus : RuntimeError → Status
  | .none => .ok
  | .invalidConfig => .errorInvalidConfig
  | .modelFileNotFound => .errorModelNotFound
  | .modelLoadFailed => .errorModelLoadFailed
  | .contextCreateFailed => .errorContextCreateFailed
  | .tokenizeFailed => .errorTokenizeFailed
  | .decodeFailed => .errorDecodeFailed
  | .memoryBudgetExceeded => .errorMemoryBudgetExceeded
  | .notLoaded => .errorNotLoaded
  | .quotaExceeded => .errorQuotaExceeded
  | .modelVerificationFailed => .errorModelVerificationFailed
  | .modelResolutionFailed => .errorModelResolutionFailed

def statusMessage : Status → Bytes
  | .ok => text "OK"
  | .errorInvalidConfig => text "Invalid configuration."
  | .errorModelNotFound => text "Model file does not exist."
  | .errorModelLoadFailed => text "Failed to load GGUF model."
  | .errorContextCreateFailed => text "Failed to create inference context."
  | .errorTokenizeFailed => text "Failed to tokenize prompt."
  | .errorDecodeFailed => text "Inference failed."
  | .errorNotLoaded => text "Runtime is not loaded."
  | .errorMemoryBudgetExceeded => text "Configuration exceeds the configured memory budget."
  | .errorQuotaExceeded => text "Usage/quota limit reached."
  | .errorModelVerificationFailed => text "Model failed verification."
  | .errorModelResolutionFailed => text "Could not resolve a model from model_path/model_id."

structure CreateResult where
  handle : Option Runtime
  status : Status
  world : World
  effects : List Effect

/-- `syj_edgemind_create`: after three of the failures the handle is kept for its report. -/
def create (config : Option Config) (w : World) (input : LoadInput) : CreateResult :=
  let loaded := ({} : Runtime).load w (toCppConfig config) input
  let status := toCStatus loaded.runtime.lastError
  { handle :=
      if status = .ok then some loaded.runtime
      else if status = .errorMemoryBudgetExceeded ∨ status = .errorQuotaExceeded ∨
          status = .errorModelVerificationFailed then some loaded.runtime
      else none
    status
    world := loaded.world
    effects := loaded.effects }

theorem create_handle {c : Option Config} {w : World} {input : LoadInput} {r : Runtime}
    (h : (create c w input).handle = some r) :
    r = (({} : Runtime).load w (toCppConfig c) input).runtime := by
  unfold create at h
  dsimp only at h
  split at h
  · exact (Option.some.inj h).symm
  · split at h
    · exact (Option.some.inj h).symm
    · cases h

/-- What is copied into a buffer of the given size, with its NUL. -/
def copyOut (report : Bytes) (bufSize : Nat) : Bytes :=
  if bufSize > 0 then report.take (bufSize - 1) ++ [0] else []

/-- `syj_edgemind_get_usage_report`: the size that is returned and the buffer. -/
def getUsageReport (runtime : Option Runtime) (usage : FileSystem) (now : Int) (bufSize : Nat) :
    Nat × Bytes :=
  match runtime with
  | none => (0, copyOut [] bufSize)
  | some runtime =>
      let report := runtime.usageReport usage now
      (report.length, copyOut report bufSize)

theorem cString_of_notMem {buffer : Bytes} (h : (0 : UInt8) ∉ buffer) : cString buffer = buffer := by
  rw [cString, List.takeWhile_eq_self_iff]
  intro b hb
  rw [decide_eq_true_iff]
  intro h
  subst h
  exact h hb

theorem cString_copyOut {report : Bytes} {bufSize : Nat} (h : (0 : UInt8) ∉ report)
    (hlength : report.length < bufSize) : cString (copyOut report bufSize) = report := by
  have hself := cString_of_notMem h
  rw [cString, List.takeWhile_eq_self_iff] at hself
  rw [copyOut, if_pos (by omega), List.take_of_length_le (by omega), cString,
    List.takeWhile_append_of_pos hself]
  exact List.append_nil report

inductive SelectionOutcome
  | noRegisteredModels
  | singleModelSelected
  | multipleModelsRequireChoice
deriving DecidableEq

/-- `syj_edgemind_select_model`: the outcome and the buffer for the identity. -/
def selectModel (registry : FileSystem) (registryPath : Option Bytes) (bufSize : Nat) :
    SelectionOutcome × Bytes :=
  let path := stringOr registryPath ({} : RuntimeConfig).modelRegistryPath
  let selection := selectModelForCli registry path
  match selection.outcome with
  | .noRegisteredModels => (.noRegisteredModels, copyOut [] bufSize)
  | .multipleModelsRequireChoice => (.multipleModelsRequireChoice, copyOut [] bufSize)
  | .singleModelSelected => (.singleModelSelected, copyOut selection.selectedEntry.modelId bufSize)

end Api

end EdgeMind
