import EdgeMind.Inference.Engine
import EdgeMind.Model.Registry
import EdgeMind.Usage.Manager

/-!
# The runtime

The load pipeline (configuration, quota, resolution, verification, engine), generation with its
admission check and its accounting, and the reports. Each operation takes the files it works on, a
clock reading for each transaction, the outcomes of its saves and the answers of the llama library,
and returns what it did to the outside in order.
-/

namespace EdgeMind

open Framework

inductive ModelResolutionStatus
  | resolved
  | neitherProvided
  | bothProvided
  | modelIdNotFound
  | registryUnreadable
deriving DecidableEq

structure ModelResolutionResult where
  status : ModelResolutionStatus := .neitherProvided
  resolvedPath : Path := []
deriving DecidableEq

def resolveModelPath (registry : FileSystem) (modelPath modelId registryPath : Bytes) :
    ModelResolutionResult :=
  if modelPath = [] ∧ modelId = [] then { status := .neitherProvided }
  else if modelPath ≠ [] ∧ modelId ≠ [] then { status := .bothProvided }
  else if modelPath ≠ [] then { status := .resolved, resolvedPath := modelPath }
  else
    let (loadResult, entries) := ModelRegistry.load registry registryPath
    if loadResult = .corrupted then { status := .registryUnreadable }
    else
      match entries.find? fun entry => entry.modelId = modelId with
      | some entry => { status := .resolved, resolvedPath := entry.localPath }
      | none => { status := .modelIdNotFound }

def resolutionMessage (config : RuntimeConfig) : ModelResolutionStatus → Bytes
  | .neitherProvided => text "Neither model_path nor model_id was provided."
  | .bothProvided => text "Both model_path and model_id were provided; exactly one is required."
  | .modelIdNotFound =>
      text "No registry entry matches model_id \"" ++ config.modelId ++ text "\"."
  | .registryUnreadable =>
      text "The model registry at \"" ++ config.modelRegistryPath ++
        text "\" could not be trusted (corrupted)."
  | .resolved => []

inductive RuntimeError
  | none
  | invalidConfig
  | modelFileNotFound
  | modelLoadFailed
  | contextCreateFailed
  | tokenizeFailed
  | decodeFailed
  | memoryBudgetExceeded
  | notLoaded
  | quotaExceeded
  | modelVerificationFailed
  | modelResolutionFailed
deriving DecidableEq

def toRuntimeError : EngineError → RuntimeError
  | .none => .none
  | .modelFileNotFound => .modelFileNotFound
  | .modelLoadFailed => .modelLoadFailed
  | .contextCreateFailed => .contextCreateFailed
  | .tokenizeFailed => .tokenizeFailed
  | .decodeFailed => .decodeFailed
  | .memoryBudgetExceeded => .memoryBudgetExceeded

/-- `usageManager` is the state path of the usage manager, once there is one. -/
structure Runtime where
  engine : InferenceEngine := {}
  usageManager : Option Path := none
  config : RuntimeConfig := {}
  ready : Bool := false
  lastError : RuntimeError := .none
  lastVerificationDiagnostic : Bytes := []
deriving DecidableEq

/-- What each store finds at its paths. The stores have their files for themselves here; what a load does
where a configuration gives two of them one path is followed in `OneDisk.load`, and `OneDisk.run_same`
says when it makes no difference. -/
structure World where
  models : FileSystem
  registry : FileSystem
  usage : FileSystem

/-- What an operation does to the outside; a usage transaction is recorded with its clock reading
and the usage files it leaves. -/
inductive Effect
  | checkAdmission (now : Int) (usage : FileSystem)
  | sessionStart (now : Int) (usage : FileSystem)
  | recordGeneration (now : Int) (usage : FileSystem)
  | importModel (modelPath : Path)
  | engineLoad (modelPath : Path)
  | llama (call : LlamaCall)

structure CallResult where
  runtime : Runtime
  world : World
  message : Bytes
  effects : List Effect

structure LoadInput where
  admissionNow : Int
  admissionSave : SaveOutcome
  sessionNow : Int
  sessionSave : SaveOutcome
  importNow : Int64
  registrySave : SaveOutcome
  llama : LlamaLoad

/-- What the environment contributes to a generation. -/
structure GenerateInput where
  admissionNow : Int
  admissionSave : SaveOutcome
  recordNow : Int
  recordSave : SaveOutcome
  llama : LlamaGenerate

namespace Runtime

def isReady (r : Runtime) : Bool := r.ready && r.engine.isLoaded

/-- The engine stage: from a verified file at `config.modelPath`. -/
def loadEngine (r : Runtime) (w : World) (config : RuntimeConfig) (input : LoadInput)
    (effects : List Effect) : CallResult :=
  let loaded := r.engine.load w.models config input.llama
  let r := { r with engine := loaded.engine, lastError := toRuntimeError loaded.error }
  let effects := effects ++ .engineLoad config.modelPath :: loaded.calls.map .llama
  if loaded.error ≠ .none then
    { runtime := r, world := w, effects
      message := text "ERROR: " ++ engineErrorMessage loaded.error ++
        (if loaded.error = .modelFileNotFound then text "\n  " ++ config.modelPath else []) ++
        (if loaded.error = .memoryBudgetExceeded then
          text "\n\n" ++ loaded.engine.memoryDiagnostic else []) }
  else { runtime := { r with config, ready := true }, world := w, message := [], effects }

/-- The verification stage: import the resolved file, then go on if it is verified. -/
def loadVerified (r : Runtime) (w : World) (config : RuntimeConfig) (input : LoadInput)
    (effects : List Effect) : CallResult :=
  let imported := ModelRegistry.importModel w.models w.registry config.modelRegistryPath
    config.modelPath config.expectedModelChecksumSha256 input.importNow input.registrySave
  let w := { w with registry := imported.registry }
  let r := { r with lastVerificationDiagnostic := imported.result.diagnostic }
  let effects := effects ++ [.importModel config.modelPath]
  if ¬isVerified imported.result.status then
    { runtime := { r with lastError := .modelVerificationFailed }, world := w, effects
      message := text "ERROR: Model verification failed.\n\n" ++ imported.result.diagnostic }
  else loadEngine r w config input effects

def loadResolved (r : Runtime) (w : World) (config : RuntimeConfig) (input : LoadInput)
    (effects : List Effect) : CallResult :=
  let resolution :=
    resolveModelPath w.registry config.modelPath config.modelId config.modelRegistryPath
  if resolution.status ≠ .resolved then
    { runtime := { r with lastError := .modelResolutionFailed }, world := w, effects
      message := text "ERROR: Model resolution failed.\n\n" ++
        resolutionMessage config resolution.status }
  else loadVerified r w { config with modelPath := resolution.resolvedPath } input effects

def load (r : Runtime) (w : World) (config : RuntimeConfig) (input : LoadInput) : CallResult :=
  let r := { r with ready := false, lastError := .none }
  let validationError := validateConfig config
  if validationError ≠ [] then
    { runtime := { r with lastError := .invalidConfig }, world := w
      message := validationError, effects := [] }
  else
    let r := { r with usageManager := some config.usageStatePath }
    let (usage, quotaDecision) := UsageManager.checkAdmission w.usage config.usageStatePath
      (toUsagePolicy config) input.admissionNow input.admissionSave
    let w := { w with usage }
    let effects := [.checkAdmission input.admissionNow usage]
    if ¬quotaDecision.allowed then
      { runtime := { r with lastError := .quotaExceeded }, world := w, effects
        message := text "ERROR: Usage quota check failed.\n\n" ++ quotaDecision.diagnostic }
    else
      let (usage, _) :=
        UsageManager.sessionStart w.usage config.usageStatePath input.sessionNow input.sessionSave
      loadResolved r { w with usage } config input
        (effects ++ [.sessionStart input.sessionNow usage])

def unload (r : Runtime) (w : World) : CallResult :=
  let (engine, calls) := r.engine.unload
  { runtime := { r with engine, ready := false }, world := w, message := []
    effects := calls.map .llama }

/-- Generation and its accounting, after the admission check. -/
def generateAdmitted (r : Runtime) (w : World) (prompt : Bytes) (input : GenerateInput)
    (effects : List Effect) : CallResult :=
  let generated := r.engine.generate prompt input.llama
  let r := { r with engine := generated.engine, lastError := toRuntimeError generated.error }
  let effects := effects ++ generated.calls.map .llama
  let message := if generated.error ≠ .none then
    text "ERROR: " ++ engineErrorMessage generated.error else []
  match r.usageManager with
  | none => { runtime := r, world := w, message, effects }
  | some statePath =>
      let (usage, _) := UsageManager.recordGeneration w.usage statePath (toUsagePolicy r.config)
        generated.pieces.length input.recordNow input.recordSave
      { runtime := r, world := { w with usage }, message
        effects := effects ++ [.recordGeneration input.recordNow usage] }

def generate (r : Runtime) (w : World) (prompt : Bytes) (input : GenerateInput) : CallResult :=
  if ¬r.isReady then
    { runtime := { r with lastError := .notLoaded }, world := w, effects := []
      message := text "ERROR: Runtime is not loaded. Call load() with a valid model first." }
  else
    match r.usageManager with
    | none => generateAdmitted r w prompt input []
    | some statePath =>
        let (usage, quotaDecision) := UsageManager.checkAdmission w.usage statePath
          (toUsagePolicy r.config) input.admissionNow input.admissionSave
        let w := { w with usage }
        let effects := [.checkAdmission input.admissionNow usage]
        if ¬quotaDecision.allowed then
          { runtime := { r with lastError := .quotaExceeded }, world := w, effects
            message := text "ERROR: Usage quota check failed.\n\n" ++ quotaDecision.diagnostic }
        else generateAdmitted r w prompt input effects

def resetContext (r : Runtime) (w : World) (hasMemory : Bool) : CallResult :=
  let (engine, calls) := r.engine.resetContext hasMemory
  { runtime := { r with engine }, world := w, message := [], effects := calls.map .llama }

def memoryReport (r : Runtime) : Bytes := r.engine.memoryDiagnostic

def verificationReport (r : Runtime) : Bytes := r.lastVerificationDiagnostic

def usageReport (r : Runtime) (usage : FileSystem) (now : Int) : Bytes :=
  match r.usageManager with
  | none => text "No usage data available yet — call load() first."
  | some statePath => UsageManager.usageReport usage statePath (toUsagePolicy r.config) now

def modelInfo (r : Runtime) (llama : LlamaInfo) : InferenceEngine.ModelInfo :=
  r.engine.modelInfo llama

/-- The engine always exists, so that the report for its absence is never given. -/
def contextReport (r : Runtime) : Bytes :=
  let state := r.engine.contextState
  if ¬state.available then text "No model is currently loaded."
  else
    text "Context capacity: " ++ intDecimal state.nCtx.toInt ++ text " tokens\n" ++
      text "Used:             " ++ intDecimal state.nUsed.toInt ++ text " tokens\n" ++
      text "Remaining:        " ++ intDecimal state.nRemaining.toInt ++ text " tokens\n"

/-- A call of the runtime, with what the environment contributes to it. -/
inductive Call
  | load (config : RuntimeConfig) (input : LoadInput)
  | unload
  | generate (prompt : Bytes) (input : GenerateInput)
  | resetContext (hasMemory : Bool)

def call (r : Runtime) (w : World) : Call → CallResult
  | .load config input => r.load w config input
  | .unload => r.unload w
  | .generate prompt input => r.generate w prompt input
  | .resetContext hasMemory => r.resetContext w hasMemory

end Runtime

end EdgeMind
