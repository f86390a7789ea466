import EdgeMind.Core.EngineCalls

/-!
# Loads on one file system

The model files, the registry and the usage state lie in one file system, and a configuration may give
two stores one path. The load is followed here through that file system: what a stage writes is what the
next one finds. Where the stores have different files this is the load on separate file systems.
-/

namespace EdgeMind

open Framework

namespace OneDisk

def world (files : FileSystem) : World := { models := files, registry := files, usage := files }

def loadVerified (r : Runtime) (files : FileSystem) (config : RuntimeConfig) (input : LoadInput)
    (effects : List Effect) : CallResult :=
  let imported := ModelRegistry.importModel files files config.modelRegistryPath config.modelPath
    config.expectedModelChecksumSha256 input.importNow input.registrySave
  let files := imported.registry
  let r := { r with lastVerificationDiagnostic := imported.result.diagnostic }
  let effects := effects ++ [.importModel config.modelPath]
  if ¬isVerified imported.result.status then
    { runtime := { r with lastError := .modelVerificationFailed }, world := world files, effects
      message := text "ERROR: Model verification failed.\n\n" ++ imported.result.diagnostic }
  else r.loadEngine (world files) config input effects

def loadResolved (r : Runtime) (files : FileSystem) (config : RuntimeConfig) (input : LoadInput)
    (effects : List Effect) : CallResult :=
  let resolution :=
    resolveModelPath files config.modelPath config.modelId config.modelRegistryPath
  if resolution.status ≠ .resolved then
    { runtime := { r with lastError := .modelResolutionFailed }, world := world files, effects
      message := text "ERROR: Model resolution failed.\n\n" ++
        resolutionMessage config resolution.status }
  else loadVerified r files { config with modelPath := resolution.resolvedPath } input effects

def load (r : Runtime) (files : FileSystem) (config : RuntimeConfig) (input : LoadInput) :
    CallResult :=
  let r := { r with ready := false, lastError := .none }
  let validationError := validateConfig config
  if validationError ≠ [] then
    { runtime := { r with lastError := .invalidConfig }, world := world files
      message := validationError, effects := [] }
  else
    let r := { r with usageManager := some config.usageStatePath }
    let (files, quotaDecision) := UsageManager.checkAdmission files config.usageStatePath
      (toUsagePolicy config) input.admissionNow input.admissionSave
    let effects := [.checkAdmission input.admissionNow files]
    if ¬quotaDecision.allowed then
      { runtime := { r with lastError := .quotaExceeded }, world := world files, effects
        message := text "ERROR: Usage quota check failed.\n\n" ++ quotaDecision.diagnostic }
    else
      let (files, _) :=
        UsageManager.sessionStart files config.usageStatePath input.sessionNow input.sessionSave
      loadResolved r files config input (effects ++ [.sessionStart input.sessionNow files])

/-- The other calls write the usage state at most. -/
def call (r : Runtime) (files : FileSystem) : Runtime.Call → CallResult
  | .load config input => load r files config input
  | .unload => r.unload (world files)
  | .generate prompt input =>
      let result := r.generate (world files) prompt input
      { result with world := world result.world.usage }
  | .resetContext hasMemory => r.resetContext (world files) hasMemory

def step (r : Runtime) (c : FileSystem × Runtime.Call) : Runtime × CallResult :=
  ((call r c.1 c.2).runtime, call r c.1 c.2)

/-- What the stages of a load find before the engine: the usage state as it is, and the rest once the
usage state has been written. -/
def found (files : FileSystem) (config : RuntimeConfig) (input : LoadInput) : World :=
  let written := Runtime.sessionStage (world files) config input
  { models := written, registry := written, usage := files }

open EdgeMind.Runtime

def engineStage (r : Runtime) (files : FileSystem) (config : RuntimeConfig) (input : LoadInput) :
    InferenceEngine.LoadResult :=
  let w := found files config input
  r.engine.load (importStage w config input).registry (resolvedConfig w config) input.llama

def Fails (r : Runtime) (files : FileSystem) (config : RuntimeConfig) (input : LoadInput) :
    Stage → Prop
  | .engine => (engineStage r files config input).error ≠ .none
  | stage => Runtime.Fails r (found files config input) config input stage

def stageError (r : Runtime) (files : FileSystem) (config : RuntimeConfig) (input : LoadInput) :
    Stage → RuntimeError
  | .engine => toRuntimeError (engineStage r files config input).error
  | stage => Runtime.stageError r (found files config input) config input stage

def Reaches (r : Runtime) (files : FileSystem) (config : RuntimeConfig) (input : LoadInput)
    (stage : Stage) : Prop :=
  ∀ earlier, earlier.index < stage.index → ¬Fails r files config input earlier

theorem first_failure_unique {r : Runtime} {files : FileSystem} {config : RuntimeConfig}
    {input : LoadInput} {a b : Stage} (ha : Reaches r files config input a)
    (hfa : Fails r files config input a) (hb : Reaches r files config input b)
    (hfb : Fails r files config input b) : a = b := by
  rcases Nat.lt_trichotomy a.index b.index with h | h | h
  · exact absurd hfa (hb a h)
  · cases a <;> cases b <;> first | rfl | exact absurd h (by decide)
  · exact absurd hfb (ha b h)

/-- The result of a load, by the stage it ended at. -/
inductive LoadCase (r : Runtime) (files : FileSystem) (config : RuntimeConfig) (input : LoadInput)
    (w : World) : CallResult → Prop
  | invalid (hconfig : validateConfig config ≠ []) :
      LoadCase r files config input w {
        runtime := { r with ready := false, lastError := .invalidConfig }
        world := world files
        message := validateConfig config
        effects := [] }
  | denied (hconfig : validateConfig config = [])
      (hquota : ¬(quotaStage w config input).2.allowed) :
      LoadCase r files config input w {
        runtime := { opened r config with lastError := .quotaExceeded }
        world := world (quotaStage w config input).1
        message := text "ERROR: Usage quota check failed.\n\n" ++
          (quotaStage w config input).2.diagnostic
        effects := [.checkAdmission input.admissionNow (quotaStage w config input).1] }
  | unresolved (hconfig : validateConfig config = [])
      (hquota : (quotaStage w config input).2.allowed)
      (hresolution : (resolution w config).status ≠ .resolved) :
      LoadCase r files config input w {
        runtime := { opened r config with lastError := .modelResolutionFailed }
        world := world (sessionStage w config input)
        message := text "ERROR: Model resolution failed.\n\n" ++
          resolutionMessage config (resolution w config).status
        effects := sessionEffects w config input }
  | rejected (hconfig : validateConfig config = [])
      (hquota : (quotaStage w config input).2.allowed)
      (hresolution : (resolution w config).status = .resolved)
      (hverification : ¬isVerified (importStage w config input).result.status) :
      LoadCase r files config input w {
        runtime := { opened r config with
          lastError := .modelVerificationFailed
          lastVerificationDiagnostic := (importStage w config input).result.diagnostic }
        world := world (importStage w config input).registry
        message := text "ERROR: Model verification failed.\n\n" ++
          (importStage w config input).result.diagnostic
        effects := sessionEffects w config input ++
          [.importModel (resolution w config).resolvedPath] }
  | engine (hconfig : validateConfig config = [])
      (hquota : (quotaStage w config input).2.allowed)
      (hresolution : (resolution w config).status = .resolved)
      (hverification : isVerified (importStage w config input).result.status) :
      LoadCase r files config input w (loadEngine
        { opened r config with
          lastVerificationDiagnostic := (importStage w config input).result.diagnostic }
        (world (importStage w config input).registry) (resolvedConfig w config) input
        (sessionEffects w config input ++ [.importModel (resolution w config).resolvedPath]))

theorem load_case (r : Runtime) (files : FileSystem) (config : RuntimeConfig) (input : LoadInput) :
    LoadCase r files config input (found files config input) (load r files config input) := by
  let w := found files config input
  by_cases hconfig : validateConfig config = []
  case neg =>
    simp only [load, ne_eq, hconfig, not_false_eq_true, if_true]
    exact .invalid hconfig
  by_cases hquota : (quotaStage w config input).2.allowed
  case neg =>
    have hdenied : ¬(UsageManager.checkAdmission files config.usageStatePath (toUsagePolicy config)
      input.admissionNow input.admissionSave).2.allowed := hquota
    simp only [load, ne_eq, hconfig, not_true, if_false, hdenied]
    exact .denied hconfig hquota
  have hadmitted : (UsageManager.checkAdmission files config.usageStatePath (toUsagePolicy config)
    input.admissionNow input.admissionSave).2.allowed := hquota
  simp only [load, ne_eq, hconfig, hadmitted, not_true, if_false]
  change LoadCase r files config input w (loadResolved (opened r config) w.registry config input
    (sessionEffects w config input))
  by_cases hresolution : (resolution w config).status = .resolved
  case neg =>
    have hunresolved := hresolution
    unfold resolution at hunresolved
    simp only [loadResolved, ne_eq, hunresolved, not_false_eq_true, if_true]
    exact .unresolved hconfig hquota hresolution
  have hresolved := hresolution
  unfold resolution at hresolved
  simp only [loadResolved, ne_eq, hresolved, not_true, if_false]
  by_cases hverification : isVerified (importStage w config input).result.status
  case neg =>
    have hrejected := hverification
    unfold importStage resolution at hrejected
    have hsame : w.models = w.registry := rfl
    rw [hsame] at hrejected
    simp only [loadVerified, hrejected]
    exact .rejected hconfig hquota hresolution hverification
  have hverified := hverification
  unfold importStage resolution at hverified
  have hsame : w.models = w.registry := rfl
  rw [hsame] at hverified
  simp only [loadVerified, hverified, not_true, if_false]
  exact .engine hconfig hquota hresolution hverification

section Frame

variable (files : FileSystem) (config : RuntimeConfig) (input : LoadInput) {p : Path}

end Frame

theorem loadEngine_world (r : Runtime) (w : World) (config : RuntimeConfig) (input : LoadInput)
    (effects : List Effect) : (r.loadEngine w config input effects).world = w := by
  unfold loadEngine
  dsimp only
  split <;> rfl

/-- One small model file, and no registry and no usage state yet. -/
def sampleFiles : FileSystem := sampleWorld.models

end OneDisk

end EdgeMind
