import EdgeMind.Core.Runtime
import EdgeMind.Framework.Run
import EdgeMind.Model.RegistryImport

/-!
# The load pipeline

A load goes through five stages and ends at the first one that fails. What each stage computes is
stated from the surroundings of the load, and one case analysis gives the whole result of a load by
the stage it ended at. Everything that is said about loads is derived from that.
-/

namespace EdgeMind

open Framework

namespace Runtime

/-- The quota stage: the usage files it leaves, and its decision. -/
def quotaStage (w : World) (config : RuntimeConfig) (input : LoadInput) :
    FileSystem × UsageDecision :=
  UsageManager.checkAdmission w.usage config.usageStatePath (toUsagePolicy config)
    input.admissionNow input.admissionSave

/-- The usage files once the session start has been noted. -/
def sessionStage (w : World) (config : RuntimeConfig) (input : LoadInput) : FileSystem :=
  (UsageManager.sessionStart (quotaStage w config input).1 config.usageStatePath input.sessionNow
    input.sessionSave).1

def resolution (w : World) (config : RuntimeConfig) : ModelResolutionResult :=
  resolveModelPath w.registry config.modelPath config.modelId config.modelRegistryPath

def resolvedConfig (w : World) (config : RuntimeConfig) : RuntimeConfig :=
  { config with modelPath := (resolution w config).resolvedPath }

def importStage (w : World) (config : RuntimeConfig) (input : LoadInput) :
    ModelRegistry.ImportResult :=
  ModelRegistry.importModel w.models w.registry config.modelRegistryPath
    (resolution w config).resolvedPath config.expectedModelChecksumSha256 input.importNow
    input.registrySave

def engineStage (r : Runtime) (w : World) (config : RuntimeConfig) (input : LoadInput) :
    InferenceEngine.LoadResult :=
  r.engine.load w.models (resolvedConfig w config) input.llama

inductive Stage
  | config
  | quota
  | resolution
  | verification
  | engine
deriving DecidableEq

def Stage.index : Stage → Nat
  | .config => 0
  | .quota => 1
  | .resolution => 2
  | .verification => 3
  | .engine => 4

def Fails (r : Runtime) (w : World) (config : RuntimeConfig) (input : LoadInput) : Stage → Prop
  | .config => validateConfig config ≠ []
  | .quota => ¬(quotaStage w config input).2.allowed
  | .resolution => (resolution w config).status ≠ .resolved
  | .verification => ¬isVerified (importStage w config input).result.status
  | .engine => (engineStage r w config input).error ≠ .none

def Reaches (r : Runtime) (w : World) (config : RuntimeConfig) (input : LoadInput)
    (stage : Stage) : Prop :=
  ∀ earlier, earlier.index < stage.index → ¬Fails r w config input earlier

def stageError (r : Runtime) (w : World) (config : RuntimeConfig) (input : LoadInput) :
    Stage → RuntimeError
  | .config => .invalidConfig
  | .quota => .quotaExceeded
  | .resolution => .modelResolutionFailed
  | .verification => .modelVerificationFailed
  | .engine => toRuntimeError (engineStage r w config input).error

/-- The runtime of a load whose configuration is accepted, before the quota decision. -/
def opened (r : Runtime) (config : RuntimeConfig) : Runtime :=
  { r with ready := false, lastError := .none, usageManager := some config.usageStatePath }

def sessionEffects (w : World) (config : RuntimeConfig) (input : LoadInput) : List Effect :=
  [.checkAdmission input.admissionNow (quotaStage w config input).1,
    .sessionStart input.sessionNow (sessionStage w config input)]

/-- The result of a load, by the stage it ended at. -/
inductive LoadCase (r : Runtime) (w : World) (config : RuntimeConfig) (input : LoadInput) :
    CallResult → Prop
  | invalid (hconfig : validateConfig config ≠ []) :
      LoadCase r w config input {
        runtime := { r with ready := false, lastError := .invalidConfig }
        world := w
        message := validateConfig config
        effects := [] }
  | denied (hconfig : validateConfig config = [])
      (hquota : ¬(quotaStage w config input).2.allowed) :
      LoadCase r w config input {
        runtime := { opened r config with lastError := .quotaExceeded }
        world := { w with usage := (quotaStage w config input).1 }
        message := text "ERROR: Usage quota check failed.\n\n" ++
          (quotaStage w config input).2.diagnostic
        effects := [.checkAdmission input.admissionNow (quotaStage w config input).1] }
  | unresolved (hconfig : validateConfig config = [])
      (hquota : (quotaStage w config input).2.allowed)
      (hresolution : (resolution w config).status ≠ .resolved) :
      LoadCase r w config input {
        runtime := { opened r config with lastError := .modelResolutionFailed }
        world := { w with usage := sessionStage w config input }
        message := text "ERROR: Model resolution failed.\n\n" ++
          resolutionMessage config (resolution w config).status
        effects := sessionEffects w config input }
  | rejected (hconfig : validateConfig config = [])
      (hquota : (quotaStage w config input).2.allowed)
      (hresolution : (resolution w config).status = .resolved)
      (hverification : ¬isVerified (importStage w config input).result.status) :
      LoadCase r w config input {
        runtime := { opened r config with
          lastError := .modelVerificationFailed
          lastVerificationDiagnostic := (importStage w config input).result.diagnostic }
        world := { w with
          usage := sessionStage w config input
          registry := (importStage w config input).registry }
        message := text "ERROR: Model verification failed.\n\n" ++
          (importStage w config input).result.diagnostic
        effects := sessionEffects w config input ++
          [.importModel (resolution w config).resolvedPath] }
  | engine (hconfig : validateConfig config = [])
      (hquota : (quotaStage w config input).2.allowed)
      (hresolution : (resolution w config).status = .resolved)
      (hverification : isVerified (importStage w config input).result.status) :
      LoadCase r w config input (loadEngine
        { opened r config with
          lastVerificationDiagnostic := (importStage w config input).result.diagnostic }
        { w with
          usage := sessionStage w config input
          registry := (importStage w config input).registry }
        (resolvedConfig w config) input
        (sessionEffects w config input ++ [.importModel (resolution w config).resolvedPath]))

theorem load_case (r : Runtime) (w : World) (config : RuntimeConfig) (input : LoadInput) :
    LoadCase r w config input (r.load w config input) := by
  by_cases hconfig : validateConfig config = []
  case neg =>
    simp only [load, ne_eq, hconfig, not_false_eq_true, if_true]
    exact .invalid hconfig
  by_cases hquota : (quotaStage w config input).2.allowed
  case neg =>
    have hdenied := hquota
    unfold quotaStage at hdenied
    simp only [load, ne_eq, hconfig, not_true, if_false, hdenied]
    exact .denied hconfig hquota
  have hadmitted := hquota
  unfold quotaStage at hadmitted
  simp only [load, ne_eq, hconfig, hadmitted, not_true, if_false]
  by_cases hresolution : (resolution w config).status = .resolved
  case neg =>
    have hunresolved := hresolution
    unfold resolution at hunresolved
    simp only [loadResolved, ne_eq, hunresolved, not_false_eq_true, if_true]
    exact .unresolved hconfig hquota hresolution
  have hresolved := hresolution
  unfold resolution at hresolved
  simp only [loadResolved, ne_eq, hresolved, not_true, if_false]
  by_cases hverification : isVerified (importStage w config input).result.status
  case neg =>
    have hrejected := hverification
    unfold importStage resolution at hrejected
    simp only [loadVerified, hrejected]
    exact .rejected hconfig hquota hresolution hverification
  have hverified := hverification
  unfold importStage resolution at hverified
  simp only [loadVerified, hverified, not_true, if_false]
  exact .engine hconfig hquota hresolution hverification

theorem loadEngine_lastError (r : Runtime) (w : World) (config : RuntimeConfig)
    (input : LoadInput) (effects : List Effect) :
    (r.loadEngine w config input effects).runtime.lastError =
      toRuntimeError (r.engine.load w.models config input.llama).error := by
  unfold loadEngine
  dsimp only
  split <;> rfl

theorem loadEngine_effects (r : Runtime) (w : World) (config : RuntimeConfig)
    (input : LoadInput) (effects : List Effect) :
    (r.loadEngine w config input effects).effects = effects ++ .engineLoad config.modelPath ::
      (r.engine.load w.models config input.llama).calls.map .llama := by
  unfold loadEngine
  dsimp only
  split <;> rfl

theorem filterMap_llama {α : Type} {f : Effect → Option α} (hf : ∀ call, f (.llama call) = none)
    (calls : List LlamaCall) : (calls.map Effect.llama).filterMap f = [] := by
  rw [List.filterMap_eq_nil_iff]
  intro effect h
  obtain ⟨call, -, rfl⟩ := List.mem_map.mp h
  exact hf call

theorem engineLoad_mem_iff (r : Runtime) (w : World) (config : RuntimeConfig) (input : LoadInput)
    (p : Path) :
    .engineLoad p ∈ (r.load w config input).effects ↔ validateConfig config = [] ∧
      (quotaStage w config input).2.allowed = true ∧ (resolution w config).status = .resolved ∧
      isVerified (importStage w config input).result.status = true ∧
      (resolution w config).resolvedPath = p := by
  have hcase := load_case r w config input
  generalize r.load w config input = result at hcase
  cases hcase with
  | invalid hconfig => simp [hconfig]
  | denied hconfig hquota => simp [hquota]
  | unresolved hconfig hquota hresolution => simp [sessionEffects, hresolution]
  | rejected hconfig hquota hresolution hverification => simp [sessionEffects, hverification]
  | engine hconfig hquota hresolution hverification =>
      rw [loadEngine_effects]
      simp [sessionEffects, resolvedConfig, hconfig, hquota, hresolution, hverification, eq_comm]

theorem engineLoad_mem_of_any {effects : List Effect} {p : Path} (h : effects.any (fun
    | .engineLoad q => q = p
    | _ => false) = true) : .engineLoad p ∈ effects := by
  obtain ⟨effect, hmem, heffect⟩ := List.any_eq_true.mp h
  split at heffect
  · rw [decide_eq_true_iff] at heffect
    exact heffect ▸ hmem
  · cases heffect

section Reaching

variable {r : Runtime} {w : World} {config : RuntimeConfig} {input : LoadInput}

theorem reaches_config : Reaches r w config input .config := by
  intro earlier hlt
  exact absurd hlt (Nat.not_lt_zero _)

theorem reaches_quota (hconfig : validateConfig config = []) :
    Reaches r w config input .quota := by
  intro earlier hlt
  cases earlier with
  | config => exact not_not_intro hconfig
  | _ => exact absurd hlt (by decide)

theorem reaches_resolution (hconfig : validateConfig config = [])
    (hquota : (quotaStage w config input).2.allowed) : Reaches r w config input .resolution := by
  intro earlier hlt
  cases earlier with
  | quota => exact not_not_intro hquota
  | config => exact not_not_intro hconfig
  | _ => exact absurd hlt (by decide)

theorem reaches_verification (hconfig : validateConfig config = [])
    (hquota : (quotaStage w config input).2.allowed)
    (hresolution : (resolution w config).status = .resolved) :
    Reaches r w config input .verification := by
  intro earlier hlt
  cases earlier with
  | resolution => exact not_not_intro hresolution
  | quota => exact not_not_intro hquota
  | config => exact not_not_intro hconfig
  | _ => exact absurd hlt (by decide)

theorem reaches_engine (hconfig : validateConfig config = [])
    (hquota : (quotaStage w config input).2.allowed)
    (hresolution : (resolution w config).status = .resolved)
    (hverification : isVerified (importStage w config input).result.status) :
    Reaches r w config input .engine := by
  intro earlier hlt
  cases earlier with
  | verification => exact not_not_intro hverification
  | resolution => exact not_not_intro hresolution
  | quota => exact not_not_intro hquota
  | config => exact not_not_intro hconfig
  | engine => exact absurd hlt (by decide)

theorem first_failure_unique {a b : Stage} (ha : Reaches r w config input a)
    (hfa : Fails r w config input a) (hb : Reaches r w config input b)
    (hfb : Fails r w config input b) : a = b := by
  rcases Nat.lt_trichotomy a.index b.index with h | h | h
  · exact absurd hfa (hb a h)
  · cases a <;> cases b <;> first | rfl | exact absurd h (by decide)
  · exact absurd hfb (ha b h)

end Reaching

/-- The error names the first stage that fails, and the three ways to tell a successful load agree. -/
structure LoadTells (r : Runtime) (w : World) (config : RuntimeConfig) (input : LoadInput)
    (result : CallResult) : Prop where
  lastError : ∀ stage, Reaches r w config input stage → Fails r w config input stage →
    result.runtime.lastError = stageError r w config input stage
  ready : result.runtime.isReady = true ↔ result.message = []
  message : result.message = [] ↔ result.runtime.lastError = .none

theorem toRuntimeError_none_iff (e : EngineError) : toRuntimeError e = .none ↔ e = .none := by
  cases e <;> simp [toRuntimeError]

theorem text_append_ne {label : Bytes} (rest : Bytes) (h : label ≠ []) :
    label ++ rest ≠ [] :=
  List.append_ne_nil_of_left_ne_nil h rest

theorem ended_ready {r : Runtime} {message : Bytes} (hready : r.ready = false)
    (hmessage : message ≠ []) (herror : r.lastError ≠ .none) :
    (r.isReady = true ↔ message = []) ∧ (message = [] ↔ r.lastError = .none) := by
  simp [isReady, hready, hmessage, herror]

theorem loadEngine_ready (r : Runtime) (w : World) (config : RuntimeConfig)
    (input : LoadInput) (effects : List Effect) (hready : r.ready = false) :
    ((r.loadEngine w config input effects).runtime.isReady = true ↔
        (r.loadEngine w config input effects).message = []) ∧
      ((r.loadEngine w config input effects).message = [] ↔
        (r.loadEngine w config input effects).runtime.lastError = .none) := by
  rw [loadEngine_lastError, toRuntimeError_none_iff]
  unfold loadEngine
  dsimp only
  split
  · next herror => simp [isReady, hready, herror, text_append_ne _ (by decide : text "ERROR: " ≠ [])]
  · next herror =>
      have hok := InferenceEngine.load_ok (not_not.mp herror)
      simp [isReady, hok.1, not_not.mp herror]

theorem load_tells (r : Runtime) (w : World) (config : RuntimeConfig) (input : LoadInput) :
    LoadTells r w config input (r.load w config input) := by
  have hcase := load_case r w config input
  generalize r.load w config input = result at hcase
  cases hcase with
  | invalid hconfig =>
      have hend := ended_ready (r := { r with ready := false, lastError := .invalidConfig }) rfl
        hconfig nofun
      exact {
        lastError := fun stage hr hf => first_failure_unique reaches_config hconfig hr hf ▸ rfl
        ready := hend.1
        message := hend.2 }
  | denied hconfig hquota =>
      have hend := ended_ready (r := { opened r config with lastError := .quotaExceeded }) rfl
        (text_append_ne (quotaStage w config input).2.diagnostic
          (by decide : text "ERROR: Usage quota check failed.\n\n" ≠ [])) nofun
      have hreach : Reaches r w config input .quota := reaches_quota hconfig
      exact {
        lastError := fun stage hr hf => first_failure_unique hreach hquota hr hf ▸ rfl
        ready := hend.1
        message := hend.2 }
  | unresolved hconfig hquota hresolution =>
      have hend := ended_ready (r := { opened r config with lastError := .modelResolutionFailed })
        rfl (text_append_ne (resolutionMessage config (resolution w config).status)
          (by decide : text "ERROR: Model resolution failed.\n\n" ≠ [])) nofun
      have hreach := reaches_resolution (r := r) hconfig hquota
      exact {
        lastError := fun stage hr hf => first_failure_unique hreach hresolution hr hf ▸ rfl
        ready := hend.1
        message := hend.2 }
  | rejected hconfig hquota hresolution hverification =>
      have hend := ended_ready (r := { opened r config with
          lastError := .modelVerificationFailed
          lastVerificationDiagnostic := (importStage w config input).result.diagnostic }) rfl
        (text_append_ne (importStage w config input).result.diagnostic
          (by decide : text "ERROR: Model verification failed.\n\n" ≠ [])) nofun
      have hreach := reaches_verification (r := r) hconfig hquota hresolution
      exact {
        lastError := fun stage hr hf => first_failure_unique hreach hverification hr hf ▸ rfl
        ready := hend.1
        message := hend.2 }
  | engine hconfig hquota hresolution hverification =>
      have hend := loadEngine_ready { opened r config with
          lastVerificationDiagnostic := (importStage w config input).result.diagnostic }
        { w with
          usage := sessionStage w config input
          registry := (importStage w config input).registry }
        (resolvedConfig w config) input
        (sessionEffects w config input ++ [.importModel (resolution w config).resolvedPath]) rfl
      refine {
        lastError := fun stage hr hf => ?_
        ready := hend.1
        message := hend.2 }
      rw [loadEngine_lastError]
      cases stage with
      | config => exact absurd hconfig hf
      | quota => exact absurd hquota hf
      | resolution => exact absurd hresolution hf
      | verification => exact absurd hverification hf
      | engine => rfl

theorem load_lastError_iff (r : Runtime) (w : World) (config : RuntimeConfig) (input : LoadInput)
    {error : RuntimeError} (herror : error ≠ .none) :
    (r.load w config input).runtime.lastError = error ↔
      ∃ stage, Reaches r w config input stage ∧ Fails r w config input stage ∧
        stageError r w config input stage = error := by
  constructor
  · intro h
    have hcase := load_case r w config input
    generalize r.load w config input = result at hcase h
    cases hcase with
    | invalid hconfig => exact ⟨.config, reaches_config, hconfig, h⟩
    | denied hconfig hquota => exact ⟨.quota, reaches_quota hconfig, hquota, h⟩
    | unresolved hconfig hquota hresolution =>
        exact ⟨.resolution, reaches_resolution hconfig hquota, hresolution, h⟩
    | rejected hconfig hquota hresolution hverification =>
        exact ⟨.verification, reaches_verification hconfig hquota hresolution, hverification, h⟩
    | engine hconfig hquota hresolution hverification =>
        rw [loadEngine_lastError] at h
        refine ⟨.engine, reaches_engine hconfig hquota hresolution hverification, ?_, h⟩
        intro hnone
        exact herror (h.symm.trans ((toRuntimeError_none_iff _).mpr hnone))
  · rintro ⟨stage, hreaches, hfails, rfl⟩
    exact (load_tells r w config input).lastError stage hreaches hfails

def step (r : Runtime) (wc : World × Call) : Runtime × CallResult :=
  ((r.call wc.1 wc.2).runtime, r.call wc.1 wc.2)

theorem generateAdmitted_runtime (r : Runtime) (w : World) (prompt : Bytes)
    (input : GenerateInput) (effects : List Effect) :
    (r.generateAdmitted w prompt input effects).runtime = { r with
      engine := (r.engine.generate prompt input.llama).engine
      lastError := toRuntimeError (r.engine.generate prompt input.llama).error } := by
  unfold generateAdmitted
  dsimp only
  split <;> rfl

theorem generateAdmitted_record {r : Runtime} {statePath : Path}
    (hmanager : r.usageManager = some statePath) (w : World) (prompt : Bytes)
    (input : GenerateInput) (effects : List Effect) :
    let usage := (UsageManager.recordGeneration w.usage statePath (toUsagePolicy r.config)
      (r.engine.generate prompt input.llama).pieces.length input.recordNow input.recordSave).1
    (r.generateAdmitted w prompt input effects).effects =
        effects ++ (r.engine.generate prompt input.llama).calls.map .llama ++
          [.recordGeneration input.recordNow usage] ∧
      (r.generateAdmitted w prompt input effects).world.usage = usage := by
  unfold generateAdmitted
  rw [hmanager]
  exact ⟨rfl, rfl⟩

theorem generate_managed {r : Runtime} {statePath : Path} (hready : r.isReady = true)
    (hmanager : r.usageManager = some statePath) (w : World) (prompt : Bytes)
    (input : GenerateInput) :
    let check := UsageManager.checkAdmission w.usage statePath (toUsagePolicy r.config)
      input.admissionNow input.admissionSave
    r.generate w prompt input =
      if ¬check.2.allowed then
        { runtime := { r with lastError := .quotaExceeded }, world := { w with usage := check.1 }
          message := text "ERROR: Usage quota check failed.\n\n" ++ check.2.diagnostic
          effects := [.checkAdmission input.admissionNow check.1] }
      else generateAdmitted r { w with usage := check.1 } prompt input
        [.checkAdmission input.admissionNow check.1] := by
  unfold generate
  rw [if_neg (not_not_intro hready), hmanager]

/-- The transactions of a generation: none where the runtime is not ready, the admission check
where that refuses, and otherwise the check and, after the engine, the record. -/
theorem generate_transactions {r : Runtime} {statePath : Path}
    (hmanager : r.isReady = true → r.usageManager = some statePath) (w : World) (prompt : Bytes)
    (input : GenerateInput) :
    let check := UsageManager.checkAdmission w.usage statePath (toUsagePolicy r.config)
      input.admissionNow input.admissionSave
    let generated := r.engine.generate prompt input.llama
    let usage := (UsageManager.recordGeneration check.1 statePath (toUsagePolicy r.config)
      generated.pieces.length input.recordNow input.recordSave).1
    let result := r.generate w prompt input
    (¬r.isReady = true ∧ result.effects = [] ∧ result.world.usage = w.usage) ∨
      (r.isReady = true ∧ ¬check.2.allowed = true ∧
        result.effects = [.checkAdmission input.admissionNow check.1] ∧
        result.world.usage = check.1) ∨
      r.isReady = true ∧ check.2.allowed = true ∧
        result.effects = [.checkAdmission input.admissionNow check.1] ++
          generated.calls.map .llama ++ [.recordGeneration input.recordNow usage] ∧
        result.world.usage = usage := by
  intro check generated usage result
  by_cases hready : r.isReady = true
  case neg =>
    have hresult : result = _ := if_pos hready
    rw [hresult]
    exact .inl ⟨hready, rfl, rfl⟩
  right
  have hresult : result = _ := generate_managed hready (hmanager hready) w prompt input
  by_cases hallowed : check.2.allowed = true
  · rw [if_neg (not_not_intro hallowed)] at hresult
    obtain ⟨heffects, husage⟩ := generateAdmitted_record (hmanager hready)
      { w with usage := check.1 } prompt input [.checkAdmission input.admissionNow check.1]
    exact .inr ⟨hready, hallowed, hresult ▸ heffects, hresult ▸ husage⟩
  · rw [if_pos hallowed] at hresult
    rw [hresult]
    exact .inl ⟨hready, hallowed, rfl, rfl⟩

theorem generate_runtime (r : Runtime) (w : World) (prompt : Bytes) (input : GenerateInput) :
    ∃ engine lastError, (r.generate w prompt input).runtime = { r with engine, lastError } ∧
      engine.isLoaded = r.engine.isLoaded ∧ engine.config = r.engine.config := by
  have hframe := r.engine.generate_frame prompt input.llama
  unfold generate
  split
  · exact ⟨_, _, rfl, rfl, rfl⟩
  · split
    · exact ⟨_, _, generateAdmitted_runtime r w prompt input [], hframe.1, hframe.2.1⟩
    · dsimp only
      split
      · exact ⟨_, _, rfl, rfl, rfl⟩
      · exact ⟨_, _, generateAdmitted_runtime r _ prompt input _, hframe.1, hframe.2.1⟩

private theorem generateAdmitted_calls (r : Runtime) (w : World) (prompt : Bytes)
    (input : GenerateInput) {effects : List Effect} {p : Path} {model : Option Handle}
    (h : .llama (.modelLoadFromFile p model) ∉ effects) :
    .llama (.modelLoadFromFile p model) ∉ (r.generateAdmitted w prompt input effects).effects := by
  have hcalls := r.engine.generate_calls prompt input.llama p model
  unfold generateAdmitted
  dsimp only
  split <;> simp [h, hcalls]

theorem generate_calls (r : Runtime) (w : World) (prompt : Bytes) (input : GenerateInput)
    (p : Path) (model : Option Handle) :
    .llama (.modelLoadFromFile p model) ∉ (r.generate w prompt input).effects := by
  unfold generate
  split
  · simp
  · split
    · exact generateAdmitted_calls r w prompt input (by simp)
    · dsimp only
      split
      · simp
      · exact generateAdmitted_calls _ _ prompt input (by simp)

/-- One small model file, no registry and no usage state yet. -/
def sampleWorld : World where
  models := fun p => if p = text "m.gguf" then .file (headerOnly 0) true else .absent
  registry := fun _ => .absent
  usage := fun _ => .absent

def sampleConfig : RuntimeConfig := { modelPath := text "m.gguf" }

/-- Every save succeeds and the library loads a model that fits the budget. -/
def sampleInput : LoadInput where
  admissionNow := 1000
  admissionSave := .ok
  sessionNow := 1000
  sessionSave := .ok
  importNow := 1000
  registrySave := .ok
  llama := {
    model := some {
      hyperparams := { nLayer := 1, nEmbd := 64, nHead := 1, nHeadKv := 1 }
      sizeBytes := 24 }
    context := some 1024 }

end Runtime

end EdgeMind
