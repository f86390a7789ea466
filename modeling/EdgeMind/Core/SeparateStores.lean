import EdgeMind.Core.OneDisk
import EdgeMind.Core.UsageRuns

/-!
# Stores with files of their own

Where the usage state and the registry have no file in common and no model is loaded from a file of
theirs, the stores do not notice one another. A run on one file system then goes as on three, which is
how the runtime is followed everywhere else.
-/

namespace EdgeMind

open Framework

namespace OneDisk

open EdgeMind.Runtime

variable {usagePath registryPath : Path}

def Apart (usagePath registryPath : Path) : Prop :=
  ∀ p ∈ storeFiles usagePath, p ∉ storeFiles registryPath

/-- Each store finds its own files on the one file system, and the models are what is left. -/
structure Agrees (usagePath registryPath : Path) (w : World) (files : FileSystem) : Prop where
  usage : ∀ p ∈ storeFiles usagePath, w.usage p = files p
  registry : ∀ p ∈ storeFiles registryPath, w.registry p = files p
  models : ∀ p, p ∉ storeFiles usagePath → p ∉ storeFiles registryPath → w.models p = files p

section Writes

variable {α : Type} {w : World} {files : FileSystem} {f : FileSystem → FileSystem × α}

theorem Agrees.writeUsage (h : Agrees usagePath registryPath w files)
    (hapart : Apart usagePath registryPath) (hf : LocalTo usagePath f) :
    Agrees usagePath registryPath { w with usage := (f w.usage).1 } (f files).1 where
  usage := hf.own w.usage files h.usage
  registry p hp := by
    rw [hf.other files p fun husage => hapart p husage hp]
    exact h.registry p hp
  models p husage hregistry := by
    rw [hf.other files p husage]
    exact h.models p husage hregistry

theorem Agrees.writeRegistry (h : Agrees usagePath registryPath w files)
    (hapart : Apart usagePath registryPath) (hf : LocalTo registryPath f) :
    Agrees usagePath registryPath { w with registry := (f w.registry).1 } (f files).1 where
  usage p hp := by
    rw [hf.other files p (hapart p hp)]
    exact h.usage p hp
  registry := hf.own w.registry files h.registry
  models p husage hregistry := by
    rw [hf.other files p hregistry]
    exact h.models p husage hregistry

end Writes

/-- A call that works on the two stores, and loads a model from another file. -/
def OnStores (usagePath registryPath : Path) (w : World) : Call → Prop
  | .load config _ => config.usageStatePath = usagePath ∧ config.modelRegistryPath = registryPath ∧
      ((resolution w config).status = .resolved →
        (resolution w config).resolvedPath ∉ storeFiles usagePath ∧
          (resolution w config).resolvedPath ∉ storeFiles registryPath)
  | _ => True

/-- The same is done, a usage transaction leaving the same usage state. -/
inductive SameEffect (usagePath : Path) : Effect → Effect → Prop
  | checkAdmission (now : Int) {usage usage' : FileSystem}
      (h : ∀ p ∈ storeFiles usagePath, usage p = usage' p) :
      SameEffect usagePath (.checkAdmission now usage) (.checkAdmission now usage')
  | sessionStart (now : Int) {usage usage' : FileSystem}
      (h : ∀ p ∈ storeFiles usagePath, usage p = usage' p) :
      SameEffect usagePath (.sessionStart now usage) (.sessionStart now usage')
  | recordGeneration (now : Int) {usage usage' : FileSystem}
      (h : ∀ p ∈ storeFiles usagePath, usage p = usage' p) :
      SameEffect usagePath (.recordGeneration now usage) (.recordGeneration now usage')
  | importModel (p : Path) : SameEffect usagePath (.importModel p) (.importModel p)
  | engineLoad (p : Path) : SameEffect usagePath (.engineLoad p) (.engineLoad p)
  | llama (call : LlamaCall) : SameEffect usagePath (.llama call) (.llama call)

abbrev SameEffects (usagePath : Path) : List Effect → List Effect → Prop :=
  List.Forall₂ (SameEffect usagePath)

theorem sameEffects_llama (calls : List LlamaCall) :
    SameEffects usagePath (calls.map .llama) (calls.map .llama) := by
  induction calls with
  | nil => exact .nil
  | cons call calls ih => exact .cons (.llama call) ih

theorem SameEffects.append {l l' more more' : List Effect} (h : SameEffects usagePath l l')
    (hmore : SameEffects usagePath more more') : SameEffects usagePath (l ++ more) (l' ++ more') :=
  List.rel_append h hmore

/-- The two results tell the same, and their files agree. -/
structure SameResult (usagePath registryPath : Path) (result oneDisk : CallResult) : Prop where
  runtime : oneDisk.runtime = result.runtime
  message : oneDisk.message = result.message
  effects : SameEffects usagePath result.effects oneDisk.effects
  files : Agrees usagePath registryPath result.world oneDisk.world.models

theorem engineLoad_congr (e : InferenceEngine) {models models' : FileSystem} {config : RuntimeConfig}
    (h : models config.modelPath = models' config.modelPath) (llama : LlamaLoad) :
    e.load models config llama = e.load models' config llama := by
  unfold InferenceEngine.load
  rw [h]

theorem loadEngine_same {w : World} {files : FileSystem} {config : RuntimeConfig}
    (h : Agrees usagePath registryPath w files)
    (hmodel : w.models config.modelPath = files config.modelPath) (r : Runtime) (input : LoadInput)
    {effects effects' : List Effect} (heffects : SameEffects usagePath effects effects') :
    SameResult usagePath registryPath (r.loadEngine w config input effects)
      (r.loadEngine (world files) config input effects') := by
  have hload : r.engine.load (world files).models config input.llama =
      r.engine.load w.models config input.llama := engineLoad_congr r.engine hmodel.symm input.llama
  refine ⟨?_, ?_, ?_, ?_⟩
  · unfold loadEngine
    rw [hload]
    dsimp only
    split <;> rfl
  · unfold loadEngine
    rw [hload]
    dsimp only
    split <;> rfl
  · rw [loadEngine_effects, loadEngine_effects, hload]
    exact heffects.append (.cons (.engineLoad _) (sameEffects_llama _))
  · rw [loadEngine_world, loadEngine_world]
    exact h

theorem resolution_congr {w w' : World} {config : RuntimeConfig}
    (h : w.registry config.modelRegistryPath = w'.registry config.modelRegistryPath) :
    resolution w config = resolution w' config := by
  unfold resolution resolveModelPath
  rw [ModelRegistry.load_congr h]

/-- A model that is none of the store files is imported alike. -/
theorem importStage_same {w v : World} {config : RuntimeConfig} {input : LoadInput}
    (h : Agrees usagePath config.modelRegistryPath w v.registry)
    (hapart : Apart usagePath config.modelRegistryPath) (hsame : v.models = v.registry)
    (hresolution : resolution v config = resolution w config)
    (husage : (resolution w config).resolvedPath ∉ storeFiles usagePath)
    (hregistry : (resolution w config).resolvedPath ∉ storeFiles config.modelRegistryPath) :
    (importStage v config input).result = (importStage w config input).result ∧
      Agrees usagePath config.modelRegistryPath
        { w with registry := (importStage w config input).registry }
        (importStage v config input).registry := by
  have hfile : v.models (resolution w config).resolvedPath =
      w.models (resolution w config).resolvedPath := by
    rw [hsame, h.models _ husage hregistry]
  have himport := ModelRegistry.importModel_local w.models config.modelRegistryPath
    (resolution w config).resolvedPath config.expectedModelChecksumSha256 input.importNow
    input.registrySave
  have himported : importStage v config input =
      ModelRegistry.importModel w.models v.registry config.modelRegistryPath
        (resolution w config).resolvedPath config.expectedModelChecksumSha256 input.importNow
        input.registrySave := by
    unfold importStage
    rw [hresolution]
    exact ModelRegistry.importModel_congr hfile _ _ _ _ _
  rw [himported]
  exact ⟨(himport.result w.registry v.registry h.registry).symm, h.writeRegistry hapart himport⟩

theorem load_same {w : World} {files : FileSystem} {config : RuntimeConfig}
    (h : Agrees config.usageStatePath config.modelRegistryPath w files)
    (hapart : Apart config.usageStatePath config.modelRegistryPath) (r : Runtime) (input : LoadInput)
    (hmodel : (resolution w config).status = .resolved →
      (resolution w config).resolvedPath ∉ storeFiles config.usageStatePath ∧
        (resolution w config).resolvedPath ∉ storeFiles config.modelRegistryPath) :
    SameResult config.usageStatePath config.modelRegistryPath (r.load w config input)
      (load r files config input) := by
  let v := found files config input
  have hcheck := UsageManager.checkAdmission_local config.usageStatePath (toUsagePolicy config)
    input.admissionNow input.admissionSave
  have hstart := UsageManager.sessionStart_local config.usageStatePath input.sessionNow
    input.sessionSave
  -- The usage state is written on both sides alike.
  have hdecision : (quotaStage v config input).2 = (quotaStage w config input).2 :=
    (hcheck.result w.usage files h.usage).symm
  have hchecked : Agrees config.usageStatePath config.modelRegistryPath
      { w with usage := (quotaStage w config input).1 } (quotaStage v config input).1 :=
    h.writeUsage hapart hcheck
  have hstarted : Agrees config.usageStatePath config.modelRegistryPath
      { w with usage := sessionStage w config input } v.registry :=
    hchecked.writeUsage hapart hstart
  have heffects : SameEffects config.usageStatePath (sessionEffects w config input)
      (sessionEffects v config input) :=
    .cons (.checkAdmission _ hchecked.usage) (.cons (.sessionStart _ hstarted.usage) .nil)
  have hresolution : resolution v config = resolution w config :=
    resolution_congr (hstarted.registry _ List.mem_cons_self).symm
  have hnames : SameEffects config.usageStatePath
      (sessionEffects w config input ++ [.importModel (resolution w config).resolvedPath])
      (sessionEffects v config input ++ [.importModel (resolution v config).resolvedPath]) := by
    rw [hresolution]
    exact heffects.append (.cons (.importModel _) .nil)
  have hcase := Runtime.load_case r w config input
  have hcase' := load_case r files config input
  generalize r.load w config input = result at hcase
  generalize load r files config input = oneDisk at hcase'
  change LoadCase r files config input v oneDisk at hcase'
  cases hcase with
  | invalid hconfig =>
      cases hcase' with
      | invalid => exact ⟨rfl, rfl, .nil, h⟩
      | _ => contradiction
  | denied hconfig hquota =>
      rw [← hdecision] at hquota
      cases hcase' with
      | denied =>
          exact ⟨rfl, by rw [hdecision], .cons (.checkAdmission _ hchecked.usage) .nil, hchecked⟩
      | _ => contradiction
  | unresolved hconfig hquota hunresolved =>
      rw [← hdecision] at hquota
      rw [← hresolution] at hunresolved
      cases hcase' with
      | unresolved => exact ⟨rfl, by rw [hresolution], heffects, hstarted⟩
      | _ => contradiction
  | rejected hconfig hquota hresolved hverification =>
      obtain ⟨husage, hregistry⟩ := hmodel hresolved
      obtain ⟨hresult, hsaved⟩ :=
        importStage_same hstarted hapart rfl hresolution husage hregistry
      rw [← hdecision] at hquota
      rw [← hresolution] at hresolved
      change _ = (importStage w config input).result at hresult
      rw [← hresult] at hverification
      cases hcase' with
      | rejected => exact ⟨by rw [hresult], by rw [hresult], hnames, hsaved⟩
      | _ => contradiction
  | engine hconfig hquota hresolved hverification =>
      obtain ⟨husage, hregistry⟩ := hmodel hresolved
      obtain ⟨hresult, hsaved⟩ :=
        importStage_same hstarted hapart rfl hresolution husage hregistry
      have hmodelPath : resolvedConfig v config = resolvedConfig w config := by
        rw [resolvedConfig, resolvedConfig, hresolution]
      rw [← hdecision] at hquota
      rw [← hresolution] at hresolved
      change _ = (importStage w config input).result at hresult
      rw [← hresult] at hverification
      cases hcase' with
      | engine =>
          rw [hmodelPath, hresult]
          exact loadEngine_same hsaved (hsaved.models _ husage hregistry) _ input hnames
      | _ => contradiction

section Generate

variable {w v : World} {r : Runtime}

theorem generateAdmitted_same (h : Agrees usagePath registryPath w v.usage)
    (hapart : Apart usagePath registryPath)
    (hmanager : ∀ p, r.usageManager = some p → p = usagePath) (prompt : Bytes)
    (input : GenerateInput) {effects effects' : List Effect}
    (heffects : SameEffects usagePath effects effects') :
    let result := r.generateAdmitted v prompt input effects'
    SameResult usagePath registryPath (r.generateAdmitted w prompt input effects)
      { result with world := world result.world.usage } := by
  have hcalls := heffects.append
    (sameEffects_llama (r.engine.generate prompt input.llama).calls)
  unfold generateAdmitted
  dsimp only
  cases hpath : r.usageManager with
  | none => exact ⟨rfl, rfl, hcalls, h⟩
  | some statePath =>
      obtain rfl := hmanager statePath hpath
      have hrecorded := h.writeUsage hapart (UsageManager.recordGeneration_local statePath
        (toUsagePolicy r.config) (r.engine.generate prompt input.llama).pieces.length input.recordNow
        input.recordSave)
      exact ⟨rfl, rfl, hcalls.append (.cons (.recordGeneration _ hrecorded.usage) .nil), hrecorded⟩

theorem generate_same (h : Agrees usagePath registryPath w v.usage)
    (hapart : Apart usagePath registryPath)
    (hmanager : ∀ p, r.usageManager = some p → p = usagePath) (prompt : Bytes)
    (input : GenerateInput) :
    let result := r.generate v prompt input
    SameResult usagePath registryPath (r.generate w prompt input)
      { result with world := world result.world.usage } := by
  unfold generate
  dsimp only
  by_cases hready : r.isReady = true
  case neg =>
    rw [if_pos hready, if_pos hready]
    exact ⟨rfl, rfl, .nil, h⟩
  rw [if_neg (not_not_intro hready), if_neg (not_not_intro hready)]
  cases hpath : r.usageManager with
  | none => exact generateAdmitted_same h hapart hmanager prompt input .nil
  | some statePath =>
      obtain rfl := hmanager statePath hpath
      have hcheck := UsageManager.checkAdmission_local statePath (toUsagePolicy r.config)
        input.admissionNow input.admissionSave
      have hdecision := hcheck.result w.usage v.usage h.usage
      have hchecked := h.writeUsage hapart hcheck
      dsimp only at hdecision hchecked ⊢
      generalize UsageManager.checkAdmission w.usage statePath (toUsagePolicy r.config)
        input.admissionNow input.admissionSave = checked at hdecision hchecked ⊢
      generalize UsageManager.checkAdmission v.usage statePath (toUsagePolicy r.config)
        input.admissionNow input.admissionSave = checked' at hdecision hchecked ⊢
      have heffects : SameEffects statePath [.checkAdmission input.admissionNow checked.1]
          [.checkAdmission input.admissionNow checked'.1] :=
        .cons (.checkAdmission _ hchecked.usage) .nil
      rw [hdecision]
      by_cases hallowed : checked'.2.allowed = true
      · rw [if_neg (not_not_intro hallowed), if_neg (not_not_intro hallowed)]
        exact generateAdmitted_same hchecked hapart hmanager prompt input heffects
      · rw [if_pos hallowed, if_pos hallowed]
        exact ⟨rfl, rfl, heffects, hchecked⟩

end Generate

theorem loadEngine_usageManager (r : Runtime) (w : World) (config : RuntimeConfig)
    (input : LoadInput) (effects : List Effect) :
    (r.loadEngine w config input effects).runtime.usageManager = r.usageManager := by
  unfold loadEngine
  dsimp only
  split <;> rfl

/-- The manager of a runtime has the state path of the last load that got past the validation. -/
theorem call_usageManager {w : World} {r : Runtime} {c : Call}
    (hmanager : ∀ p, r.usageManager = some p → p = usagePath)
    (hc : OnStores usagePath registryPath w c) :
    ∀ p, (r.call w c).runtime.usageManager = some p → p = usagePath := by
  cases c with
  | load config input =>
      obtain ⟨rfl, rfl, -⟩ := hc
      have hopened (p : Path) (h : (opened r config).usageManager = some p) :
          p = config.usageStatePath := (Option.some.inj h).symm
      have hcase := Runtime.load_case r w config input
      change ∀ p, (r.load w config input).runtime.usageManager = some p → _
      generalize r.load w config input = result at hcase
      cases hcase with
      | invalid => exact hmanager
      | denied | unresolved | rejected => exact hopened
      | engine =>
          rw [loadEngine_usageManager]
          exact hopened
  | unload | resetContext => exact hmanager
  | generate prompt input =>
      have hkeeps : (r.generate w prompt input).runtime.usageManager = r.usageManager := by
        unfold generate generateAdmitted
        dsimp only
        repeat' split
        all_goals rfl
      exact fun p h => hmanager p (hkeeps ▸ h)

theorem call_same {w : World} {files : FileSystem} {r : Runtime} {c : Call}
    (h : Agrees usagePath registryPath w files) (hapart : Apart usagePath registryPath)
    (hmanager : ∀ p, r.usageManager = some p → p = usagePath)
    (hc : OnStores usagePath registryPath w c) :
    SameResult usagePath registryPath (r.call w c) (call r files c) := by
  cases c with
  | load config input =>
      obtain ⟨rfl, rfl, hmodel⟩ := hc
      exact load_same h hapart r input hmodel
  | unload | resetContext => exact ⟨rfl, rfl, sameEffects_llama _, h⟩
  | generate prompt input => exact generate_same h hapart hmanager prompt input

/-- A call on separate file systems, which stay as it leaves them. -/
def splitStep (s : Runtime × World) (c : Call) : (Runtime × World) × CallResult :=
  let result := s.1.call s.2 c
  ((result.runtime, result.world), result)

/-- A call on one file system, which stays as it leaves it. -/
def diskStep (s : Runtime × FileSystem) (c : Call) : (Runtime × FileSystem) × CallResult :=
  let result := call s.1 s.2 c
  ((result.runtime, result.world.models), result)

/-- Where the two stores have files of their own, every call of a run on one file system tells and does
what it does on separate ones. -/
theorem run_same (files : FileSystem) (hapart : Apart usagePath registryPath) {calls : List Call}
    (hcalls : ∀ e ∈ trace splitStep ({}, world files) calls,
      OnStores usagePath registryPath e.before.2 e.input) :
    List.Forall₂ (fun e e' => e.input = e'.input ∧ e'.before.1 = e.before.1 ∧
        SameResult usagePath registryPath e.output e'.output)
      (trace splitStep ({}, world files) calls) (trace diskStep ({}, files) calls) := by
  let Same (s : Runtime × World) (s' : Runtime × FileSystem) : Prop :=
    s'.1 = s.1 ∧ (∀ p, s.1.usageManager = some p → p = usagePath) ∧
      Agrees usagePath registryPath s.2 s'.2
  have hstep (s : Runtime × World) (s' : Runtime × FileSystem) (c : Call) (h : Same s s')
      (hc : OnStores usagePath registryPath s.2 c) :
      Same (splitStep s c).1 (diskStep s' c).1 ∧
        SameResult usagePath registryPath (splitStep s c).2 (diskStep s' c).2 := by
    obtain ⟨r, w⟩ := s
    obtain ⟨r', files⟩ := s'
    obtain ⟨hruntime, hmanager, hfiles⟩ := h
    obtain rfl : r' = r := hruntime
    have hsame := call_same hfiles hapart hmanager hc
    exact ⟨⟨hsame.runtime, call_usageManager hmanager hc, hsame.files⟩, hsame⟩
  have hstart : Same ({}, world files) ({}, files) :=
    ⟨rfl, nofun, ⟨fun _ _ => rfl, fun _ _ => rfl, fun _ _ _ => rfl⟩⟩
  refine (trace_simulates Same _ _ hstep hstart hcalls).imp fun e e' h => ?_
  exact ⟨h.1, h.2.1.1, h.2.2⟩

theorem run_same_sample :
    let calls : List Call :=
      [.load sampleConfig sampleInput, .generate [] UsageRun.sampleGenerate, .unload]
    List.Forall₂ (fun e e' => e.input = e'.input ∧ e'.before.1 = e.before.1 ∧
        SameResult sampleConfig.usageStatePath sampleConfig.modelRegistryPath e.output e'.output)
      (trace splitStep ({}, world sampleFiles) calls) (trace diskStep ({}, sampleFiles) calls) := by
  intro calls
  have hapart : Apart sampleConfig.usageStatePath sampleConfig.modelRegistryPath := by
    have hall : ((storeFiles sampleConfig.usageStatePath).all fun p =>
        !(storeFiles sampleConfig.modelRegistryPath).contains p) = true := by decide +kernel
    intro p hp hmem
    have hno := List.all_eq_true.mp hall p hp
    rw [List.contains_iff_mem.mpr hmem] at hno
    cases hno
  refine run_same sampleFiles hapart fun e he => ?_
  simp only [calls, trace, List.mem_cons, List.not_mem_nil, or_false] at he
  rcases he with rfl | rfl | rfl
  · exact ⟨rfl, rfl, fun _ => ⟨by decide +kernel, by decide +kernel⟩⟩
  · trivial
  · trivial

end OneDisk

end EdgeMind
