import EdgeMind.Inference.Budget
import EdgeMind.Inference.Engine
import EdgeMind.Inference.Estimates

/-!
# Memory admission is exact

The checked products and the saturating sum of the estimates are those of the unbounded naturals
wherever the hyperparameters are in range, so that the engine goes on to create a context exactly if
the estimate fits under the ceiling.
-/

namespace EdgeMind

open Framework RuntimeConfig

namespace MemoryEstimator

/-- A context size that a configuration may have. -/
def ContextRange (nCtx : Int32) : Prop := 1 ≤ nCtx.toInt ∧ nCtx.toInt ≤ 8192

/-- Bytes of the key and value cache, over the naturals. -/
def kvCacheBytes (hp : ModelHyperparams) (nCtx : Int32) : Nat :=
  4 * hp.nLayer.toInt.toNat * nCtx.toInt.toNat *
    (hp.nEmbd.toInt.toNat * hp.nHeadKv.toInt.toNat / hp.nHead.toInt.toNat)

/-- Bytes of the compute buffer, over the naturals. -/
def computeBufferBytes (hp : ModelHyperparams) (nCtx : Int32) : Nat :=
  16 * nCtx.toInt.toNat * hp.nEmbd.toInt.toNat

theorem estimateKvCacheBytes_eq {hp : ModelHyperparams} {nCtx : Int32} (h : SaneRange hp)
    (hctx : ContextRange nCtx) :
    ∃ bytes, estimateKvCacheBytes hp nCtx 2 = some bytes ∧ bytes.toNat = kvCacheBytes hp nCtx := by
  obtain ⟨hpos, hmax⟩ := hctx
  have hrange : KvRange hp nCtx 2 := ⟨h, ⟨hpos, by omega⟩, by decide⟩
  obtain ⟨hsome, hlt⟩ := estimateKvCacheBytesBy_eq multipliesFitting_checkedMul hrange
  refine ⟨_, hsome, ?_⟩
  have htwo : (2 : Int32).toInt.toNat = 2 := by decide
  rw [UInt64.toNat_ofNat_of_lt' hlt, kvFormula, kvCacheBytes, htwo]
  ring

theorem estimateComputeBufferBytes_eq {hp : ModelHyperparams} {nCtx : Int32} (h : SaneRange hp)
    (hctx : ContextRange nCtx) :
    ∃ bytes, estimateComputeBufferBytes hp nCtx = some bytes ∧
      bytes.toNat = computeBufferBytes hp nCtx := by
  obtain ⟨hpos, hmax⟩ := hctx
  have hrange : BatchRange hp nCtx := ⟨h, hpos, by omega⟩
  obtain ⟨hsome, hlt⟩ := estimateComputeBufferBytesBy_eq multipliesFitting_checkedMul hrange
  exact ⟨_, hsome, UInt64.toNat_ofNat_of_lt' hlt⟩

theorem estimateKvCacheBytes_none {hp : ModelHyperparams} (h : ¬SaneRange hp) (nCtx : Int32) :
    estimateKvCacheBytes hp nCtx 2 = none :=
  estimateKvCacheBytesBy_none fun hrange => h hrange.hyperparams

end MemoryEstimator

namespace InferenceEngine

open MemoryEstimator

/-- What a model needs under a configuration, over the naturals. -/
def requiredBytes (model : LlamaModel) (config : RuntimeConfig) : Nat :=
  model.sizeBytes.toNat + kvCacheBytes model.hyperparams config.contextSize +
    computeBufferBytes model.hyperparams config.contextSize + 180 * 2 ^ 20

def ceilingBytes (config : RuntimeConfig) : Nat :=
  (config.memoryBudgetMb.toInt - config.safetyReserveMb.toInt).toNat * 2 ^ 20

theorem megabytes_toNat {x : Int64} (h : 0 ≤ x.toInt) (hmax : x.toInt ≤ 131072) :
    (x.toUInt64 * 1024 * 1024).toNat = x.toInt.toNat * 2 ^ 20 := by
  have hle : 0 ≤ x := Int64.le_iff_toInt_le.mpr h
  have hx : x.toUInt64.toNat = x.toInt.toNat := Int64.toNat_toUInt64_of_le hle
  have hk : (1024 : UInt64).toNat = 1024 := by decide
  rw [UInt64.toNat_mul, UInt64.toNat_mul, hx, hk]
  omega

theorem ceiling_toNat {config : RuntimeConfig} (h : ValidConfig config) :
    let budget := config.memoryBudgetMb.toUInt64 * 1024 * 1024
    let reserve := config.safetyReserveMb.toUInt64 * 1024 * 1024
    reserve < budget ∧ (budget - reserve).toNat = ceilingBytes config ∧ 0 < ceilingBytes config ∧
      ceilingBytes config < 2 ^ 64 - 1 := by
  intro budget reserve
  have hreserve := Int64.le_iff_toInt_le.mp h.reserve_nonneg
  have hlt := Int64.lt_iff_toInt_lt.mp h.reserve_lt
  have hmax := Int64.le_iff_toInt_le.mp h.budget_le
  have hsane : maxMemoryBudgetMb.toInt = 131072 := by decide
  rw [hsane] at hmax
  rw [Int64.toInt_zero] at hreserve
  have hB : budget.toNat = _ := megabytes_toNat (by omega) hmax
  have hR : reserve.toNat = _ := megabytes_toNat hreserve (by omega)
  have hfits : reserve < budget := by
    rw [UInt64.lt_iff_toNat_lt, hB, hR]
    omega
  have hle : reserve ≤ budget := UInt64.le_of_lt hfits
  have hceiling : ceilingBytes config =
    (config.memoryBudgetMb.toInt - config.safetyReserveMb.toInt).toNat * 2 ^ 20 := rfl
  refine ⟨hfits, ?_, ?_, ?_⟩
  · rw [UInt64.toNat_sub_of_le _ _ hle, hB, hR, hceiling]
    omega
  · omega
  · omega

theorem contextRange_of_valid {config : RuntimeConfig} (h : ValidConfig config) :
    ContextRange config.contextSize := by
  have hge := Int32.le_iff_toInt_le.mp h.context_ge
  have hle := Int32.le_iff_toInt_le.mp h.context_le
  have hmin : minContext.toInt = 16 := by decide
  have hmax : maxContext.toInt = 8192 := by decide
  exact ⟨by omega, by omega⟩

theorem memoryDecision_safe_iff {config : RuntimeConfig} (h : ValidConfig config)
    (model : LlamaModel) :
    (memoryDecision model config).safe = true ↔
      SaneRange model.hyperparams ∧ requiredBytes model config ≤ ceilingBytes config := by
  obtain ⟨hfits, hceiling, hpos, hmax⟩ := ceiling_toNat h
  have hctx := contextRange_of_valid h
  unfold memoryDecision MemoryBudgetPolicy.evaluate
  dsimp only
  rw [if_pos hfits]
  have hceilingPos : config.memoryBudgetMb.toUInt64 * 1024 * 1024 -
      config.safetyReserveMb.toUInt64 * 1024 * 1024 > 0 := by
    rw [gt_iff_lt, UInt64.lt_iff_toNat_lt, hceiling]
    exact hpos
  by_cases hsane : SaneRange model.hyperparams
  · obtain ⟨kv, hkv, hkvNat⟩ := estimateKvCacheBytes_eq hsane hctx
    obtain ⟨compute, hcompute, hcomputeNat⟩ := estimateComputeBufferBytes_eq hsane hctx
    have hoverhead : (180 * 1024 * 1024 : UInt64).toNat = 180 * 2 ^ 20 := by decide
    have htotal (e : MemoryEstimate) := e.totalBytes_le_iff (hceiling ▸ hmax)
    simp [estimateFor, hkv, hcompute, hceilingPos, htotal, hkvNat, hcomputeNat, hceiling, hsane,
      requiredBytes]
  · simp [estimateFor, estimateKvCacheBytes_none hsane, hsane]

theorem unload_initFromModel (e : InferenceEngine) (model : Handle) (ctx : Option Handle) :
    .initFromModel model ctx ∉ e.unload.2 := by
  cases hctx : e.ctx <;> cases hmodel : e.model <;> simp [unload, hctx, hmodel]

/-- What a load does once the library has handed out a model: create a context if the decision is
safe, and otherwise release the model. -/
theorem load_admission (e : InferenceEngine) (models : FileSystem) (config : RuntimeConfig)
    (llama : LlamaLoad) {model : LlamaModel} (hopen : (models config.modelPath).open ≠ none)
    (hmodel : llama.model = some model) :
    ((∃ m ctx, .initFromModel m ctx ∈ (e.load models config llama).calls) ↔
        (memoryDecision model config).safe = true) ∧
      ((memoryDecision model config).safe = false →
        (e.load models config llama).error = .memoryBudgetExceeded ∧
        (e.load models config llama).engine.model = none ∧
        (e.load models config llama).engine.ctx = none ∧
        ∃ before m, (e.load models config llama).calls =
          before ++ [.modelLoadFromFile config.modelPath (some m), .modelFree m]) := by
  have hunload := unload_initFromModel e
  have hinit (m : Handle) (ctx : Option Handle) : .initFromModel m ctx ∉ e.initCalls := by
    unfold initCalls
    split <;> simp
  have hexit := load_exit e models config llama
  generalize e.load models config llama = result at hexit
  cases hexit with
  | missing hmissing => exact absurd hmissing hopen
  | noModel _ hnone => exact absurd (hnone.symm.trans hmodel) nofun
  | unsafeModel _ hsome hsafe =>
      cases hsome.symm.trans hmodel
      refine ⟨iff_of_false ?_ (by rw [hsafe]; decide), fun _ => ⟨rfl, rfl, rfl, _, _, rfl⟩⟩
      simp [hunload, hinit]
  | noContext _ hsome hsafe hcontext =>
      cases hsome.symm.trans hmodel
      refine ⟨iff_of_true ⟨e.nextHandle, none, ?_⟩ hsafe, fun h => absurd hsafe (by rw [h]; decide)⟩
      simp
  | loaded _ hsome hsafe hcontext =>
      cases hsome.symm.trans hmodel
      refine ⟨iff_of_true ⟨e.nextHandle, some (e.nextHandle + 1), ?_⟩ hsafe,
        fun h => absurd hsafe (by rw [h]; decide)⟩
      simp

/-- Under an accepted configuration a loaded model is admitted exactly if its hyperparameters are in
range and what it needs, over the naturals, is at most what the budget leaves; otherwise the model
is released again. -/
theorem admission_exact (e : InferenceEngine) (models : FileSystem) {config : RuntimeConfig}
    (modelPath : Path) (llama : LlamaLoad) {model : LlamaModel}
    (hconfig : validateConfig config = []) (hopen : (models modelPath).open ≠ none)
    (hmodel : llama.model = some model) :
    let loaded := e.load models { config with modelPath } llama
    let nLayer := model.hyperparams.nLayer.toInt
    let nEmbd := model.hyperparams.nEmbd.toInt
    let nHead := model.hyperparams.nHead.toInt
    let nHeadKv := model.hyperparams.nHeadKv.toInt
    let contextSize := config.contextSize.toInt.toNat
    let admitted := (1 ≤ nLayer ∧ nLayer ≤ 2048) ∧ (1 ≤ nEmbd ∧ nEmbd ≤ 2 ^ 20) ∧
      (1 ≤ nHead ∧ nHead ≤ 4096) ∧ (1 ≤ nHeadKv ∧ nHeadKv ≤ nHead) ∧
      model.sizeBytes.toNat +
          4 * nLayer.toNat * contextSize * (nEmbd.toNat * nHeadKv.toNat / nHead.toNat) +
          16 * contextSize * nEmbd.toNat + 180 * 2 ^ 20 ≤
        (config.memoryBudgetMb.toInt - config.safetyReserveMb.toInt).toNat * 2 ^ 20
    ((∃ m ctx, .initFromModel m ctx ∈ loaded.calls) ↔ admitted) ∧
      (¬admitted → loaded.error = .memoryBudgetExceeded ∧ loaded.engine.model = none ∧
        loaded.engine.ctx = none ∧ ∃ before m,
          loaded.calls = before ++ [.modelLoadFromFile modelPath (some m), .modelFree m]) := by
  intro loaded nLayer nEmbd nHead nHeadKv contextSize admitted
  have hsafe := memoryDecision_safe_iff (validConfig_of_validateConfig hconfig) model
  have hadmitted : (memoryDecision model { config with modelPath }).safe = true ↔ admitted := by
    refine Iff.trans hsafe ⟨fun h => ?_, fun h => ?_⟩
    · exact ⟨h.1.layers, h.1.embd, h.1.heads, h.1.headsKv, h.2⟩
    · obtain ⟨hlayers, hembd, hheads, hheadsKv, hfits⟩ := h
      exact ⟨⟨hlayers, hembd, hheads, hheadsKv⟩, hfits⟩
  have hload := load_admission e models { config with modelPath } llama hopen hmodel
  rw [hadmitted, ← Bool.not_eq_true, hadmitted] at hload
  exact hload

/-- A small model that fills what the default budget leaves to the last byte, and more. -/
def exactModel (more : UInt64) : LlamaModel where
  hyperparams := { nLayer := 1, nEmbd := 64, nHead := 1, nHeadKv := 1 }
  sizeBytes := 2642411520 - 4 * 1024 * 64 - 16 * 1024 * 64 + more

theorem admission_exact_boundary :
    let load (more : UInt64) := ({} : InferenceEngine).load (fun _ => .file [] true)
      { modelPath := text "m.gguf" } { model := some (exactModel more), context := none }
    (∃ m ctx, .initFromModel m ctx ∈ (load 0).calls) ∧ (load 1).error = .memoryBudgetExceeded := by
  intro load
  have hconfig : validateConfig { modelPath := text "m.gguf" } = [] := by decide +kernel
  have hexact (more : UInt64) := admission_exact {} (fun _ => .file [] true) (text "m.gguf")
    { model := some (exactModel more), context := none } hconfig (by simp [Node.open]) rfl
  exact ⟨(hexact 0).1.mpr (by decide +kernel), ((hexact 1).2 (by decide +kernel)).1⟩

end InferenceEngine

end EdgeMind
