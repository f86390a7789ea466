import EdgeMind.Core.Pipeline
import EdgeMind.Inference.Lifecycle

/-!
# Readiness and what the engine holds

A runtime that is not ready should hold no model. The flag is the runtime's and the handles are the
engine's: a load clears the flag first and the engine releases its session only once the load gets
to it, so that the two agree over a run exactly if no load ends earlier while a model is held.
-/

namespace EdgeMind

open Framework

/-- A whole session or none: the model, its context and the tokenizer are there together. -/
def Held.Whole (o : Held) : Prop :=
  o.model.isSome = o.ctx.isSome ∧ o.tokenizer = o.ctx.isSome

namespace InferenceEngine

theorem load_whole (e : InferenceEngine) (models : FileSystem) (config : RuntimeConfig)
    (llama : LlamaLoad) : (e.load models config llama).engine.held.Whole := by
  have hexit := load_exit e models config llama
  generalize e.load models config llama = result at hexit
  cases hexit <;> exact ⟨rfl, rfl⟩

theorem isLoaded_eq (e : InferenceEngine) : e.isLoaded = (e.held.model.isSome && e.held.ctx.isSome) :=
  rfl

theorem load_isLoaded (e : InferenceEngine) (models : FileSystem) (config : RuntimeConfig)
    (llama : LlamaLoad) :
    (e.load models config llama).engine.isLoaded = true ↔
      (e.load models config llama).error = .none := by
  have hexit := load_exit e models config llama
  generalize e.load models config llama = result at hexit
  cases hexit <;> simp [isLoaded, unloaded, started, judged]

theorem not_loaded_iff {e : InferenceEngine} (h : e.held.Whole) :
    e.isLoaded = false ↔ e.model = none ∧ e.ctx = none := by
  have hboth : e.model.isSome = e.ctx.isSome := h.1
  unfold isLoaded
  cases hmodel : e.model <;> cases hctx : e.ctx <;> simp_all

theorem reports_unloaded {e : InferenceEngine} (h : e.held.Whole) (hmodel : e.model = none) :
    (∀ llama, e.modelInfo llama = {}) ∧ e.contextState = {} := by
  refine ⟨fun llama => if_pos (.inl hmodel), ?_⟩
  have hctx : e.model.isSome = e.ctx.isSome := h.1
  have htokenizer : e.contextManager.isSome = e.ctx.isSome := h.2
  rw [← hctx, hmodel, Option.isSome_none, Option.isSome_eq_false_iff, Option.isNone_iff_eq_none]
    at htokenizer
  rw [contextState, htokenizer]

end InferenceEngine

namespace Runtime

/-- The runtime is not ready exactly if the engine holds neither a model nor a context. -/
def Consistent (r : Runtime) : Prop :=
  r.isReady = false ↔ r.engine.model = none ∧ r.engine.ctx = none

def ReportsNothing (r : Runtime) : Prop :=
  (∀ llama, r.modelInfo llama = {}) ∧ r.contextReport = text "No model is currently loaded."

/-- A call leaves a consistent runtime, and a failed load one that reports nothing. -/
def LeavesNothing (e : Entry Runtime (World × Call) CallResult) : Prop :=
  Consistent e.output.runtime ∧ ∀ config input, e.input.2 = .load config input →
    e.output.message ≠ [] → ReportsNothing e.output.runtime

/-- The load ends before the engine is told of it. -/
def EndsEarly (w : World) (config : RuntimeConfig) (input : LoadInput) : Prop :=
  validateConfig config ≠ [] ∨ (quotaStage w config input).2.allowed = false ∨
    (resolution w config).status ≠ .resolved ∨
    isVerified (importStage w config input).result.status = false

/-- A load that ends early while the engine holds a model. -/
def KeepsModel (r : Runtime) (wc : World × Call) : Prop :=
  r.engine.model ≠ none ∧ ∃ config input, wc.2 = .load config input ∧ EndsEarly wc.1 config input

structure Synced (r : Runtime) : Prop where
  ready : r.ready = r.engine.isLoaded
  whole : r.engine.held.Whole

theorem Synced.consistent {r : Runtime} (h : Synced r) : Consistent r := by
  rw [Consistent, isReady, h.ready, Bool.and_self]
  exact InferenceEngine.not_loaded_iff h.whole

theorem Synced.reportsNothing {r : Runtime} (h : Synced r) (hready : r.isReady = false) :
    ReportsNothing r := by
  obtain ⟨hinfo, hstate⟩ :=
    InferenceEngine.reports_unloaded h.whole (h.consistent.mp hready).1
  refine ⟨hinfo, ?_⟩
  rw [contextReport, hstate]
  rfl

theorem load_endsEarly {w : World} {config : RuntimeConfig} {input : LoadInput}
    (h : EndsEarly w config input) (r : Runtime) :
    (r.load w config input).runtime.ready = false ∧
      (r.load w config input).runtime.engine = r.engine := by
  have hcase := load_case r w config input
  generalize r.load w config input = result at hcase
  cases hcase with
  | engine hconfig hquota hresolution hverification =>
      simp [EndsEarly, hconfig, hquota, hresolution, hverification] at h
  | _ => exact ⟨rfl, rfl⟩

theorem loadEngine_synced {r : Runtime} (hready : r.ready = false) (w : World)
    (config : RuntimeConfig) (input : LoadInput) (effects : List Effect) :
    Synced (r.loadEngine w config input effects).runtime := by
  have hwhole := r.engine.load_whole w.models config input.llama
  have hloaded := r.engine.load_isLoaded w.models config input.llama
  unfold loadEngine
  dsimp only
  split
  · next herror =>
      refine ⟨?_, hwhole⟩
      rw [ne_eq, ← hloaded, Bool.not_eq_true] at herror
      exact hready.trans herror.symm
  · next herror => exact ⟨(hloaded.mpr (not_not.mp herror)).symm, hwhole⟩

theorem load_reaches {w : World} {config : RuntimeConfig} {input : LoadInput}
    (h : ¬EndsEarly w config input) (r : Runtime) : Synced (r.load w config input).runtime := by
  have hcase := load_case r w config input
  generalize r.load w config input = result at hcase
  cases hcase with
  | invalid hconfig => exact absurd (.inl hconfig) h
  | denied hconfig hquota => exact absurd (.inr (.inl (Bool.eq_false_iff.mpr hquota))) h
  | unresolved hconfig hquota hresolution => exact absurd (.inr (.inr (.inl hresolution))) h
  | rejected hconfig hquota hresolution hverification =>
      exact absurd (.inr (.inr (.inr (Bool.eq_false_iff.mpr hverification)))) h
  | engine hconfig hquota hresolution hverification => exact loadEngine_synced rfl _ _ _ _

theorem generate_held (r : Runtime) (w : World) (prompt : Bytes) (input : GenerateInput) :
    (r.generate w prompt input).runtime.ready = r.ready ∧
      (r.generate w prompt input).runtime.engine.held = r.engine.held := by
  have hheld := (r.engine.generate_decodes prompt input.llama).1
  have hadmitted (w : World) (effects : List Effect) :
      (r.generateAdmitted w prompt input effects).runtime.ready = r.ready ∧
        (r.generateAdmitted w prompt input effects).runtime.engine.held = r.engine.held := by
    rw [generateAdmitted_runtime]
    exact ⟨rfl, hheld⟩
  unfold generate
  split
  · exact ⟨rfl, rfl⟩
  · split
    · exact hadmitted w []
    · dsimp only
      split
      · exact ⟨rfl, rfl⟩
      · exact hadmitted _ _

theorem Synced.of_held {r r' : Runtime} (h : Synced r) (hready : r'.ready = r.ready)
    (hheld : r'.engine.held = r.engine.held) : Synced r' where
  ready := by
    rw [hready, InferenceEngine.isLoaded_eq, hheld]
    exact h.ready
  whole := hheld ▸ h.whole

theorem step_synced {r : Runtime} (wc : World × Call) (hkeeps : ¬KeepsModel r wc)
    (h : Synced r) : Synced (step r wc).1 := by
  obtain ⟨w, c⟩ := wc
  cases c with
  | load config input =>
      by_cases hearly : EndsEarly w config input
      · have hnone : r.engine.model = none := by
          by_contra hmodel
          exact hkeeps ⟨hmodel, config, input, rfl, hearly⟩
        obtain ⟨hready, hengine⟩ := load_endsEarly hearly r
        change Synced (r.load w config input).runtime
        refine ⟨?_, hengine ▸ h.whole⟩
        rw [hready, hengine, InferenceEngine.isLoaded, hnone]
        rfl
      · exact load_reaches hearly r
  | unload => exact ⟨rfl, rfl, rfl⟩
  | generate prompt input =>
      obtain ⟨hready, hheld⟩ := r.generate_held w prompt input
      exact h.of_held hready hheld
  | resetContext hasMemory =>
      refine h.of_held rfl ?_
      simp [step, call, resetContext, InferenceEngine.resetContext, InferenceEngine.held]

theorem load_failed_iff (r : Runtime) (w : World) (config : RuntimeConfig) (input : LoadInput) :
    (r.load w config input).message ≠ [] ↔ (r.load w config input).runtime.isReady = false := by
  rw [← Bool.not_eq_true, (load_tells r w config input).ready]

/-- Over a run every call leaves a consistent runtime, and every failed load one that holds nothing,
exactly if no load of the run ends before the engine stage while a model is held. -/
theorem failedLoad_leavesNothing_iff (calls : List (World × Call)) :
    Consistent {} ∧ ((∀ e ∈ trace step {} calls, LeavesNothing e) ↔
      ∀ e ∈ trace step {} calls, ¬KeepsModel e.before e.input) := by
  have hfresh : Synced {} := ⟨rfl, rfl, rfl⟩
  refine ⟨hfresh.consistent, fun h e he hkeeps => ?_, fun h e he => ?_⟩
  · have houtput := output_of_mem_trace e he
    have hconsistent := (h e he).1
    obtain ⟨hmodel, config, input, hload, hearly⟩ := hkeeps
    obtain ⟨hready, hengine⟩ := load_endsEarly hearly e.before
    have hruntime : e.output.runtime = (e.before.load e.input.1 config input).runtime := by
      rw [houtput, step, hload]
      rfl
    rw [hruntime, Consistent, isReady, hready, hengine] at hconsistent
    exact hmodel (hconsistent.mp (Bool.false_and _)).1
  · obtain ⟨hbefore, houtput⟩ := trace_invariant Synced (fun r wc => ¬KeepsModel r wc)
      (fun _ wc hkeeps hs => step_synced wc hkeeps hs) hfresh h e he
    have hafter : Synced e.output.runtime := by
      rw [houtput]
      exact step_synced e.input (h e he) hbefore
    refine ⟨hafter.consistent, fun config input hload hfailed => hafter.reportsNothing ?_⟩
    have hresult : e.output = e.before.load e.input.1 config input := by
      rw [houtput, step, hload]
      rfl
    rw [hresult] at hfailed ⊢
    exact (load_failed_iff _ _ _ _).mp hfailed

/-- A load that succeeds, and one of an empty configuration after it. -/
theorem failedLoad_keepsModel :
    let after := final step {} [(sampleWorld, .load sampleConfig sampleInput),
      (sampleWorld, .load {} sampleInput)]
    after.isReady = false ∧ after.engine.model ≠ none ∧ after.engine.ctx ≠ none ∧
      after.contextReport ≠ text "No model is currently loaded." ∧ ¬Consistent after := by
  intro after
  have hready : after.isReady = false := by decide +kernel
  have hmodel : after.engine.model ≠ none := by decide +kernel
  refine ⟨hready, hmodel, by decide +kernel, by decide +kernel, fun h => ?_⟩
  exact hmodel (h.mp hready).1

end Runtime

end EdgeMind
