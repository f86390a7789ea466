import EdgeMind.Inference.Batches
import Mathlib.Logic.Function.Basic

/-!
# The context manager and the cache

The library keeps a cache of cells for each context, which the code never reads: a successful decode
occupies a cell for every token of its batch, and clearing the memory of a context empties it. The context
manager counts along. Over a run of the engine the count is the number of occupied cells, as long as
sizes stay where the sum of two cannot leave 32 bits.
-/

namespace EdgeMind

open Framework

namespace InferenceEngine

def setCells (cells : Handle → Nat) (ctx : Handle) (n : Nat) : Handle → Nat :=
  Function.update cells ctx n

@[simp]
theorem setCells_self (cells : Handle → Nat) (ctx : Handle) (n : Nat) :
    setCells cells ctx n ctx = n := by
  rw [setCells, Function.update_self]

/-- The occupied cells of each context, after an event. -/
def occupy (cells : Handle → Nat) : LifecycleEvent → Handle → Nat
  | .llama (.initFromModel _ (some ctx)) => setCells cells ctx 0
  | .llama (.memoryClear ctx) => setCells cells ctx 0
  | .llama (.decode ctx nTokens true) => setCells cells ctx (cells ctx + nTokens)
  | _ => cells

structure CachedEngine where
  engine : InferenceEngine := {}
  cells : Handle → Nat := fun _ => 0

def deliveredPieces (e : InferenceEngine) : Call → List Bytes
  | .generate prompt llama => (e.generate prompt llama).pieces
  | _ => []

/-- A call of the engine, and what its events do to the cache; the output is what it delivers. -/
def cachedStep (s : CachedEngine) (call : Call) : CachedEngine × List Bytes :=
  let after := s.engine.step call
  ({ engine := after.1, cells := after.2.foldl occupy s.cells }, s.engine.deliveredPieces call)

/-- Below this size no sum of two leaves 32 bits. -/
def sizeBound : Nat := 2 ^ 30

/-- What is assumed of a call: the size of a context and the tokens of a prompt are bounded, and a
context whose cache is null has no occupied cells. -/
def Assumed (s : CachedEngine) : Call → Prop
  | .load _ _ llama => ∀ nCtx, llama.context = some nCtx → nCtx.toNat < sizeBound
  | .unload => True
  | .generate prompt llama =>
      ∀ tokens, promptTokens llama prompt = some tokens → tokens.length < sizeBound
  | .resetContext hasMemory => hasMemory = false → ∀ ctx, s.engine.ctx = some ctx → s.cells ctx = 0

/-- The manager counts so many cells, all within a context of bounded size. -/
structure Counts (m : ContextManager) (cells : Nat) : Prop where
  used : m.nUsed.toInt = cells
  within : (cells : Int) ≤ m.nCtx.toInt
  bound : m.nCtx.toInt < sizeBound

/-- While a model is loaded, the manager counts the cells of its context. -/
def Accounted (s : CachedEngine) : Prop :=
  s.engine.isLoaded = true → ∃ ctx m, s.engine.ctx = some ctx ∧ s.engine.contextManager = some m ∧
    Counts m (s.cells ctx)

theorem Counts.start {nCtx : UInt32} (h : nCtx.toNat < sizeBound) :
    Counts { nCtx := nCtx.toInt32 } 0 := by
  have hsmall : 2 * nCtx.toNat < 2 ^ 32 := by
    unfold sizeBound at h
    omega
  have hsize : nCtx.toInt32.toInt = nCtx.toNat := BitVec.toInt_eq_toNat_of_lt hsmall
  exact ⟨rfl, by rw [hsize]; omega, by rw [hsize]; omega⟩

theorem Counts.reset {m : ContextManager} {cells : Nat} (h : Counts m cells) : Counts m.reset 0 :=
  ⟨rfl, (Int.natCast_nonneg cells).trans h.within, h.bound⟩

theorem Counts.consume {m : ContextManager} {cells : Nat} (h : Counts m cells) {k : Int32}
    (hpos : 0 < k.toInt) (hbound : k.toInt < sizeBound) (haccept : m.canAccept k = true) :
    Counts (m.consume k) (cells + k.toNatClampNeg) := by
  obtain ⟨hused, hwithin, hctx⟩ := h
  have hm : m.Within := ⟨by omega, by omega⟩
  unfold sizeBound at hbound hctx
  have hfits : k.toInt ≤ m.nCtx.toInt - m.nUsed.toInt := by
    obtain ⟨-, hfits | ⟨-, hwraps⟩⟩ := (ContextManager.canAccept_iff hm k).mp haccept
    · exact hfits
    · omega
  have hsum := ContextManager.consume_nUsed hm k
  rw [if_pos ⟨hpos, hfits⟩] at hsum
  have hclamp : (k.toNatClampNeg : Int) = k.toInt := Int.toNat_of_nonneg hpos.le
  refine ⟨?_, ?_, ?_⟩
  · rw [hsum, Nat.cast_add, hclamp, hused]
  · rw [ContextManager.consume_nCtx, Nat.cast_add, hclamp]
    omega
  · rw [ContextManager.consume_nCtx]
    exact hctx

theorem occupy_decode (cells : Handle → Nat) (ctx : Handle) (nTokens : Nat) (rest : List LlamaCall) :
    ((LlamaCall.decode ctx nTokens true :: rest).map LifecycleEvent.llama).foldl occupy cells =
      (rest.map LifecycleEvent.llama).foldl occupy
        (setCells cells ctx (cells ctx + nTokens)) := rfl

theorem generateLoop_counts (llama : LlamaGenerate) (ctx : Handle) {fuel i : Nat}
    {m : ContextManager} {cells : Handle → Nat} (h : Counts m (cells ctx)) :
    Counts (generateLoop llama ctx fuel i m).1
      (((generateLoop llama ctx fuel i m).2.2.1.map LifecycleEvent.llama).foldl occupy cells ctx) := by
  induction fuel generalizing i m cells with
  | zero => exact h
  | succ fuel ih =>
      unfold generateLoop
      dsimp only
      split
      · exact h
      split
      · exact h
      split
      · exact h
      next haccept =>
        split
        · exact h
        · rw [occupy_decode]
          apply ih
          rw [setCells_self]
          exact h.consume (by decide) (by decide) (not_not.mp haccept)

theorem load_accounted (s : CachedEngine) (models : FileSystem) (config : RuntimeConfig)
    (llama : LlamaLoad) (hsize : Assumed s (.load models config llama)) :
    Accounted (cachedStep s (.load models config llama)).1 := by
  have hexit := load_exit s.engine models config llama
  unfold Accounted cachedStep
  dsimp only [step]
  generalize s.engine.load models config llama = result at hexit
  cases hexit with
  | loaded hopen hmodel hsafe hcontext =>
      intro _
      refine ⟨_, _, rfl, rfl, ?_⟩
      rw [List.flatMap_append, ← List.cons_append, List.foldl_append]
      change Counts _ (setCells _ (s.engine.nextHandle + 1) 0 _)
      rw [setCells_self]
      exact Counts.start (hsize _ hcontext)
  | _ => exact nofun

theorem generate_counts {e : InferenceEngine} {cells : Handle → Nat}
    (h : Accounted ⟨e, cells⟩) {prompt : Bytes} {llama : LlamaGenerate}
    (hsize : ∀ tokens, promptTokens llama prompt = some tokens → tokens.length < sizeBound) :
    Accounted ⟨(e.generate prompt llama).engine,
      ((e.generate prompt llama).calls.map LifecycleEvent.llama).foldl occupy cells⟩ := by
  unfold generate
  split
  · next ctx m hmodel hctx hmanager =>
      have hcounts : Counts m (cells ctx) := by
        obtain ⟨ctx', m', hctx', hmanager', hcounts⟩ := h (by simp [isLoaded, hmodel, hctx])
        cases hctx.symm.trans hctx'
        cases hmanager.symm.trans hmanager'
        exact hcounts
      dsimp only
      split
      · exact h
      · next tokens htokens =>
          have hlength := hsize tokens htokens
          split
          · exact h
          next hempty =>
            split
            · exact h
            next haccept =>
              have hne : 0 < tokens.length := List.length_pos_iff.mpr hempty
              have hcount : (Int32.ofNat tokens.length).toInt = tokens.length :=
                Int32.toInt_ofNat_of_lt (hlength.trans (by decide))
              have hconsumed := hcounts.consume (k := Int32.ofNat tokens.length) (by omega) (by omega)
                (not_not.mp haccept)
              split
              · exact h
              split
              · refine fun _ => ⟨ctx, _, hctx, rfl, ?_⟩
                rw [occupy_decode]
                change Counts _ (setCells _ ctx _ ctx)
                rw [setCells_self]
                exact hconsumed
              · refine fun _ => ⟨ctx, _, hctx, rfl, ?_⟩
                rw [occupy_decode]
                apply generateLoop_counts
                rw [setCells_self]
                exact hconsumed
  · exact h

theorem resetContext_accounted {s : CachedEngine} (h : Accounted s) (hasMemory : Bool)
    (hnull : Assumed s (.resetContext hasMemory)) :
    Accounted (cachedStep s (.resetContext hasMemory)).1 := by
  intro hloaded
  obtain ⟨ctx, m, hctx, hmanager, hcounts⟩ := h hloaded
  refine ⟨ctx, m.reset, hctx, congrArg (Option.map ContextManager.reset) hmanager, ?_⟩
  change Counts _ ((((s.engine.resetContext hasMemory).2.map LifecycleEvent.llama).foldl occupy
    s.cells) ctx)
  unfold resetContext
  rw [hctx]
  cases hasMemory with
  | true =>
      change Counts _ (setCells _ ctx 0 ctx)
      rw [setCells_self]
      exact hcounts.reset
  | false =>
      change Counts _ (s.cells ctx)
      rw [hnull rfl ctx hctx]
      exact hcounts.reset

theorem cachedStep_accounted {s : CachedEngine} {call : Call} (hassumed : Assumed s call)
    (h : Accounted s) : Accounted (cachedStep s call).1 := by
  cases call with
  | load models config llama => exact load_accounted s models config llama hassumed
  | unload => exact nofun
  | generate prompt llama => exact generate_counts h hassumed
  | resetContext hasMemory => exact resetContext_accounted h hasMemory hassumed

theorem deliveredPieces_le (e : InferenceEngine) (call : Call) :
    (e.deliveredPieces call).length ≤ e.config.maxTokens.toNatClampNeg := by
  cases call with
  | generate prompt llama => exact (e.generate_frame prompt llama).2.2
  | _ => exact Nat.zero_le _

/-- Over any calls of a fresh engine, whatever is tokenized, sampled, answered and decoded: before each
call and after the last one, the occupied cells of a loaded model's context are as many as are in
use, and no more than the context has; and no generation delivers more pieces than configured. -/
theorem cells_accounted (calls : List Call)
    (hassumed : ∀ entry ∈ trace cachedStep {} calls, Assumed entry.before entry.input) :
    (∀ entry ∈ trace cachedStep {} calls, Accounted entry.before ∧
      entry.output.length ≤ entry.before.engine.config.maxTokens.toNatClampNeg) ∧
    Accounted (final cachedStep {} calls) := by
  have hstart : Accounted {} := nofun
  refine ⟨fun entry hentry => ?_, ?_⟩
  · obtain ⟨haccounted, houtput⟩ := trace_invariant Accounted Assumed
      (fun s call => cachedStep_accounted) hstart hassumed entry hentry
    refine ⟨haccounted, ?_⟩
    rw [houtput]
    exact deliveredPieces_le _ _
  · exact final_of_trace Accounted Assumed (fun s call => cachedStep_accounted) hstart hassumed

/-- A load, a prompt of twelve tokens, a reset and a prompt of twenty. -/
def smallCalls : List Call :=
  [.load (fun _ => .file [] true) smallConfig (smallLoad 256), (promptOf 12).call,
    .resetContext true, (promptOf 20).call]

theorem cells_accounted_small : Accounted (final cachedStep {} smallCalls) ∧
    (final cachedStep {} smallCalls).engine.isLoaded = true ∧
    (final cachedStep {} smallCalls).cells 1 = 20 := by
  refine ⟨(cells_accounted smallCalls ?_).2, by decide +kernel, by decide +kernel⟩
  intro entry hentry
  simp only [smallCalls, trace, List.mem_cons, List.not_mem_nil, or_false] at hentry
  rcases hentry with rfl | rfl | rfl | rfl
  · intro nCtx h
    cases h
    decide
  · intro tokens h
    cases h
    decide
  · intro h
    cases h
  · intro tokens h
    cases h
    decide

end InferenceEngine

end EdgeMind
