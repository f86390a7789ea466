import EdgeMind.Inference.ContextManager
import EdgeMind.Inference.Lifecycle

/-!
# Batches and the size they were announced with

A context is created for batches of the requested context size, while a prompt is admitted by the size
that the library reports of the context. Where the library gives more than was requested, a prompt
can be admitted that is larger than any batch the context takes.
-/

namespace EdgeMind

open Framework RuntimeConfig

namespace InferenceEngine

structure ContextParams where
  nCtx : UInt32
  nBatch : UInt32
  nThreads : Int32
  nThreadsBatch : Int32
deriving DecidableEq

/-- The parameters of the context that `load` creates. -/
def contextParams (config : RuntimeConfig) : ContextParams where
  nCtx := config.contextSize.toUInt32
  nBatch := config.contextSize.toUInt32
  nThreads := config.threads
  nThreadsBatch := config.threads

def promptTokens (llama : LlamaGenerate) (prompt : Bytes) : Option (List Token) :=
  match llama.chatTemplate prompt with
  | some formatted => llama.tokenize formatted false
  | none => llama.tokenize prompt true

def batchSize (tokens : List Token) : Int32 := Int32.ofNat tokens.length

inductive SessionCall
  | generate (prompt : Bytes) (llama : LlamaGenerate)
  | resetContext (hasMemory : Bool)

def SessionCall.call : SessionCall → Call
  | .generate prompt llama => .generate prompt llama
  | .resetContext hasMemory => .resetContext hasMemory

def sessionStep (e : InferenceEngine) (c : SessionCall) : InferenceEngine × List LifecycleEvent :=
  step e c.call

/-- No batch of the events is larger than announced. -/
def BatchesFit (nBatch : UInt32) (events : List LifecycleEvent) : Prop :=
  ∀ ctx n ok, .llama (.decode ctx n ok) ∈ events → n ≤ nBatch.toNat

/-- The prompt has more tokens than were requested of the context, and is accepted. -/
def Oversized (config : RuntimeConfig) (e : InferenceEngine) : SessionCall → Prop
  | .generate prompt llama => e.isLoaded = true ∧ ∃ m tokens,
      e.contextManager = some m ∧ promptTokens llama prompt = some tokens ∧
        m.canAccept (batchSize tokens) = true ∧ config.contextSize < batchSize tokens
  | .resetContext _ => False

theorem generateLoop_decode (llama : LlamaGenerate) (ctx : Handle) {fuel i : Nat}
    {m : ContextManager} {c : Handle} {n : Nat} {ok : Bool}
    (h : .decode c n ok ∈ (generateLoop llama ctx fuel i m).2.2.1) : n = 1 := by
  induction fuel generalizing i m with
  | zero => cases h
  | succ fuel ih =>
      unfold generateLoop at h
      dsimp only at h
      split at h
      · cases h
      split at h
      · cases h
      split at h
      · cases h
      split at h
      · cases List.mem_singleton.mp h
        rfl
      · rcases List.mem_cons.mp h with h | h
        · cases h
          rfl
        · exact ih h

theorem generate_batches (e : InferenceEngine) (prompt : Bytes) (llama : LlamaGenerate) :
    (e.generate prompt llama).calls = [] ∧
        (∀ m tokens, e.isLoaded = true → e.contextManager = some m →
          promptTokens llama prompt = some tokens → m.canAccept (batchSize tokens) = true →
          tokens = []) ∨
      ∃ ctx m tokens ok rest, e.isLoaded = true ∧ e.contextManager = some m ∧
        promptTokens llama prompt = some tokens ∧ m.canAccept (batchSize tokens) = true ∧
        (e.generate prompt llama).calls =
          .decode ctx (batchSize tokens).toNatClampNeg ok :: rest ∧
        ∀ c n ok, .decode c n ok ∈ rest → n = 1 := by
  unfold generate
  split
  · next ctx m hmodel hctx hmanager =>
      have hloaded : e.isLoaded = true := by
        rw [isLoaded, hmodel, hctx]
        rfl
      dsimp only
      split
      · next hnone =>
          have hnone : promptTokens llama prompt = none := hnone
          exact .inl ⟨rfl, fun _ _ _ _ hsome => absurd (hnone.symm.trans hsome) nofun⟩
      · next tokens htokens =>
          have htokens : promptTokens llama prompt = some tokens := htokens
          by_cases hempty : tokens = []
          · rw [if_pos hempty]
            refine .inl ⟨rfl, fun _ tokens' _ _ hsome _ => ?_⟩
            cases htokens.symm.trans hsome
            exact hempty
          rw [if_neg hempty]
          by_cases haccept : m.canAccept (batchSize tokens) = true
          case neg =>
            have hrefused : ¬m.canAccept (Int32.ofNat tokens.length) = true := haccept
            rw [if_pos hrefused]
            refine .inl ⟨rfl, fun m' tokens' _ hm hsome h => ?_⟩
            cases htokens.symm.trans hsome
            cases hmanager.symm.trans hm
            exact absurd h haccept
          have haccepted : ¬¬m.canAccept (Int32.ofNat tokens.length) = true :=
            not_not_intro haccept
          rw [if_neg haccepted]
          refine .inr ⟨ctx, m, tokens, ?_⟩
          by_cases hdecode : llama.promptDecodeOk = true
          · rw [if_neg (not_not_intro hdecode)]
            by_cases hsampler : llama.samplerValid = true
            · rw [if_neg (not_not_intro hsampler)]
              exact ⟨true, _, hloaded, hmanager, htokens, haccept, rfl,
                fun c n ok h => generateLoop_decode llama ctx h⟩
            · rw [if_pos hsampler]
              exact ⟨true, [], hloaded, hmanager, htokens, haccept, rfl,
                fun c n ok h => absurd h List.not_mem_nil⟩
          · rw [if_pos hdecode]
            exact ⟨false, [], hloaded, hmanager, htokens, haccept, rfl,
              fun c n ok h => absurd h List.not_mem_nil⟩
  · next hnone =>
      refine .inl ⟨rfl, fun m tokens hloaded hm _ _ => ?_⟩
      obtain ⟨hmodel, hctx⟩ := Bool.and_eq_true_iff.mp hloaded
      obtain ⟨model, hmodel⟩ := Option.isSome_iff_exists.mp hmodel
      obtain ⟨ctx, hctx⟩ := Option.isSome_iff_exists.mp hctx
      exact absurd hm (hnone model ctx m hmodel hctx)

theorem nBatch_toNat {config : RuntimeConfig} (h : ValidConfig config) :
    (contextParams config).nBatch.toNat = config.contextSize.toInt.toNat ∧
      16 ≤ config.contextSize.toInt := by
  have hge : (16 : Int) ≤ config.contextSize.toInt := Int32.le_iff_toInt_le.mp h.context_ge
  have hnonneg : (0 : Int32) ≤ config.contextSize := by
    rw [Int32.le_iff_toInt_le]
    exact Int32.toInt_zero.trans_le (by omega)
  exact ⟨Int32.toNat_toUInt32_of_le hnonneg, hge⟩

theorem batchesFit_iff {config : RuntimeConfig} (hconfig : ValidConfig config)
    (e : InferenceEngine) (c : SessionCall) :
    BatchesFit (contextParams config).nBatch (sessionStep e c).2 ↔ ¬Oversized config e c := by
  obtain ⟨hbatch, hmin⟩ := nBatch_toNat hconfig
  cases c with
  | resetContext hasMemory =>
      refine iff_of_true (fun ctx n ok h => ?_) not_false
      change _ ∈ (e.resetContext hasMemory).2.map LifecycleEvent.llama at h
      obtain ⟨call, hcall, heq⟩ := List.mem_map.mp h
      cases heq
      unfold resetContext at hcall
      cases hasMemory <;> cases hctx : e.ctx <;> simp [hctx] at hcall
  | generate prompt llama =>
      change BatchesFit _ ((e.generate prompt llama).calls.map LifecycleEvent.llama) ↔ _
      rcases generate_batches e prompt llama with ⟨hcalls, hnone⟩ |
        ⟨ctx, m, tokens, ok, rest, hloaded, hmanager, htokens, haccept, hcalls, hrest⟩
      · rw [hcalls]
        refine iff_of_true (fun _ _ _ h => absurd h List.not_mem_nil) ?_
        rintro ⟨hloaded, m, tokens, hmanager, htokens, haccept, hlt⟩
        cases hnone m tokens hloaded hmanager htokens haccept
        have hzero : (batchSize []).toInt = 0 := by decide
        rw [Int32.lt_iff_toInt_lt, hzero] at hlt
        omega
      · have hover : Oversized config e (.generate prompt llama) ↔
            config.contextSize.toInt < (batchSize tokens).toInt := by
          rw [← Int32.lt_iff_toInt_lt]
          constructor
          · rintro ⟨-, m', tokens', hmanager', htokens', -, hlt⟩
            cases htokens.symm.trans htokens'
            exact hlt
          · intro hlt
            exact ⟨hloaded, m, tokens, hmanager, htokens, haccept, hlt⟩
        rw [hover, hcalls]
        have hclamp : (batchSize tokens).toNatClampNeg = (batchSize tokens).toInt.toNat := rfl
        constructor
        · intro hfit
          have hle := hfit ctx _ ok (List.mem_map_of_mem List.mem_cons_self)
          rw [hbatch, hclamp] at hle
          omega
        · intro hle c n ok h
          obtain ⟨call, hcall, heq⟩ := List.mem_map.mp h
          cases heq
          rcases List.mem_cons.mp hcall with hcall | hcall
          · cases hcall
            rw [hbatch, hclamp]
            omega
          · rw [hrest c n ok hcall, hbatch]
            omega

/-- After any load under an accepted configuration, every batch of every generation is of the size that
the context was created for exactly if no prompt of the run is oversized. -/
theorem batches_fit_iff (e : InferenceEngine) (models : FileSystem) {config : RuntimeConfig}
    (modelPath : Path) (llama : LlamaLoad) (hconfig : validateConfig config = [])
    (calls : List SessionCall) :
    let created := contextParams { config with modelPath }
    let loaded := (e.load models { config with modelPath } llama).engine
    (∀ entry ∈ trace sessionStep loaded calls, ∀ ctx nTokens ok,
        .llama (.decode ctx nTokens ok) ∈ entry.output → nTokens ≤ created.nBatch.toNat) ↔
      ∀ entry ∈ trace sessionStep loaded calls, ¬Oversized config entry.before entry.input := by
  intro created loaded
  have hstep := batchesFit_iff (validConfig_of_validateConfig hconfig)
  constructor
  · intro hfit entry hentry
    rw [← hstep, ← output_of_mem_trace entry hentry]
    exact hfit entry hentry
  · intro hsmall entry hentry
    rw [output_of_mem_trace entry hentry]
    exact (hstep entry.before entry.input).mpr (hsmall entry hentry)

def smallConfig : RuntimeConfig := { modelPath := text "m.gguf", contextSize := 16 }

/-- A context of the given size is created for a small model. -/
def smallLoad (nCtx : UInt32) : LlamaLoad where
  model := some {
    hyperparams := { nLayer := 1, nEmbd := 64, nHead := 1, nHeadKv := 1 }
    sizeBytes := 24 }
  context := some nCtx

/-- A prompt of so many tokens, after which the generation ends. -/
def promptOf (n : Nat) : SessionCall := .generate [] {
  chatTemplate := fun _ => none
  tokenize := fun _ _ => some (List.replicate n 1)
  promptDecodeOk := true
  samplerValid := true
  step := fun _ => { isEog := true, piece := [], keepGoing := true, decodeOk := true } }

def smallEngine (nCtx : UInt32) : InferenceEngine :=
  (({} : InferenceEngine).load (fun _ => .file [] true) smallConfig (smallLoad nCtx)).engine

theorem batches_fit_small :
    BatchesFit (contextParams smallConfig).nBatch
      (sessionStep (smallEngine 256) (promptOf 12)).2 := by
  refine (batches_fit_iff {} (fun _ => .file [] true) (text "m.gguf") (smallLoad 256)
    (show validateConfig smallConfig = [] by decide +kernel) [promptOf 12]).mpr ?_ _
    List.mem_cons_self
  intro entry hentry
  cases List.mem_singleton.mp hentry
  rintro ⟨-, m, tokens, -, htokens, -, hlt⟩
  cases htokens
  exact absurd hlt (by decide)

/-- Twenty tokens are accepted by a context of 256 that takes batches of sixteen. -/
theorem batches_fit_larger :
    ¬∀ (config : RuntimeConfig) (llama : LlamaLoad) (calls : List SessionCall),
      validateConfig config = [] →
      ∀ entry ∈ trace sessionStep
          (({} : InferenceEngine).load (fun _ => .file [] true) config llama).engine calls,
        BatchesFit (contextParams config).nBatch entry.output := by
  intro h
  have hfit := h smallConfig (smallLoad 256) [promptOf 20] (by decide +kernel) _ List.mem_cons_self
  have hdecode : .llama (.decode 1 20 true) ∈ (sessionStep (smallEngine 256) (promptOf 20)).2 := by
    decide +kernel
  exact absurd (hfit 1 20 true hdecode) (by decide +kernel)

end InferenceEngine

end EdgeMind
