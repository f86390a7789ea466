import EdgeMind.Core.Config
import EdgeMind.Framework.FileStore
import EdgeMind.Inference.Memory

/-!
# The inference engine

The engine owns at most one model and one context of the llama library. What the library answers
is an argument of each operation; the calls that are made to it are part of each result, with the
handles they return or take.
-/

namespace EdgeMind

open Framework

inductive EngineError
  | none
  | modelFileNotFound
  | modelLoadFailed
  | contextCreateFailed
  | tokenizeFailed
  | decodeFailed
  | memoryBudgetExceeded
deriving DecidableEq

def engineErrorMessage : EngineError → Bytes
  | .none => text "No error."
  | .modelFileNotFound => text "Model file does not exist."
  | .modelLoadFailed => text "Failed to load GGUF model."
  | .contextCreateFailed => text "Failed to create inference context."
  | .tokenizeFailed => text "Failed to tokenize prompt."
  | .decodeFailed => text "Inference failed."
  | .memoryBudgetExceeded => text "Configuration exceeds the configured memory budget."

/-- Additions wrap at 32 bits, as the machine's do. -/
structure ContextManager where
  nCtx : Int32
  nUsed : Int32 := 0
deriving DecidableEq

namespace ContextManager

def canAccept (m : ContextManager) (additionalTokens : Int32) : Bool :=
  if additionalTokens < 0 then false else m.nUsed + additionalTokens ≤ m.nCtx

def consume (m : ContextManager) (count : Int32) : ContextManager :=
  if count ≤ 0 then m
  else if ¬m.canAccept count then m
  else { m with nUsed := m.nUsed + count }

def reset (m : ContextManager) : ContextManager := { m with nUsed := 0 }

def nRemaining (m : ContextManager) : Int32 := m.nCtx - m.nUsed

end ContextManager

/-- Identifies one object the library handed out. -/
abbrev Handle := Nat

abbrev Token := Int32

structure LlamaModel where
  hyperparams : ModelHyperparams
  sizeBytes : UInt64
deriving DecidableEq

/-- The answers to the calls of a load; `none` is a null pointer. -/
structure LlamaLoad where
  model : Option LlamaModel
  /-- `llama_n_ctx` of the context that is created. -/
  context : Option UInt32

structure LlamaStep where
  isEog : Bool
  piece : Bytes
  /-- What the caller's token callback returns. -/
  keepGoing : Bool
  decodeOk : Bool

structure LlamaGenerate where
  /-- Output of the model's chat template, if it has one. -/
  chatTemplate : Bytes → Option Bytes
  tokenize : Bytes → Bool → Option (List Token)
  promptDecodeOk : Bool
  samplerValid : Bool
  step : Nat → LlamaStep

/-- What the library reports of a model and its context on request. -/
structure LlamaInfo where
  /-- The text of `llama_model_desc`. -/
  desc : Bytes
  nParams : UInt64
  size : UInt64
  nCtxTrain : Int32
  nCtx : UInt32
  nThreads : Int32

/-- A call of the library that takes, returns or releases a handle. -/
inductive LlamaCall
  | backendInit
  | modelLoadFromFile (path : Path) (model : Option Handle)
  | modelFree (model : Handle)
  | initFromModel (model : Handle) (context : Option Handle)
  | free (context : Handle)
  | memoryClear (context : Handle)
  /-- `nTokens` is the size of the batch. -/
  | decode (context : Handle) (nTokens : Nat) (ok : Bool)
deriving DecidableEq

structure InferenceEngine where
  model : Option Handle := none
  ctx : Option Handle := none
  /-- Set exactly when a tokenizer is, over the model's vocabulary. -/
  contextManager : Option ContextManager := none
  config : RuntimeConfig := {}
  backendInitialized : Bool := false
  memoryDiagnostic : Bytes := []
  /-- Handles handed out so far. -/
  nextHandle : Handle := 0
deriving DecidableEq

namespace InferenceEngine

def isLoaded (e : InferenceEngine) : Bool := e.model.isSome && e.ctx.isSome

def unload (e : InferenceEngine) : InferenceEngine × List LlamaCall :=
  ({ e with contextManager := none, ctx := none, model := none },
    (e.ctx.map LlamaCall.free).toList ++ (e.model.map LlamaCall.modelFree).toList)

/-- Weights as observed, the other parts as estimated, and no numbers if one is missing. -/
def estimateFor (model : LlamaModel) (contextSize : Int32) : MemoryEstimate :=
  let observed : MemoryEstimate :=
    { weightsBytes := model.sizeBytes, weightsBytesIsObserved := true }
  match MemoryEstimator.estimateKvCacheBytes model.hyperparams contextSize 2,
      MemoryEstimator.estimateComputeBufferBytes model.hyperparams contextSize with
  | some kvCacheBytes, some computeBufferBytes =>
      { observed with kvCacheBytes, computeBufferBytes
                      runtimeOverheadBytes := 180 * 1024 * 1024 }
  | _, _ => { observed with valid := false }

def memoryDecision (model : LlamaModel) (config : RuntimeConfig) : MemoryDecision :=
  MemoryBudgetPolicy.evaluate (estimateFor model config.contextSize)
    (config.memoryBudgetMb.toUInt64 * 1024 * 1024) (config.safetyReserveMb.toUInt64 * 1024 * 1024)

structure LoadResult where
  engine : InferenceEngine
  error : EngineError
  calls : List LlamaCall

/-- Creating the context, once the model is loaded and admitted. -/
def createContext (e : InferenceEngine) (config : RuntimeConfig) (model : Handle)
    (llama : LlamaLoad) (calls : List LlamaCall) : LoadResult :=
  match llama.context with
  | none =>
      { engine := { e with model := none }
        error := .contextCreateFailed
        calls := calls ++ [.initFromModel model none, .modelFree model] }
  | some nCtx =>
      let ctx := e.nextHandle
      { engine := { e with
          ctx := some ctx
          contextManager := some { nCtx := nCtx.toInt32 }
          config
          nextHandle := ctx + 1 }
        error := .none
        calls := calls ++ [.initFromModel model (some ctx)] }

def load (e : InferenceEngine) (models : FileSystem) (config : RuntimeConfig)
    (llama : LlamaLoad) : LoadResult :=
  let (e, calls) := e.unload
  if (models config.modelPath).open = none then { engine := e, error := .modelFileNotFound, calls }
  else
    let calls := if e.backendInitialized then calls else calls ++ [.backendInit]
    let e := { e with backendInitialized := true }
    match llama.model with
    | none =>
        { engine := e
          error := .modelLoadFailed
          calls := calls ++ [.modelLoadFromFile config.modelPath none] }
    | some observed =>
        let model := e.nextHandle
        let calls := calls ++ [.modelLoadFromFile config.modelPath (some model)]
        let decision := memoryDecision observed config
        let e := { e with
          model := some model
          memoryDiagnostic := decision.diagnostic
          nextHandle := model + 1 }
        if ¬decision.safe then
          { engine := { e with model := none }
            error := .memoryBudgetExceeded
            calls := calls ++ [.modelFree model] }
        else createContext e config model llama calls

/-- `hasMemory` is whether the library reports a memory for the context. -/
def resetContext (e : InferenceEngine) (hasMemory : Bool) : InferenceEngine × List LlamaCall :=
  ({ e with contextManager := e.contextManager.map ContextManager.reset },
    if hasMemory then (e.ctx.map LlamaCall.memoryClear).toList else [])

structure GenerateResult where
  engine : InferenceEngine
  error : EngineError
  calls : List LlamaCall
  /-- The pieces passed to the token callback, in order. -/
  pieces : List Bytes

/-- The loop over the generated tokens: `fuel` iterations are left, this is iteration `i`. -/
def generateLoop (llama : LlamaGenerate) (ctx : Handle) :
    Nat → Nat → ContextManager → ContextManager × EngineError × List LlamaCall × List Bytes
  | 0, _, m => (m, .none, [], [])
  | fuel + 1, i, m =>
      let step := llama.step i
      if step.isEog then (m, .none, [], [])
      else if ¬step.keepGoing then (m, .none, [], [step.piece])
      else if ¬m.canAccept 1 then (m, .none, [], [step.piece])
      else if ¬step.decodeOk then (m, .decodeFailed, [.decode ctx 1 false], [step.piece])
      else
        let (m, error, calls, pieces) := generateLoop llama ctx fuel (i + 1) (m.consume 1)
        (m, error, .decode ctx 1 true :: calls, step.piece :: pieces)

def generate (e : InferenceEngine) (prompt : Bytes) (llama : LlamaGenerate) : GenerateResult :=
  match e.model, e.ctx, e.contextManager with
  | some _, some ctx, some m =>
      let stop (error : EngineError) (calls : List LlamaCall) : GenerateResult :=
        { engine := e, error, calls, pieces := [] }
      let promptTokens := match llama.chatTemplate prompt with
        | some formatted => llama.tokenize formatted false
        | none => llama.tokenize prompt true
      match promptTokens with
      | none => stop .tokenizeFailed []
      | some tokens =>
          let count := Int32.ofNat tokens.length
          if tokens = [] then stop .tokenizeFailed []
          else if ¬m.canAccept count then stop .none []
          else if ¬llama.promptDecodeOk then
            stop .decodeFailed [.decode ctx count.toNatClampNeg false]
          else
            let e := { e with contextManager := some (m.consume count) }
            if ¬llama.samplerValid then
              { engine := e, error := .decodeFailed
                calls := [.decode ctx count.toNatClampNeg true], pieces := [] }
            else
              let (m, error, calls, pieces) :=
                generateLoop llama ctx e.config.maxTokens.toNatClampNeg 0 (m.consume count)
              { engine := { e with contextManager := some m }
                error
                calls := .decode ctx count.toNatClampNeg true :: calls
                pieces }
  | _, _, _ => { engine := e, error := .contextCreateFailed, calls := [], pieces := [] }

structure ContextState where
  available : Bool := false
  nCtx : Int32 := 0
  nUsed : Int32 := 0
  nRemaining : Int32 := 0
deriving DecidableEq

def contextState (e : InferenceEngine) : ContextState :=
  match e.contextManager with
  | none => {}
  | some m => { available := true, nCtx := m.nCtx, nUsed := m.nUsed, nRemaining := m.nRemaining }

structure ModelInfo where
  description : Bytes := []
  nParams : UInt64 := 0
  modelSizeBytes : UInt64 := 0
  nCtxTrain : Int32 := 0
  nCtx : Int32 := 0
  nThreads : Int32 := 0
deriving DecidableEq

/-- The description is what fits the buffer of 256 bytes with its NUL. -/
def modelInfo (e : InferenceEngine) (llama : LlamaInfo) : ModelInfo :=
  if e.model = none ∨ e.ctx = none then {}
  else {
    description := (llama.desc.take 255).takeWhile (· ≠ 0)
    nParams := llama.nParams
    modelSizeBytes := llama.size
    nCtxTrain := llama.nCtxTrain
    nCtx := llama.nCtx.toInt32
    nThreads := llama.nThreads }

def unloaded (e : InferenceEngine) : InferenceEngine :=
  { e with contextManager := none, ctx := none, model := none }

/-- The call that a load makes first on a fresh engine. -/
def initCalls (e : InferenceEngine) : List LlamaCall :=
  if e.backendInitialized then [] else [.backendInit]

/-- The unloaded engine, once the backend is initialized. -/
def started (e : InferenceEngine) : InferenceEngine :=
  { e.unloaded with backendInitialized := true }

/-- The started engine, once the library has handed out a model and it has been judged. -/
def judged (e : InferenceEngine) (decision : MemoryDecision) : InferenceEngine :=
  { e.started with memoryDiagnostic := decision.diagnostic, nextHandle := e.nextHandle + 1 }

inductive LoadExit (e : InferenceEngine) (models : FileSystem) (config : RuntimeConfig)
    (llama : LlamaLoad) : LoadResult → Prop
  | missing (hopen : (models config.modelPath).open = none) :
      LoadExit e models config llama {
        engine := e.unloaded, error := .modelFileNotFound, calls := e.unload.2 }
  | noModel (hopen : (models config.modelPath).open ≠ none) (hmodel : llama.model = none) :
      LoadExit e models config llama {
        engine := e.started, error := .modelLoadFailed
        calls := e.unload.2 ++ e.initCalls ++ [.modelLoadFromFile config.modelPath none] }
  | unsafeModel {model : LlamaModel} (hopen : (models config.modelPath).open ≠ none)
      (hmodel : llama.model = some model) (hsafe : (memoryDecision model config).safe = false) :
      LoadExit e models config llama {
        engine := e.judged (memoryDecision model config), error := .memoryBudgetExceeded
        calls := e.unload.2 ++ e.initCalls ++
          [.modelLoadFromFile config.modelPath (some e.nextHandle), .modelFree e.nextHandle] }
  | noContext {model : LlamaModel} (hopen : (models config.modelPath).open ≠ none)
      (hmodel : llama.model = some model) (hsafe : (memoryDecision model config).safe = true)
      (hcontext : llama.context = none) :
      LoadExit e models config llama {
        engine := e.judged (memoryDecision model config), error := .contextCreateFailed
        calls := e.unload.2 ++ e.initCalls ++
          [.modelLoadFromFile config.modelPath (some e.nextHandle),
            .initFromModel e.nextHandle none, .modelFree e.nextHandle] }
  | loaded {model : LlamaModel} {nCtx : UInt32} (hopen : (models config.modelPath).open ≠ none)
      (hmodel : llama.model = some model) (hsafe : (memoryDecision model config).safe = true)
      (hcontext : llama.context = some nCtx) :
      LoadExit e models config llama {
        engine := { e.judged (memoryDecision model config) with
          model := some e.nextHandle
          ctx := some (e.nextHandle + 1)
          contextManager := some { nCtx := nCtx.toInt32 }
          config
          nextHandle := e.nextHandle + 2 }
        error := .none
        calls := e.unload.2 ++ e.initCalls ++
          [.modelLoadFromFile config.modelPath (some e.nextHandle),
            .initFromModel e.nextHandle (some (e.nextHandle + 1))] }

theorem load_exit (e : InferenceEngine) (models : FileSystem) (config : RuntimeConfig)
    (llama : LlamaLoad) : LoadExit e models config llama (e.load models config llama) := by
  have hcalls : (if e.unload.1.backendInitialized then e.unload.2
      else e.unload.2 ++ [.backendInit]) = e.unload.2 ++ e.initCalls := by
    unfold initCalls
    change (if e.backendInitialized then _ else _) = _
    split
    · rw [List.append_nil]
    · rfl
  unfold load createContext
  dsimp only
  rw [hcalls]
  by_cases hopen : (models config.modelPath).open = none
  · rw [if_pos hopen]
    exact .missing hopen
  rw [if_neg hopen]
  cases hmodel : llama.model with
  | none => exact .noModel hopen hmodel
  | some model =>
      dsimp only
      cases hsafe : (memoryDecision model config).safe with
      | false =>
          rw [if_pos (by decide), List.append_assoc]
          exact .unsafeModel hopen hmodel hsafe
      | true =>
          rw [if_neg (by decide)]
          cases hcontext : llama.context with
          | none =>
              dsimp only
              rw [List.append_assoc]
              exact .noContext hopen hmodel hsafe hcontext
          | some nCtx =>
              dsimp only
              rw [List.append_assoc]
              exact .loaded hopen hmodel hsafe hcontext

private theorem generateLoop_calls (llama : LlamaGenerate) (ctx : Handle) (p : Path)
    (model : Option Handle) (fuel i : Nat) (m : ContextManager) :
    .modelLoadFromFile p model ∉ (generateLoop llama ctx fuel i m).2.2.1 := by
  induction fuel generalizing i m with
  | zero => simp [generateLoop]
  | succ fuel ih =>
      unfold generateLoop
      dsimp only
      split_ifs <;> simp [ih]

theorem generate_calls (e : InferenceEngine) (prompt : Bytes) (llama : LlamaGenerate) (p : Path)
    (model : Option Handle) : .modelLoadFromFile p model ∉ (e.generate prompt llama).calls := by
  unfold generate
  split
  · dsimp only
    split
    · simp
    · split_ifs <;> simp [generateLoop_calls]
  · simp

private theorem generateLoop_pieces_le (llama : LlamaGenerate) (ctx : Handle) (fuel i : Nat)
    (m : ContextManager) : (generateLoop llama ctx fuel i m).2.2.2.length ≤ fuel := by
  induction fuel generalizing i m with
  | zero => simp [generateLoop]
  | succ fuel ih =>
      have hrest := ih (i + 1) (m.consume 1)
      unfold generateLoop
      dsimp only
      split_ifs <;> first
        | exact Nat.zero_le _
        | exact Nat.succ_le_succ (Nat.zero_le _)
        | exact Nat.succ_le_succ hrest

theorem generate_frame (e : InferenceEngine) (prompt : Bytes) (llama : LlamaGenerate) :
    (e.generate prompt llama).engine.isLoaded = e.isLoaded ∧
      (e.generate prompt llama).engine.config = e.config ∧
      (e.generate prompt llama).pieces.length ≤ e.config.maxTokens.toNatClampNeg := by
  unfold generate
  split
  · dsimp only
    split
    · exact ⟨rfl, rfl, Nat.zero_le _⟩
    · have hloop := generateLoop_pieces_le llama
      split_ifs <;> refine ⟨rfl, rfl, ?_⟩ <;> first | exact Nat.zero_le _ | exact hloop _ _ _ _
  · exact ⟨rfl, rfl, Nat.zero_le _⟩

theorem load_ok {e : InferenceEngine} {models : FileSystem} {config : RuntimeConfig}
    {llama : LlamaLoad} (h : (e.load models config llama).error = .none) :
    (e.load models config llama).engine.isLoaded = true ∧
      (e.load models config llama).engine.config = config := by
  have hexit := load_exit e models config llama
  generalize e.load models config llama = result at hexit h
  cases hexit with
  | loaded hopen hmodel hsafe hcontext => exact ⟨rfl, rfl⟩
  | _ => cases h

end InferenceEngine

end EdgeMind
