import EdgeMind.Inference.Handles

/-!
# The handles of the engine over its life

Every call of the engine leaves events: the calls of the library, and the making and dropping of the
tokenizer, which borrows the vocabulary of the model. The events of a whole life, the destructor
included, follow the discipline of handles.
-/

namespace EdgeMind

open Framework

namespace InferenceEngine

/-- `tokenizer_.reset()`, and then what an unload does. -/
def unloadEvents (e : InferenceEngine) : List LifecycleEvent :=
  .resetTokenizer :: e.unload.2.map .llama

/-- The tokenizer is made as soon as the context is. -/
def loadEvent : LlamaCall → List LifecycleEvent
  | .initFromModel model (some ctx) =>
      [.llama (.initFromModel model (some ctx)), .makeTokenizer model]
  | call => [.llama call]

/-- A call of the engine, with the answers of the library to it. -/
inductive Call
  | load (models : FileSystem) (config : RuntimeConfig) (llama : LlamaLoad)
  | unload
  | generate (prompt : Bytes) (llama : LlamaGenerate)
  | resetContext (hasMemory : Bool)

/-- The engine after a call, and the events of the call. -/
def step (e : InferenceEngine) : Call → InferenceEngine × List LifecycleEvent
  | .load models config llama =>
      let loaded := e.load models config llama
      (loaded.engine, .resetTokenizer :: loaded.calls.flatMap loadEvent)
  | .unload => (e.unload.1, e.unloadEvents)
  | .generate prompt llama =>
      let generated := e.generate prompt llama
      (generated.engine, generated.calls.map .llama)
  | .resetContext hasMemory =>
      ((e.resetContext hasMemory).1, (e.resetContext hasMemory).2.map .llama)

/-- `~InferenceEngine`: an unload, and the end of the backend if it was initialized. -/
def destroyEvents (e : InferenceEngine) : List LifecycleEvent :=
  e.unloadEvents ++ if e.backendInitialized then [.backendFree] else []

def callEvents (calls : List Call) : List LifecycleEvent :=
  (trace step {} calls).flatMap Entry.output

/-- The events of a life: of the calls, and of the destruction after them. -/
def lifeEvents (calls : List Call) : List LifecycleEvent :=
  callEvents calls ++ (final step {} calls).destroyEvents

def held (e : InferenceEngine) : Held where
  model := e.model
  ctx := e.ctx
  tokenizer := e.contextManager.isSome
  backend := e.backendInitialized
  nextHandle := e.nextHandle

theorem unload_history {e : InferenceEngine} {past : List LifecycleEvent}
    (h : History e.held past) : History e.unloaded.held (past ++ e.unloadEvents) := by
  have hreset := h.resetTokenizer
  unfold unloadEvents unload
  cases hctx : e.ctx with
  | none =>
      cases hmodel : e.model with
      | none => simpa [held, unloaded, hctx, hmodel] using hreset
      | some m => simpa [held, unloaded, hctx, hmodel] using hreset.modelFree hmodel hctx rfl
  | some c =>
      have hfree := hreset.free hctx
      cases hmodel : e.model with
      | none => simpa [held, unloaded, hctx, hmodel] using hfree
      | some m => simpa [held, unloaded, hctx, hmodel] using hfree.modelFree hmodel rfl rfl

private theorem load_started {e : InferenceEngine} {past : List LifecycleEvent}
    (h : History e.held past) :
    History e.started.held (past ++ e.unloadEvents ++ e.initCalls.map .llama) := by
  have hunload := unload_history h
  unfold initCalls
  cases hbackend : e.backendInitialized with
  | true => simpa [held, started, unloaded, hbackend] using hunload
  | false =>
      have hinit := hunload.backendInit hbackend
      simpa [held, started, unloaded, hbackend] using hinit

private theorem unload_flatMap (e : InferenceEngine) :
    e.unload.2.flatMap loadEvent = e.unload.2.map .llama := by
  cases hctx : e.ctx <;> cases hmodel : e.model <;> simp [unload, hctx, hmodel, loadEvent]

private theorem init_flatMap (e : InferenceEngine) :
    e.initCalls.flatMap loadEvent = e.initCalls.map .llama := by
  unfold initCalls
  split <;> rfl

private theorem loadEvents_started (e : InferenceEngine) (past : List LifecycleEvent)
    (rest : List LlamaCall) :
    past ++ .resetTokenizer :: (e.unload.2 ++ e.initCalls ++ rest).flatMap loadEvent =
      past ++ e.unloadEvents ++ e.initCalls.map .llama ++ rest.flatMap loadEvent := by
  rw [List.flatMap_append, List.flatMap_append, unload_flatMap, init_flatMap, unloadEvents]
  simp

theorem load_history {e : InferenceEngine} {past : List LifecycleEvent} (h : History e.held past)
    (models : FileSystem) (config : RuntimeConfig) (llama : LlamaLoad) :
    History (e.load models config llama).engine.held
      (past ++ .resetTokenizer :: (e.load models config llama).calls.flatMap loadEvent) := by
  have hunload := unload_history h
  have hstarted := load_started h
  have hmodel := hstarted.model rfl rfl config.modelPath
  have hexit := load_exit e models config llama
  generalize e.load models config llama = result at hexit
  cases hexit with
  | missing hopen =>
      rw [unload_flatMap]
      exact hunload
  | noModel hopen hnone =>
      rw [loadEvents_started]
      simpa [loadEvent] using hstarted.noModel config.modelPath
  | unsafeModel hopen hsome hsafe =>
      rw [loadEvents_started]
      simpa [loadEvent, held, judged, started, unloaded] using hmodel.modelFree rfl rfl rfl
  | noContext hopen hsome hsafe hcontext =>
      rw [loadEvents_started]
      simpa [loadEvent, held, judged, started, unloaded] using
        (hmodel.noContext rfl).modelFree rfl rfl rfl
  | loaded hopen hsome hsafe hcontext =>
      rw [loadEvents_started]
      simpa [loadEvent, held, judged, started, unloaded] using
        (hmodel.context rfl rfl).makeTokenizer rfl

theorem resetContext_history {e : InferenceEngine} {past : List LifecycleEvent}
    (h : History e.held past) (hasMemory : Bool) :
    History (e.resetContext hasMemory).1.held
      (past ++ (e.resetContext hasMemory).2.map .llama) := by
  have hheld : (e.resetContext hasMemory).1.held = e.held := by
    simp [resetContext, held]
  rw [hheld]
  unfold resetContext
  cases hctx : e.ctx with
  | none => cases hasMemory <;> simpa using h
  | some c =>
      cases hasMemory with
      | false => simpa using h
      | true => exact h.memoryClear hctx

private theorem generateLoop_decodes (llama : LlamaGenerate) (ctx : Handle) (fuel i : Nat)
    (m : ContextManager) :
    ∀ call ∈ (generateLoop llama ctx fuel i m).2.2.1, ∃ n ok, call = .decode ctx n ok := by
  induction fuel generalizing i m with
  | zero => simp [generateLoop]
  | succ fuel ih =>
      have hrest := ih (i + 1) (m.consume 1)
      unfold generateLoop
      dsimp only
      split_ifs <;> first
        | exact List.forall_mem_cons.mpr ⟨⟨1, true, rfl⟩, hrest⟩
        | simp

theorem generate_decodes (e : InferenceEngine) (prompt : Bytes) (llama : LlamaGenerate) :
    (e.generate prompt llama).engine.held = e.held ∧
      ∀ call ∈ (e.generate prompt llama).calls, ∃ c n ok, e.ctx = some c ∧ call = .decode c n ok := by
  unfold generate
  split
  · next ctx m hmodel hctx hmanager =>
      have hloop (fuel i : Nat) (m : ContextManager) :
          ∀ call ∈ (generateLoop llama ctx fuel i m).2.2.1,
            ∃ c n ok, e.ctx = some c ∧ call = .decode c n ok := by
        intro call hcall
        obtain ⟨n, ok, h⟩ := generateLoop_decodes llama ctx fuel i m call hcall
        exact ⟨ctx, n, ok, hctx, h⟩
      have hheld (m' : ContextManager) : { e with contextManager := some m' }.held = e.held := by
        simp [held, hmanager]
      have hdecode (n : Nat) (ok : Bool) :
          ∃ c n' ok', e.ctx = some c ∧ LlamaCall.decode ctx n ok = .decode c n' ok' :=
        ⟨ctx, n, ok, hctx, rfl⟩
      dsimp only
      split
      · exact ⟨rfl, by simp⟩
      · split_ifs <;> first
          | exact ⟨rfl, List.forall_mem_nil _⟩
          | exact ⟨rfl, List.forall_mem_singleton.mpr (hdecode _ _)⟩
          | exact ⟨hheld _, List.forall_mem_singleton.mpr (hdecode _ _)⟩
          | exact ⟨hheld _, List.forall_mem_cons.mpr ⟨hdecode _ _, hloop _ _ _⟩⟩
  · exact ⟨rfl, by simp⟩

private theorem decodes_history {o : Held} {past : List LifecycleEvent} (h : History o past)
    (calls : List LlamaCall)
    (hcalls : ∀ call ∈ calls, ∃ c n ok, o.ctx = some c ∧ call = .decode c n ok) :
    History o (past ++ calls.map .llama) := by
  induction calls generalizing past with
  | nil => simpa using h
  | cons call rest ih =>
      obtain ⟨⟨c, n, ok, hctx, rfl⟩, hrest⟩ := List.forall_mem_cons.mp hcalls
      simpa using ih (h.decode hctx n ok) hrest

theorem step_history {e : InferenceEngine} {past : List LifecycleEvent} (h : History e.held past)
    (call : Call) : History (e.step call).1.held (past ++ (e.step call).2) := by
  cases call with
  | load models config llama => exact load_history h models config llama
  | unload => exact unload_history h
  | generate prompt llama =>
      obtain ⟨hheld, hcalls⟩ := e.generate_decodes prompt llama
      change History (e.generate prompt llama).engine.held _
      rw [hheld]
      exact decodes_history h _ hcalls
  | resetContext hasMemory => exact resetContext_history h hasMemory

theorem run_history {e : InferenceEngine} {past : List LifecycleEvent} (h : History e.held past)
    (calls : List Call) :
    History (final step e calls).held (past ++ (trace step e calls).flatMap Entry.output) := by
  induction calls generalizing e past with
  | nil => simpa [final, trace] using h
  | cons call calls ih =>
      have hstep := ih (step_history h call)
      simpa [final, trace] using hstep

/-- The events of a life are a history that ends with nothing held, and then the backend is freed if
it was initialized. -/
theorem life_history (calls : List Call) :
    ∃ o past, History o past ∧ o.model = none ∧ o.ctx = none ∧ o.tokenizer = false ∧
      lifeEvents calls = past ++ if o.backend then [.backendFree] else [] := by
  have hcalls : History (final step {} calls).held (callEvents calls) :=
    @run_history {} [] .nil calls
  refine ⟨_, _, unload_history hcalls, rfl, rfl, rfl, ?_⟩
  rw [lifeEvents, destroyEvents, List.append_assoc]
  rfl

private theorem life_end {o : Held} {body : List LifecycleEvent} (h : History o body)
    (hmodel : o.model = none) (hctx : o.ctx = none) (htokenizer : o.tokenizer = false) :
    let events := body ++ if o.backend then [.backendFree] else []
    (events.filterMap modelUse = body.filterMap modelUse ∧
      events.filterMap contextUse = body.filterMap contextUse ∧
      vocabulary events = vocabulary body) ∧
    (∀ past future, events = past ++ future → WellOwned past) ∧
    AtEvery UsesLive events ∧
    events.count .backendFree = events.count (.llama .backendInit) ∧
    events.count (.llama .backendInit) ≤ 1 := by
  intro events
  have haccounts := h.accounts
  have hfrees := List.count_eq_zero_of_not_mem haccounts.frees
  have hinits := haccounts.inits
  have howned (past future : List LifecycleEvent) (heq : body = past ++ future) :
      WellOwned past := by
    rw [heq] at h
    obtain ⟨o', h'⟩ := h.initial
    exact h'.accounts.wellOwned
  cases hbackend : o.backend with
  | false =>
      have hevents : events = body := by simp [events, hbackend]
      rw [hbackend] at hinits
      rw [hevents, hfrees, hinits]
      exact ⟨⟨rfl, rfl, rfl⟩, howned, h.atEvery, rfl, Nat.zero_le _⟩
  | true =>
      have hevents : events = body ++ [.backendFree] := by simp [events, hbackend]
      have hlast : UsesLive body .backendFree := by
        refine ⟨?_, ?_, ?_⟩
        · rw [haccounts.models, hmodel]
          rfl
        · rw [haccounts.contexts, hctx]
          rfl
        · rw [haccounts.borrowed, htokenizer]
          rfl
      rw [hbackend] at hinits
      rw [hevents]
      refine ⟨⟨?_, ?_, ?_⟩, fun past future heq => ?_, atEvery_concat h.atEvery hlast, ?_, ?_⟩
      · simp [modelUse]
      · simp [contextUse]
      · simp [vocabularyAfter]
      · rcases List.eq_nil_or_concat' future with rfl | ⟨future, x, rfl⟩
        · rw [List.append_nil] at heq
          rw [← heq]
          exact haccounts.wellOwned.concat_backendFree
        · rw [← List.append_assoc] at heq
          exact howned past future (List.append_inj' heq rfl).1
      · simp [hfrees, hinits]
      · simp [hinits]

/-- Over any life of the engine, whatever the library answers: at every point at most one model and
one context are live, and contexts and tokenizer do not outlive their model; only live objects are
used or released, and a model only once its context is gone; every model and context that was
acquired is released exactly once, and nothing else is; and the backend is freed as often as it is
initialized, at most once. -/
theorem lifecycle (calls : List Call) :
    let events := lifeEvents calls
    (∀ past future, events = past ++ future → WellOwned past) ∧
      AtEvery UsesLive events ∧
      (liveModels events = [] ∧ liveContexts events = [] ∧ vocabulary events = none) ∧
      (∀ m, ((∃ p, .llama (.modelLoadFromFile p (some m)) ∈ events) →
          events.count (.llama (.modelFree m)) = 1) ∧
        (.llama (.modelFree m) ∈ events → ∃ p, .llama (.modelLoadFromFile p (some m)) ∈ events)) ∧
      (∀ c, ((∃ m, .llama (.initFromModel m (some c)) ∈ events) →
          events.count (.llama (.free c)) = 1) ∧
        (.llama (.free c) ∈ events → ∃ m, .llama (.initFromModel m (some c)) ∈ events)) ∧
      events.count .backendFree = events.count (.llama .backendInit) ∧
      events.count (.llama .backendInit) ≤ 1 := by
  intro events
  obtain ⟨o, body, h, hmodel, hctx, htokenizer, hevents⟩ := life_history calls
  obtain ⟨⟨hmodels, hcontexts, hvocabulary⟩, howned, hused, hbalance, honce⟩ :=
    life_end h hmodel hctx htokenizer
  rw [← hevents] at hmodels hcontexts hvocabulary howned hused hbalance honce
  have haccounts := h.accounts
  have hnoModel : liveModels events = [] := by
    rw [liveModels, hmodels]
    exact haccounts.models.trans (by rw [hmodel]; rfl)
  have hnoContext : liveContexts events = [] := by
    rw [liveContexts, hcontexts]
    exact haccounts.contexts.trans (by rw [hctx]; rfl)
  refine ⟨howned, hused, ⟨hnoModel, hnoContext, ?_⟩, fun m => ?_, fun c => ?_, hbalance, honce⟩
  · rw [hvocabulary, haccounts.borrowed, htokenizer]
    rfl
  · have hproper := haccounts.modelsProper
    rw [← hmodels] at hproper
    obtain ⟨hreleased, hacquired⟩ := released_once hproper hnoModel m
    rw [acquire_model_iff, ← count_modelFree] at hreleased
    rw [acquire_model_iff] at hacquired
    exact ⟨hreleased, fun hmem => hacquired (List.mem_filterMap.mpr ⟨_, hmem, rfl⟩)⟩
  · have hproper := haccounts.contextsProper
    rw [← hcontexts] at hproper
    obtain ⟨hreleased, hacquired⟩ := released_once hproper hnoContext c
    rw [acquire_context_iff, ← count_free] at hreleased
    rw [acquire_context_iff] at hacquired
    exact ⟨hreleased, fun hmem => hacquired (List.mem_filterMap.mpr ⟨_, hmem, rfl⟩)⟩

example : lifeEvents [.load (fun _ => .file [] true) { modelPath := text "m.gguf" }
    { model := some { hyperparams := {}, sizeBytes := 0 }, context := none }] =
      [.resetTokenizer, .llama .backendInit, .llama (.modelLoadFromFile (text "m.gguf") (some 0)),
        .llama (.modelFree 0), .resetTokenizer, .backendFree] := by decide +kernel

end InferenceEngine

end EdgeMind
