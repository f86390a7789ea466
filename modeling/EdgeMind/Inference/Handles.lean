import EdgeMind.Framework.Ownership
import EdgeMind.Inference.Engine

/-!
# The discipline of handles

The events of an owner that holds at most one model, a context of it and a tokenizer over its
vocabulary: what it acquires, uses and releases, in which order. What is live at any point, and that
nothing is released twice, is derived from the discipline alone.
-/

namespace EdgeMind

open Framework

inductive LifecycleEvent
  | llama (call : LlamaCall)
  | makeTokenizer (model : Handle)
  | resetTokenizer
  | backendFree
deriving DecidableEq

def modelUse : LifecycleEvent → Option (Use Handle)
  | .llama (.modelLoadFromFile _ (some model)) => some (.acquire model)
  | .llama (.modelFree model) => some (.release model)
  | _ => none

def contextUse : LifecycleEvent → Option (Use Handle)
  | .llama (.initFromModel _ (some ctx)) => some (.acquire ctx)
  | .llama (.free ctx) => some (.release ctx)
  | _ => none

def liveModels (past : List LifecycleEvent) : List Handle := live (past.filterMap modelUse)

def liveContexts (past : List LifecycleEvent) : List Handle := live (past.filterMap contextUse)

/-- The model whose vocabulary the tokenizer points to, once an event has happened. -/
def vocabularyAfter (vocabulary : Option Handle) : LifecycleEvent → Option Handle
  | .makeTokenizer model => some model
  | .resetTokenizer => none
  | _ => vocabulary

/-- The model whose vocabulary the tokenizer points to, if there is a tokenizer. -/
def vocabulary (past : List LifecycleEvent) : Option Handle := past.foldl vocabularyAfter none

structure Held where
  model : Option Handle := none
  ctx : Option Handle := none
  tokenizer : Bool := false
  backend : Bool := false
  nextHandle : Handle := 0
deriving DecidableEq

/-- The histories of an owner that acquires a model before its context, makes a tokenizer over the
model it holds, and releases in the opposite order. -/
inductive History : Held → List LifecycleEvent → Prop
  | nil : History {} []
  | backendInit {o : Held} {past : List LifecycleEvent} (h : History o past)
      (hbackend : o.backend = false) :
      History { o with backend := true } (past ++ [.llama .backendInit])
  | noModel {o : Held} {past : List LifecycleEvent} (h : History o past) (p : Path) :
      History o (past ++ [.llama (.modelLoadFromFile p none)])
  | model {o : Held} {past : List LifecycleEvent} (h : History o past) (hmodel : o.model = none)
      (hctx : o.ctx = none) (p : Path) :
      History { o with model := some o.nextHandle, nextHandle := o.nextHandle + 1 }
        (past ++ [.llama (.modelLoadFromFile p (some o.nextHandle))])
  | noContext {o : Held} {past : List LifecycleEvent} {m : Handle} (h : History o past)
      (hmodel : o.model = some m) : History o (past ++ [.llama (.initFromModel m none)])
  | context {o : Held} {past : List LifecycleEvent} {m : Handle} (h : History o past)
      (hmodel : o.model = some m) (hctx : o.ctx = none) :
      History { o with ctx := some o.nextHandle, nextHandle := o.nextHandle + 1 }
        (past ++ [.llama (.initFromModel m (some o.nextHandle))])
  | makeTokenizer {o : Held} {past : List LifecycleEvent} {m : Handle} (h : History o past)
      (hmodel : o.model = some m) :
      History { o with tokenizer := true } (past ++ [.makeTokenizer m])
  | resetTokenizer {o : Held} {past : List LifecycleEvent} (h : History o past) :
      History { o with tokenizer := false } (past ++ [.resetTokenizer])
  | free {o : Held} {past : List LifecycleEvent} {c : Handle} (h : History o past)
      (hctx : o.ctx = some c) : History { o with ctx := none } (past ++ [.llama (.free c)])
  | modelFree {o : Held} {past : List LifecycleEvent} {m : Handle} (h : History o past)
      (hmodel : o.model = some m) (hctx : o.ctx = none) (htokenizer : o.tokenizer = false) :
      History { o with model := none } (past ++ [.llama (.modelFree m)])
  | decode {o : Held} {past : List LifecycleEvent} {c : Handle} (h : History o past)
      (hctx : o.ctx = some c) (nTokens : Nat) (ok : Bool) :
      History o (past ++ [.llama (.decode c nTokens ok)])
  | memoryClear {o : Held} {past : List LifecycleEvent} {c : Handle} (h : History o past)
      (hctx : o.ctx = some c) : History o (past ++ [.llama (.memoryClear c)])

structure Accounts (o : Held) (past : List LifecycleEvent) : Prop where
  models : liveModels past = o.model.toList
  contexts : liveContexts past = o.ctx.toList
  borrowed : vocabulary past = if o.tokenizer then o.model else none
  owned : o.ctx ≠ none ∨ o.tokenizer = true → o.model ≠ none
  parent : ∀ m c, .llama (.initFromModel m (some c)) ∈ past → o.ctx = some c → o.model = some m
  modelsProper : AtEvery Proper (past.filterMap modelUse)
  contextsProper : AtEvery Proper (past.filterMap contextUse)
  models_lt : ∀ p m, .llama (.modelLoadFromFile p (some m)) ∈ past → m < o.nextHandle
  contexts_lt : ∀ m c, .llama (.initFromModel m (some c)) ∈ past → c < o.nextHandle
  inits : past.count (.llama .backendInit) = if o.backend then 1 else 0
  frees : .backendFree ∉ past

@[simp]
theorem liveModels_concat (past : List LifecycleEvent) (x : LifecycleEvent) :
    liveModels (past ++ [x]) =
      ((modelUse x).map (·.apply (liveModels past))).getD (liveModels past) := by
  unfold liveModels
  rw [List.filterMap_append]
  cases h : modelUse x <;> simp [h]

@[simp]
theorem liveContexts_concat (past : List LifecycleEvent) (x : LifecycleEvent) :
    liveContexts (past ++ [x]) =
      ((contextUse x).map (·.apply (liveContexts past))).getD (liveContexts past) := by
  unfold liveContexts
  rw [List.filterMap_append]
  cases h : contextUse x <;> simp [h]

@[simp]
theorem vocabulary_concat (past : List LifecycleEvent) (x : LifecycleEvent) :
    vocabulary (past ++ [x]) = vocabularyAfter (vocabulary past) x := by
  rw [vocabulary, List.foldl_append]
  rfl

theorem acquire_model_iff (past : List LifecycleEvent) (m : Handle) :
    .acquire m ∈ past.filterMap modelUse ↔
      ∃ p, .llama (.modelLoadFromFile p (some m)) ∈ past := by
  rw [List.mem_filterMap]
  constructor
  · intro h
    obtain ⟨x, hmem, hx⟩ := h
    unfold modelUse at hx
    split at hx <;> cases hx
    exact ⟨_, hmem⟩
  · intro h
    obtain ⟨p, hmem⟩ := h
    exact ⟨_, hmem, rfl⟩

theorem acquire_context_iff (past : List LifecycleEvent) (c : Handle) :
    .acquire c ∈ past.filterMap contextUse ↔
      ∃ m, .llama (.initFromModel m (some c)) ∈ past := by
  rw [List.mem_filterMap]
  constructor
  · intro h
    obtain ⟨x, hmem, hx⟩ := h
    unfold contextUse at hx
    split at hx <;> cases hx
    exact ⟨_, hmem⟩
  · intro h
    obtain ⟨m, hmem⟩ := h
    exact ⟨_, hmem, rfl⟩

private theorem proper_concat {f : LifecycleEvent → Option (Use Handle)}
    {past : List LifecycleEvent} {x : LifecycleEvent} (h : AtEvery Proper (past.filterMap f))
    (hx : ∀ use, f x = some use → Proper (past.filterMap f) use) :
    AtEvery Proper ((past ++ [x]).filterMap f) := by
  rw [List.filterMap_append]
  cases hf : f x with
  | none =>
      rw [List.filterMap_cons_none hf, List.filterMap_nil, List.append_nil]
      exact h
  | some use =>
      rw [List.filterMap_cons_some hf, List.filterMap_nil]
      exact atEvery_concat h (hx use hf)

private theorem Accounts.neutral {o : Held} {past : List LifecycleEvent} {x : LifecycleEvent}
    (h : Accounts o past) (tokenizer : Bool) (hmodel : modelUse x = none)
    (hcontext : contextUse x = none) (hinit : x ≠ .llama .backendInit) (hfree : x ≠ .backendFree)
    (hborrowed : vocabularyAfter (vocabulary past) x = if tokenizer then o.model else none)
    (howned : tokenizer = true → o.model ≠ none) :
    Accounts { o with tokenizer } (past ++ [x]) where
  models := by simp [hmodel, h.models]
  contexts := by simp [hcontext, h.contexts]
  borrowed := by rw [vocabulary_concat, hborrowed]
  owned := fun ho => ho.elim (fun hctx => h.owned (.inl hctx)) howned
  parent := by
    intro m c hmem
    rcases List.mem_append.mp hmem with hmem | hmem
    · exact h.parent m c hmem
    · rw [← List.mem_singleton.mp hmem] at hcontext
      cases hcontext
  modelsProper := proper_concat h.modelsProper (by simp [hmodel])
  contextsProper := proper_concat h.contextsProper (by simp [hcontext])
  models_lt := by
    intro p m hmem
    rcases List.mem_append.mp hmem with hmem | hmem
    · exact h.models_lt p m hmem
    · rw [← List.mem_singleton.mp hmem] at hmodel
      cases hmodel
  contexts_lt := by
    intro m c hmem
    rcases List.mem_append.mp hmem with hmem | hmem
    · exact h.contexts_lt m c hmem
    · rw [← List.mem_singleton.mp hmem] at hcontext
      cases hcontext
  inits := by
    have hzero : [x].count (.llama .backendInit) = 0 :=
      List.count_eq_zero_of_not_mem (by simpa using hinit.symm)
    rw [List.count_append, hzero, h.inits]
    rfl
  frees := by simp [h.frees, hfree.symm]

private theorem Accounts.backendInit {o : Held} {past : List LifecycleEvent} (h : Accounts o past)
    (hbackend : o.backend = false) :
    Accounts { o with backend := true } (past ++ [.llama .backendInit]) where
  models := by simp [modelUse, h.models]
  contexts := by simp [contextUse, h.contexts]
  borrowed := by simp [vocabularyAfter, h.borrowed]
  owned := h.owned
  parent := by simpa using h.parent
  modelsProper := proper_concat h.modelsProper (by simp [modelUse])
  contextsProper := proper_concat h.contextsProper (by simp [contextUse])
  models_lt := by simpa using h.models_lt
  contexts_lt := by simpa using h.contexts_lt
  inits := by simp [h.inits, hbackend]
  frees := by simp [h.frees]

private theorem Accounts.acquireModel {o : Held} {past : List LifecycleEvent} (h : Accounts o past)
    (hmodel : o.model = none) (hctx : o.ctx = none) (p : Path) :
    Accounts { o with model := some o.nextHandle, nextHandle := o.nextHandle + 1 }
      (past ++ [.llama (.modelLoadFromFile p (some o.nextHandle))]) where
  models := by simp [modelUse, Use.apply, h.models, hmodel]
  contexts := by simp [contextUse, h.contexts]
  borrowed := by
    have htokenizer : o.tokenizer = false :=
      Bool.eq_false_iff.mpr fun ho => h.owned (.inr ho) hmodel
    simp [vocabularyAfter, h.borrowed, htokenizer]
  owned := fun _ => nofun
  parent := by simp [hctx]
  modelsProper := proper_concat h.modelsProper (by
    intro use huse
    cases huse
    change .acquire o.nextHandle ∉ past.filterMap modelUse
    rw [acquire_model_iff]
    intro hmem
    exact Nat.lt_irrefl _ (h.models_lt _ _ hmem.choose_spec))
  contextsProper := proper_concat h.contextsProper (by simp [contextUse])
  models_lt := by
    intro q m hmem
    rcases List.mem_append.mp hmem with hmem | hmem
    · exact (h.models_lt q m hmem).trans (Nat.lt_succ_self _)
    · cases List.mem_singleton.mp hmem
      exact Nat.lt_succ_self _
  contexts_lt := by
    intro m c hmem
    exact (h.contexts_lt m c (by simpa using hmem)).trans (Nat.lt_succ_self _)
  inits := by simp [h.inits]
  frees := by simp [h.frees]

private theorem Accounts.acquireContext {o : Held} {past : List LifecycleEvent} {m : Handle}
    (h : Accounts o past) (hmodel : o.model = some m) (hctx : o.ctx = none) :
    Accounts { o with ctx := some o.nextHandle, nextHandle := o.nextHandle + 1 }
      (past ++ [.llama (.initFromModel m (some o.nextHandle))]) where
  models := by simp [modelUse, h.models]
  contexts := by simp [contextUse, Use.apply, h.contexts, hctx]
  borrowed := by simp [vocabularyAfter, h.borrowed]
  owned := fun _ => by simp [hmodel]
  parent := by
    intro m' c hmem hc
    cases hc
    rcases List.mem_append.mp hmem with hmem | hmem
    · exact absurd (h.contexts_lt _ _ hmem) (Nat.lt_irrefl _)
    · cases List.mem_singleton.mp hmem
      exact hmodel
  modelsProper := proper_concat h.modelsProper (by simp [modelUse])
  contextsProper := proper_concat h.contextsProper (by
    intro use huse
    cases huse
    change .acquire o.nextHandle ∉ past.filterMap contextUse
    rw [acquire_context_iff]
    intro hmem
    exact Nat.lt_irrefl _ (h.contexts_lt _ _ hmem.choose_spec))
  models_lt := by
    intro q m' hmem
    exact (h.models_lt q m' (by simpa using hmem)).trans (Nat.lt_succ_self _)
  contexts_lt := by
    intro m' c hmem
    rcases List.mem_append.mp hmem with hmem | hmem
    · exact (h.contexts_lt m' c hmem).trans (Nat.lt_succ_self _)
    · cases List.mem_singleton.mp hmem
      exact Nat.lt_succ_self _
  inits := by simp [h.inits]
  frees := by simp [h.frees]

private theorem Accounts.free {o : Held} {past : List LifecycleEvent} {c : Handle}
    (h : Accounts o past) (hctx : o.ctx = some c) :
    Accounts { o with ctx := none } (past ++ [.llama (.free c)]) where
  models := by simp [modelUse, h.models]
  contexts := by simp [contextUse, Use.apply, h.contexts, hctx]
  borrowed := by simp [vocabularyAfter, h.borrowed]
  owned := fun ho => h.owned (.inr (ho.resolve_left (by simp)))
  parent := nofun
  modelsProper := proper_concat h.modelsProper (by simp [modelUse])
  contextsProper := proper_concat h.contextsProper (by
    intro use huse
    cases huse
    change _ ∈ liveContexts _
    simp [h.contexts, hctx])
  models_lt := by simpa using h.models_lt
  contexts_lt := by simpa using h.contexts_lt
  inits := by simp [h.inits]
  frees := by simp [h.frees]

private theorem Accounts.modelFree {o : Held} {past : List LifecycleEvent} {m : Handle}
    (h : Accounts o past) (hmodel : o.model = some m) (hctx : o.ctx = none)
    (htokenizer : o.tokenizer = false) :
    Accounts { o with model := none } (past ++ [.llama (.modelFree m)]) where
  models := by simp [modelUse, Use.apply, h.models, hmodel]
  contexts := by simp [contextUse, h.contexts]
  borrowed := by simp [vocabularyAfter, h.borrowed, htokenizer]
  owned := by simp [hctx, htokenizer]
  parent := by simp [hctx]
  modelsProper := proper_concat h.modelsProper (by
    intro use huse
    cases huse
    change _ ∈ liveModels _
    simp [h.models, hmodel])
  contextsProper := proper_concat h.contextsProper (by simp [contextUse])
  models_lt := by simpa using h.models_lt
  contexts_lt := by simpa using h.contexts_lt
  inits := by simp [h.inits]
  frees := by simp [h.frees]

theorem History.accounts {o : Held} {past : List LifecycleEvent} (h : History o past) :
    Accounts o past := by
  induction h with
  | nil =>
      exact {
        models := rfl
        contexts := rfl
        borrowed := rfl
        owned := by simp
        parent := by simp
        modelsProper := atEvery_nil _
        contextsProper := atEvery_nil _
        models_lt := by simp
        contexts_lt := by simp
        inits := rfl
        frees := by simp }
  | backendInit h hbackend ih => exact ih.backendInit hbackend
  | model h hmodel hctx p ih => exact ih.acquireModel hmodel hctx p
  | context h hmodel hctx ih => exact ih.acquireContext hmodel hctx
  | free h hctx ih => exact ih.free hctx
  | modelFree h hmodel hctx htokenizer ih => exact ih.modelFree hmodel hctx htokenizer
  | makeTokenizer h hmodel ih =>
      exact ih.neutral true rfl rfl nofun nofun hmodel.symm fun _ => by simp [hmodel]
  | resetTokenizer h ih => exact ih.neutral false rfl rfl nofun nofun rfl nofun
  | noModel h p ih =>
      exact ih.neutral _ rfl rfl nofun nofun ih.borrowed fun ho => ih.owned (.inr ho)
  | noContext h hmodel ih =>
      exact ih.neutral _ rfl rfl nofun nofun ih.borrowed fun ho => ih.owned (.inr ho)
  | decode h hctx nTokens ok ih =>
      exact ih.neutral _ rfl rfl nofun nofun ih.borrowed fun ho => ih.owned (.inr ho)
  | memoryClear h hctx ih =>
      exact ih.neutral _ rfl rfl nofun nofun ih.borrowed fun ho => ih.owned (.inr ho)

theorem History.before {o : Held} {past : List LifecycleEvent} {x : LifecycleEvent}
    (h : History o (past ++ [x])) : ∃ o', History o' past := by
  generalize heq : past ++ [x] = events at h
  cases h with
  | nil => simp at heq
  | _ h =>
      cases (List.append_inj' heq rfl).1
      exact ⟨_, h⟩

theorem History.initial {o : Held} {past : List LifecycleEvent} (future : List LifecycleEvent)
    (h : History o (past ++ future)) : ∃ o', History o' past := by
  induction future using List.reverseRecOn generalizing o with
  | nil => exact ⟨o, by simpa using h⟩
  | append_singleton future x ih =>
      rw [← List.append_assoc] at h
      obtain ⟨o', h'⟩ := h.before
      exact ih h'

/-- At most one model and one context are live, and what depends on a model lives as long as it. -/
structure WellOwned (past : List LifecycleEvent) : Prop where
  models_le : (liveModels past).length ≤ 1
  contexts_le : (liveContexts past).length ≤ 1
  context_model : ∀ c ∈ liveContexts past, ∀ m, .llama (.initFromModel m (some c)) ∈ past →
    m ∈ liveModels past
  tokenizer_model : ∀ m, vocabulary past = some m → m ∈ liveModels past

/-- An event uses, and releases, live objects only; a model goes last. -/
def UsesLive (past : List LifecycleEvent) : LifecycleEvent → Prop
  | .llama (.initFromModel m _) => m ∈ liveModels past
  | .llama (.decode c _ _) => c ∈ liveContexts past
  | .llama (.memoryClear c) => c ∈ liveContexts past
  | .llama (.free c) => c ∈ liveContexts past
  | .llama (.modelFree m) =>
      m ∈ liveModels past ∧ liveContexts past = [] ∧ vocabulary past = none
  | .makeTokenizer m => m ∈ liveModels past
  | .backendFree => liveModels past = [] ∧ liveContexts past = [] ∧ vocabulary past = none
  | _ => True

theorem Accounts.wellOwned {o : Held} {past : List LifecycleEvent} (h : Accounts o past) :
    WellOwned past where
  models_le := by
    rw [h.models]
    cases o.model <;> simp
  contexts_le := by
    rw [h.contexts]
    cases o.ctx <;> simp
  context_model := by
    intro c hc m hmem
    rw [h.contexts, Option.mem_toList] at hc
    rw [h.models, Option.mem_toList]
    exact h.parent m c hmem hc
  tokenizer_model := by
    intro m hm
    rw [h.borrowed] at hm
    rw [h.models, Option.mem_toList]
    split at hm
    · exact hm
    · cases hm

theorem History.usesLive {o : Held} {past : List LifecycleEvent} {x : LifecycleEvent}
    (h : History o (past ++ [x])) : UsesLive past x := by
  generalize heq : past ++ [x] = events at h
  have live_model {o : Held} {past : List LifecycleEvent} {m : Handle} (h : History o past)
      (hmodel : o.model = some m) : m ∈ liveModels past := by
    rw [h.accounts.models, hmodel]
    exact List.mem_singleton_self m
  have live_ctx {o : Held} {past : List LifecycleEvent} {c : Handle} (h : History o past)
      (hctx : o.ctx = some c) : c ∈ liveContexts past := by
    rw [h.accounts.contexts, hctx]
    exact List.mem_singleton_self c
  cases h with
  | nil => simp at heq
  | backendInit h hbackend => obtain ⟨rfl, hx⟩ := List.append_inj' heq rfl; cases hx; trivial
  | noModel h p => obtain ⟨rfl, hx⟩ := List.append_inj' heq rfl; cases hx; trivial
  | model h hmodel hctx p => obtain ⟨rfl, hx⟩ := List.append_inj' heq rfl; cases hx; trivial
  | resetTokenizer h => obtain ⟨rfl, hx⟩ := List.append_inj' heq rfl; cases hx; trivial
  | noContext h hmodel =>
      obtain ⟨rfl, hx⟩ := List.append_inj' heq rfl
      cases hx
      exact live_model h hmodel
  | context h hmodel hctx =>
      obtain ⟨rfl, hx⟩ := List.append_inj' heq rfl
      cases hx
      exact live_model h hmodel
  | makeTokenizer h hmodel =>
      obtain ⟨rfl, hx⟩ := List.append_inj' heq rfl
      cases hx
      exact live_model h hmodel
  | free h hctx =>
      obtain ⟨rfl, hx⟩ := List.append_inj' heq rfl
      cases hx
      exact live_ctx h hctx
  | decode h hctx nTokens ok =>
      obtain ⟨rfl, hx⟩ := List.append_inj' heq rfl
      cases hx
      exact live_ctx h hctx
  | memoryClear h hctx =>
      obtain ⟨rfl, hx⟩ := List.append_inj' heq rfl
      cases hx
      exact live_ctx h hctx
  | modelFree h hmodel hctx htokenizer =>
      obtain ⟨rfl, hx⟩ := List.append_inj' heq rfl
      cases hx
      refine ⟨live_model h hmodel, ?_, ?_⟩
      · rw [h.accounts.contexts, hctx]
        rfl
      · rw [h.accounts.borrowed, htokenizer]
        rfl

theorem History.atEvery {o : Held} {past : List LifecycleEvent} (h : History o past) :
    AtEvery UsesLive past := by
  intro earlier x future heq
  rw [heq, List.append_cons] at h
  obtain ⟨o', h'⟩ := h.initial
  exact h'.usesLive

theorem WellOwned.concat_backendFree {past : List LifecycleEvent} (h : WellOwned past) :
    WellOwned (past ++ [.backendFree]) where
  models_le := by simpa [modelUse] using h.models_le
  contexts_le := by simpa [contextUse] using h.contexts_le
  context_model := by simpa [modelUse, contextUse] using h.context_model
  tokenizer_model := by simpa [modelUse, vocabularyAfter] using h.tokenizer_model

private theorem count_released {use : LifecycleEvent → Option (Use Handle)} {event : LifecycleEvent}
    {h : Handle} (hevent : ∀ x, x = event ↔ (use x).bind Use.released? = some h)
    (events : List LifecycleEvent) :
    events.count event = ((events.filterMap use).filterMap Use.released?).count h := by
  rw [List.filterMap_filterMap, List.count, List.count, List.countP_filterMap]
  refine List.countP_congr fun x _ => ?_
  rw [beq_iff_eq, hevent]
  cases (use x).bind Use.released? <;> simp

theorem count_modelFree (events : List LifecycleEvent) (m : Handle) :
    events.count (.llama (.modelFree m)) =
      ((events.filterMap modelUse).filterMap Use.released?).count m := by
  refine count_released (fun x => ?_) events
  cases x with
  | llama call =>
    cases call with
    | modelLoadFromFile p model => cases model <;> simp [modelUse, Use.released?]
    | _ => simp [modelUse, Use.released?]
  | _ => simp [modelUse]

theorem count_free (events : List LifecycleEvent) (c : Handle) :
    events.count (.llama (.free c)) =
      ((events.filterMap contextUse).filterMap Use.released?).count c := by
  refine count_released (fun x => ?_) events
  cases x with
  | llama call =>
    cases call with
    | initFromModel m ctx => cases ctx <;> simp [contextUse, Use.released?]
    | _ => simp [contextUse, Use.released?]
  | _ => simp [contextUse]

end EdgeMind
