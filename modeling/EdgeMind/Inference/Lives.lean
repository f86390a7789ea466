import EdgeMind.Inference.Lifecycle

/-!
# One engine after the other

A process that destroys an engine before it makes the next one never has more than one model and one
context, and starts the backend anew only once it has been freed. The events of lives that follow each
other keep what the events of one life keep.
-/

namespace EdgeMind

open Framework

/-- At most one model and one context are live, and the backend has been initialized as often as it has
been freed, or once more. -/
structure AtMostOne (past : List LifecycleEvent) : Prop where
  models : (liveModels past).length ≤ 1
  contexts : (liveContexts past).length ≤ 1
  freed : past.count .backendFree ≤ past.count (.llama .backendInit)
  initialized : past.count (.llama .backendInit) ≤ past.count .backendFree + 1

/-- At every point at most one of everything is live, and only what is live is used. -/
structure SingleInstance (events : List LifecycleEvent) : Prop where
  every : ∀ past future, events = past ++ future → AtMostOne past
  uses : AtEvery UsesLive events

/-- Nothing is live any more, and the backend has been freed as often as it was initialized. -/
structure Ended (events : List LifecycleEvent) : Prop where
  models : liveModels events = []
  contexts : liveContexts events = []
  vocabulary : vocabulary events = none
  backend : events.count .backendFree = events.count (.llama .backendInit)

theorem Ended.nil : Ended [] := ⟨rfl, rfl, rfl, rfl⟩

section Append

variable {events more : List LifecycleEvent}

private theorem live_append (use : LifecycleEvent → Option (Use Handle))
    (h : live (events.filterMap use) = []) :
    live ((events ++ more).filterMap use) = live (more.filterMap use) := by
  unfold live at h ⊢
  rw [List.filterMap_append, List.foldl_append, h]

theorem Ended.liveModels_append (h : Ended events) :
    liveModels (events ++ more) = liveModels more := live_append modelUse h.models

theorem Ended.liveContexts_append (h : Ended events) :
    liveContexts (events ++ more) = liveContexts more := live_append contextUse h.contexts

theorem Ended.vocabulary_append (h : Ended events) :
    EdgeMind.vocabulary (events ++ more) = EdgeMind.vocabulary more := by
  have hnone := h.vocabulary
  unfold EdgeMind.vocabulary at hnone ⊢
  rw [List.foldl_append, hnone]

theorem Ended.usesLive_append (h : Ended events) (x : LifecycleEvent) :
    UsesLive (events ++ more) x ↔ UsesLive more x := by
  unfold UsesLive
  rw [h.liveModels_append, h.liveContexts_append, h.vocabulary_append]

theorem Ended.append (h : Ended events) (hmore : Ended more) : Ended (events ++ more) where
  models := h.liveModels_append.trans hmore.models
  contexts := h.liveContexts_append.trans hmore.contexts
  vocabulary := h.vocabulary_append.trans hmore.vocabulary
  backend := by
    rw [List.count_append, List.count_append, h.backend, hmore.backend]

theorem AtMostOne.append (h : Ended events) (hmore : AtMostOne more) :
    AtMostOne (events ++ more) where
  models := by
    rw [h.liveModels_append]
    exact hmore.models
  contexts := by
    rw [h.liveContexts_append]
    exact hmore.contexts
  freed := by
    have hfreed := hmore.freed
    rw [List.count_append, List.count_append, h.backend]
    omega
  initialized := by
    have hinitialized := hmore.initialized
    rw [List.count_append, List.count_append, h.backend]
    omega

theorem SingleInstance.append (hevents : SingleInstance events) (h : Ended events)
    (hmore : SingleInstance more) : SingleInstance (events ++ more) where
  every past future heq := by
    rcases List.append_eq_append_iff.mp heq with ⟨rest, rfl, hrest⟩ | ⟨rest, hpast, -⟩
    · exact .append h (hmore.every rest future hrest)
    · exact hevents.every past rest hpast
  uses := hevents.uses.append (hmore.uses.imp fun _ x => (h.usesLive_append x).mpr)

theorem SingleInstance.left (h : SingleInstance (events ++ more)) : SingleInstance events where
  every past future heq := h.every past (future ++ more) (by rw [heq, List.append_assoc])
  uses := h.uses.left

end Append

namespace InferenceEngine

private theorem history_atMostOne {o : Held} {past : List LifecycleEvent} (h : History o past) :
    AtMostOne past := by
  have haccounts := h.accounts
  have howned := haccounts.wellOwned
  have hfrees := List.count_eq_zero_of_not_mem haccounts.frees
  refine ⟨howned.models_le, howned.contexts_le, ?_, ?_⟩
  · rw [hfrees]
    exact Nat.zero_le _
  · rw [hfrees, haccounts.inits]
    split <;> decide

private theorem history_single {o : Held} {past : List LifecycleEvent} (h : History o past) :
    SingleInstance past where
  every before future heq := by
    obtain ⟨o', h'⟩ := History.initial future (heq ▸ h)
    exact history_atMostOne h'
  uses := h.atEvery

theorem life_single (calls : List Call) :
    SingleInstance (lifeEvents calls) ∧ Ended (lifeEvents calls) := by
  obtain ⟨o, past, h, hmodel, hctx, htokenizer, hevents⟩ := life_history calls
  have haccounts := h.accounts
  have hfrees := List.count_eq_zero_of_not_mem haccounts.frees
  have hinits := haccounts.inits
  have hmodels : liveModels past = [] := by rw [haccounts.models, hmodel]; rfl
  have hcontexts : liveContexts past = [] := by rw [haccounts.contexts, hctx]; rfl
  have hvocabulary : vocabulary past = none := by rw [haccounts.borrowed, htokenizer]; rfl
  rw [hevents]
  cases hbackend : o.backend with
  | false =>
      rw [hbackend] at hinits
      rw [if_neg Bool.false_ne_true, List.append_nil]
      exact ⟨history_single h, hmodels, hcontexts, hvocabulary, by rw [hfrees, hinits]; rfl⟩
  | true =>
      rw [hbackend] at hinits
      rw [if_pos rfl]
      have hended : Ended (past ++ [.backendFree]) := by
        refine ⟨?_, ?_, ?_, ?_⟩
        · rw [liveModels_concat]
          exact hmodels
        · rw [liveContexts_concat]
          exact hcontexts
        · rw [vocabulary_concat]
          exact hvocabulary
        · simp [hfrees, hinits]
      refine ⟨⟨fun before future heq => ?_, ?_⟩, hended⟩
      · rcases List.eq_nil_or_concat' future with rfl | ⟨future, x, rfl⟩
        · rw [List.append_nil] at heq
          rw [← heq]
          have hlast := hended.backend
          refine ⟨?_, ?_, hlast.le, ?_⟩
          · rw [hended.models]
            exact Nat.zero_le 1
          · rw [hended.contexts]
            exact Nat.zero_le 1
          · omega
        · rw [← List.append_assoc] at heq
          exact (history_single h).every before future (List.append_inj' heq rfl).1
      · exact atEvery_concat h.atEvery ⟨hmodels, hcontexts, hvocabulary⟩

theorem calls_single (calls : List Call) : SingleInstance (callEvents calls) :=
  (life_single calls).1.left

/-- Lives that follow each other, and the beginning of the next one. -/
def livesEvents (lives : List (List Call)) (current : List Call) : List LifecycleEvent :=
  lives.flatMap lifeEvents ++ callEvents current

theorem lives_ended (lives : List (List Call)) : Ended (lives.flatMap lifeEvents) := by
  induction lives with
  | nil => exact .nil
  | cons life lives ih => exact (life_single life).2.append ih

theorem lives_single (lives : List (List Call)) (current : List Call) :
    SingleInstance (livesEvents lives current) := by
  induction lives with
  | nil => exact calls_single current
  | cons life lives ih =>
      rw [livesEvents, List.flatMap_cons, List.append_assoc]
      exact (life_single life).1.append (life_single life).2 ih

end InferenceEngine

end EdgeMind
