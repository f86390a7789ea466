import EdgeMind.Core.Pipeline
import EdgeMind.Inference.Lifecycle

/-!
# The engine behind a runtime

A call of the runtime calls its engine once or not at all, and what it does to the llama library is what
that call of the engine does. So the engine of a runtime lives the life of the calls that got through to
it.
-/

namespace EdgeMind

open Framework

def Effect.llama? : Effect → Option LlamaCall
  | .llama call => some call
  | _ => none

def LifecycleEvent.llama? : LifecycleEvent → Option LlamaCall
  | .llama call => some call
  | _ => none

namespace InferenceEngine

theorem llama_loadEvents (calls : List LlamaCall) :
    (calls.flatMap loadEvent).filterMap LifecycleEvent.llama? = calls := by
  induction calls with
  | nil => rfl
  | cons call calls ih =>
      rw [List.flatMap_cons, List.filterMap_append, ih]
      cases call with
      | initFromModel model context => cases context <;> rfl
      | _ => rfl

theorem llama_events (calls : List LlamaCall) :
    (calls.map LifecycleEvent.llama).filterMap LifecycleEvent.llama? = calls := by
  rw [List.filterMap_map]
  exact List.filterMap_some

end InferenceEngine

namespace Runtime

def Loads (w : World) (config : RuntimeConfig) (input : LoadInput) : Prop :=
  validateConfig config = [] ∧ (quotaStage w config input).2.allowed = true ∧
    (resolution w config).status = .resolved ∧
    isVerified (importStage w config input).result.status = true

instance (w : World) (config : RuntimeConfig) (input : LoadInput) :
    Decidable (Loads w config input) :=
  inferInstanceAs (Decidable (_ ∧ _))

def Admits (r : Runtime) (w : World) (input : GenerateInput) : Prop :=
  r.isReady = true ∧ r.usageManager.all (fun statePath =>
    (UsageManager.checkAdmission w.usage statePath (toUsagePolicy r.config) input.admissionNow
      input.admissionSave).2.allowed) = true

instance (r : Runtime) (w : World) (input : GenerateInput) : Decidable (r.Admits w input) :=
  inferInstanceAs (Decidable (_ ∧ _))

def engineCalls (r : Runtime) (w : World) : Call → List InferenceEngine.Call
  | .load config input =>
      if Loads w config input then [.load w.models (resolvedConfig w config) input.llama] else []
  | .unload => [.unload]
  | .generate prompt input => if r.Admits w input then [.generate prompt input.llama] else []
  | .resetContext hasMemory => [.resetContext hasMemory]

def engineEvents (e : InferenceEngine) (calls : List InferenceEngine.Call) : List LifecycleEvent :=
  (trace InferenceEngine.step e calls).flatMap Entry.output

@[simp]
theorem engineEvents_singleton (e : InferenceEngine) (call : InferenceEngine.Call) :
    engineEvents e [call] = (e.step call).2 := List.append_nil _

/-- The engine is the one that its calls lead to, and their calls of the library have been made. -/
structure Follows (r : Runtime) (calls : List InferenceEngine.Call) (result : CallResult) :
    Prop where
  engine : result.runtime.engine = final InferenceEngine.step r.engine calls
  llama : result.effects.filterMap Effect.llama? =
    (engineEvents r.engine calls).filterMap LifecycleEvent.llama?

theorem llama_effects (calls : List LlamaCall) :
    (calls.map Effect.llama).filterMap Effect.llama? = calls := by
  rw [List.filterMap_map]
  exact List.filterMap_some

theorem filterMap_sessionEffects (w : World) (config : RuntimeConfig) (input : LoadInput) :
    (sessionEffects w config input).filterMap Effect.llama? = [] := rfl

theorem load_follows (r : Runtime) (w : World) (config : RuntimeConfig) (input : LoadInput) :
    r.Follows (r.engineCalls w (.load config input)) (r.load w config input) := by
  have hcase := load_case r w config input
  unfold engineCalls
  dsimp only
  generalize r.load w config input = result at hcase
  cases hcase with
  | invalid hconfig =>
      rw [if_neg fun h => hconfig h.1]
      exact ⟨rfl, rfl⟩
  | denied _ hquota =>
      rw [if_neg fun h => hquota h.2.1]
      exact ⟨rfl, rfl⟩
  | unresolved _ _ hresolution =>
      rw [if_neg fun h => hresolution h.2.2.1]
      exact ⟨rfl, rfl⟩
  | rejected _ _ _ hverification =>
      rw [if_neg fun h => hverification h.2.2.2]
      exact ⟨rfl, rfl⟩
  | engine hconfig hquota hresolution hverification =>
      rw [if_pos ⟨hconfig, hquota, hresolution, hverification⟩]
      constructor
      · unfold loadEngine
        dsimp only
        split <;> rfl
      · rw [loadEngine_effects, List.filterMap_append, List.filterMap_append,
          filterMap_sessionEffects, engineEvents_singleton]
        change _ = ((r.engine.load w.models (resolvedConfig w config) input.llama).calls.flatMap
          InferenceEngine.loadEvent).filterMap LifecycleEvent.llama?
        rw [InferenceEngine.llama_loadEvents]
        exact llama_effects _

theorem generateAdmitted_follows (r : Runtime) (w : World) (prompt : Bytes)
    (input : GenerateInput) {effects : List Effect} (heffects : effects.filterMap Effect.llama? = []) :
    r.Follows [.generate prompt input.llama] (r.generateAdmitted w prompt input effects) := by
  constructor
  · rw [generateAdmitted_runtime]
    rfl
  · rw [engineEvents_singleton]
    change _ = ((r.engine.generate prompt input.llama).calls.map LifecycleEvent.llama).filterMap
      LifecycleEvent.llama?
    rw [InferenceEngine.llama_events]
    unfold generateAdmitted
    dsimp only
    split
    · rw [List.filterMap_append, heffects, llama_effects, List.nil_append]
    · rw [List.filterMap_append, List.filterMap_append, heffects, llama_effects, List.nil_append]
      exact List.append_nil _

theorem generate_follows (r : Runtime) (w : World) (prompt : Bytes) (input : GenerateInput) :
    r.Follows (r.engineCalls w (.generate prompt input)) (r.generate w prompt input) := by
  unfold engineCalls
  dsimp only
  by_cases hready : r.isReady = true
  · unfold generate
    rw [if_neg (not_not_intro hready)]
    cases hmanager : r.usageManager with
    | none =>
        rw [if_pos ⟨hready, by rw [hmanager]; rfl⟩]
        exact generateAdmitted_follows r w prompt input rfl
    | some statePath =>
        dsimp only
        by_cases hallowed : (UsageManager.checkAdmission w.usage statePath (toUsagePolicy r.config)
            input.admissionNow input.admissionSave).2.allowed = true
        · rw [if_pos ⟨hready, by rw [hmanager]; exact hallowed⟩, if_neg (not_not_intro hallowed)]
          exact generateAdmitted_follows r _ prompt input rfl
        · have hdenied : ¬r.Admits w input := by
            rintro ⟨-, hall⟩
            rw [hmanager] at hall
            exact hallowed hall
          rw [if_neg hdenied, if_pos hallowed]
          exact ⟨rfl, rfl⟩
  · rw [if_neg fun h => hready h.1, generate, if_pos hready]
    exact ⟨rfl, rfl⟩

theorem call_follows (r : Runtime) (w : World) (c : Call) :
    r.Follows (r.engineCalls w c) (r.call w c) := by
  cases c with
  | load config input => exact load_follows r w config input
  | generate prompt input => exact generate_follows r w prompt input
  | unload =>
      refine ⟨rfl, (llama_effects r.engine.unload.2).trans ?_⟩
      change _ = (r.engine.unloadEvents ++ []).filterMap LifecycleEvent.llama?
      rw [List.append_nil, InferenceEngine.unloadEvents]
      exact (InferenceEngine.llama_events _).symm
  | resetContext hasMemory =>
      refine ⟨rfl, (llama_effects (r.engine.resetContext hasMemory).2).trans ?_⟩
      change _ = (engineEvents r.engine [.resetContext hasMemory]).filterMap LifecycleEvent.llama?
      rw [engineEvents_singleton]
      exact (InferenceEngine.llama_events _).symm

end Runtime

end EdgeMind
