import EdgeMind.Api.Calls
import EdgeMind.Core.QuotaStage
import EdgeMind.Core.UsageRuns
import EdgeMind.Inference.Lives

/-!
# The runtime behind a handle

A client creates runtimes one after the other: it holds a handle or none, calls the runtime behind it, and
destroys it before it creates the next one. What the engines do to the library are then lives that follow
each other, and what the runtimes do to the usage state is the account of one configuration, as long as
they all have its limits and its path.
-/

namespace EdgeMind

open Framework InferenceEngine UsageAccounting UsageManager UsageRun

namespace Api

/-- What a create call does to the library: a runtime whose handle is not handed out is deleted at once. -/
def createEvents (config : Option Config) (w : World) (input : LoadInput) : List LifecycleEvent :=
  let call : Runtime.Call := .load (toCppConfig config) input
  Runtime.engineEvents {} (Runtime.engineCalls {} w call) ++
    if (create config w input).handle.isNone then
      (({} : Runtime).call w call).runtime.engine.destroyEvents
    else []

theorem callEvents_append (calls more : List InferenceEngine.Call) :
    callEvents (calls ++ more) =
      callEvents calls ++ Runtime.engineEvents (final InferenceEngine.step {} calls) more := by
  rw [callEvents, callEvents, Runtime.engineEvents, trace_append, List.flatMap_append]

/-- The events are those of whole lives and, while a runtime is held, of the calls of its engine. -/
def Lives (runtime : Option Runtime) (events : List LifecycleEvent) : Prop :=
  ∃ lives current, events = livesEvents lives current ∧ (runtime = none → current = []) ∧
    ∀ r, runtime = some r → r.engine = final InferenceEngine.step {} current

namespace Lives

variable {r : Runtime} {runtime : Option Runtime} {events : List LifecycleEvent}

theorem start : Lives none [] := by
  refine ⟨[], [], rfl, fun _ => rfl, fun r hr => ?_⟩
  cases hr

theorem call (h : Lives (some r) events) (w : World) (c : Runtime.Call) :
    Lives (some (r.call w c).runtime)
      (events ++ Runtime.engineEvents r.engine (r.engineCalls w c)) := by
  obtain ⟨lives, current, rfl, -, hengine⟩ := h
  refine ⟨lives, current ++ r.engineCalls w c, ?_, fun hnone => ?_, ?_⟩
  · rw [livesEvents, livesEvents, callEvents_append, hengine r rfl, List.append_assoc]
  · cases hnone
  · intro r' hr'
    obtain rfl := Option.some.inj hr'
    rw [(r.call_follows w c).engine, final_append, hengine r rfl]

theorem destroy (h : Lives (some r) events) : Lives none (events ++ r.engine.destroyEvents) := by
  obtain ⟨lives, current, rfl, -, hengine⟩ := h
  refine ⟨lives ++ [current], [], ?_, fun _ => rfl, fun r' hr' => ?_⟩
  swap
  · cases hr'
  rw [hengine r rfl, livesEvents, livesEvents, List.flatMap_append, List.append_assoc]
  simp [lifeEvents, callEvents, trace]

theorem created (h : Lives none events) (config : Option Config) (w : World) (input : LoadInput) :
    Lives (create config w input).handle (events ++ createEvents config w input) := by
  have hfresh : Lives (some ({} : Runtime)) events := by
    obtain ⟨lives, current, hevents, hnone, -⟩ := h
    refine ⟨lives, current, hevents, fun hsome => ?_, fun r hr => ?_⟩
    · cases hsome
    · obtain rfl := Option.some.inj hr
      rw [hnone rfl]
      rfl
  have hloaded := hfresh.call w (.load (toCppConfig config) input)
  unfold createEvents
  dsimp only
  cases hhandle : (create config w input).handle with
  | none =>
      rw [← List.append_assoc]
      exact hloaded.destroy
  | some r =>
      have hr : r = (({} : Runtime).call w (.load (toCppConfig config) input)).runtime :=
        create_handle hhandle
      rw [← hr] at hloaded
      rw [Option.isNone_some, if_neg Bool.false_ne_true, List.append_nil]
      exact hloaded

theorem unload (h : Lives runtime events) :
    Lives none (events ++ runtime.toList.flatMap fun r => r.engine.destroyEvents) := by
  cases runtime with
  | none =>
      rw [Option.toList_none, List.flatMap_nil, List.append_nil]
      exact h
  | some r =>
      rw [Option.toList_some, List.flatMap_singleton]
      exact h.destroy

theorem single (h : Lives runtime events) : SingleInstance events := by
  obtain ⟨lives, current, rfl, -, -⟩ := h
  exact lives_single lives current

theorem ended (h : Lives none events) : Ended events := by
  obtain ⟨lives, current, rfl, hnone, -⟩ := h
  rw [hnone rfl, livesEvents]
  exact (lives_ended lives).append .nil

end Lives

/-- What of a configuration the account depends on. -/
structure SameAccount (config config' : RuntimeConfig) : Prop where
  path : config.usageStatePath = config'.usageStatePath
  policy : toUsagePolicy config = toUsagePolicy config'
  maxTokens : config.maxTokens = config'.maxTokens

theorem SameAccount.tracks {config config' : RuntimeConfig} (h : SameAccount config config')
    (usage : FileSystem) (points : List UsagePoint) :
    Tracks config usage points ↔ Tracks config' usage points := by
  rw [Tracks, h.path, h.policy, h.maxTokens]

/-- A runtime that is ready keeps the account of the configuration. -/
def KeepsAccount (config : RuntimeConfig) (r : Runtime) : Prop :=
  r.ready = true → ∃ config', validateConfig config' = [] ∧ SameAccount config' config ∧
    Configured config' r

/-- The runtime that is held keeps the account, and the usage files are those of its transactions. -/
structure Account (config : RuntimeConfig) (runtime : Option Runtime) (usage : FileSystem)
    (points : List UsagePoint) : Prop where
  keeps : ∀ r, runtime = some r → KeepsAccount config r
  tracked : Clocked points → Tracks config usage points

/-- A call under a configuration of the account, with saves that succeed. -/
def Kept (config : RuntimeConfig) : Runtime.Call → Prop
  | .load config' input =>
      SameAccount config' config ∧ input.admissionSave = .ok ∧ input.sessionSave = .ok
  | .generate _ input => input.admissionSave = .ok ∧ input.recordSave = .ok
  | _ => True

theorem generate_unready {r : Runtime} (hready : ¬r.ready = true) (w : World) (prompt : Bytes)
    (input : GenerateInput) :
    let result := r.generate w prompt input
    result.runtime.ready = r.ready ∧ result.world = w ∧ result.effects = [] := by
  have hnot : ¬r.isReady = true := fun h => hready (Bool.and_eq_true_iff.mp h).1
  rw [Runtime.generate, if_pos hnot]
  exact ⟨rfl, rfl, rfl⟩

theorem load_invalid {r : Runtime} {config : RuntimeConfig} (hconfig : validateConfig config ≠ [])
    (w : World) (input : LoadInput) :
    let result := r.load w config input
    result.runtime.ready = false ∧ result.world = w ∧ result.effects = [] := by
  have hcase := Runtime.load_case r w config input
  dsimp only
  generalize r.load w config input = result at hcase
  cases hcase with
  | invalid _ => exact ⟨rfl, rfl, rfl⟩
  | denied h _ => exact absurd h hconfig
  | unresolved h _ _ => exact absurd h hconfig
  | rejected h _ _ _ => exact absurd h hconfig
  | engine h _ _ _ => exact absurd h hconfig

namespace Account

variable {config : RuntimeConfig} {runtime : Option Runtime} {r : Runtime} {w : World}
  {points : List UsagePoint}

theorem start {usage : FileSystem} (habsent : usage config.usageStatePath = .absent) :
    Account config none usage [] where
  keeps r hr := by cases hr
  tracked _ := tracked_nil habsent

theorem dropped {usage : FileSystem} (h : Account config runtime usage points) :
    Account config none usage points where
  keeps r hr := by cases hr
  tracked := h.tracked

theorem load {usage : FileSystem} (h : Account config runtime usage points) (r : Runtime)
    (husage : w.usage = usage) {config' : RuntimeConfig} (haccount : SameAccount config' config)
    {input : LoadInput} (hadmission : input.admissionSave = .ok) (hsession : input.sessionSave = .ok) :
    let result := r.load w config' input
    Account config (some result.runtime) result.world.usage
      (points ++ result.effects.filterMap Effect.point?) := by
  subst husage
  refine ⟨fun r' hr' hready => ?_, ?_⟩
  · obtain rfl := Option.some.inj hr'
    by_cases hvalid : validateConfig config' = []
    · exact ⟨config', hvalid, haccount, load_configured r w config' input⟩
    · rw [(load_invalid hvalid w input).1] at hready
      cases hready
  · by_cases hvalid : validateConfig config' = []
    · rw [← haccount.tracks]
      exact load_tracked hvalid (fun hclocked => (haccount.tracks _ _).mpr (h.tracked hclocked)) r
        hadmission hsession
    · obtain ⟨-, hkept, heffects⟩ := load_invalid (r := r) hvalid w input
      rw [heffects, hkept, List.filterMap_nil, List.append_nil]
      exact h.tracked

theorem generate (h : Account config (some r) w.usage points) (prompt : Bytes)
    {input : GenerateInput} (hadmission : input.admissionSave = .ok)
    (hrecord : input.recordSave = .ok) :
    let result := r.generate w prompt input
    Account config (some result.runtime) result.world.usage
      (points ++ result.effects.filterMap Effect.point?) := by
  by_cases hready : r.ready = true
  · obtain ⟨config', hconfig, haccount, hconfigured⟩ := h.keeps r rfl hready
    refine ⟨fun r' hr' _ => ?_, ?_⟩
    · obtain rfl := Option.some.inj hr'
      exact ⟨config', hconfig, haccount, generate_configured hconfigured w prompt input⟩
    · rw [← haccount.tracks]
      exact generate_tracked hconfig hconfigured
        (fun hclocked => (haccount.tracks _ _).mpr (h.tracked hclocked)) prompt hadmission hrecord
  · obtain ⟨hkept, hworld, heffects⟩ := generate_unready hready w prompt input
    refine ⟨fun r' hr' hready' => ?_, ?_⟩
    · obtain rfl := Option.some.inj hr'
      exact absurd (hkept ▸ hready') hready
    · rw [heffects, hworld, List.filterMap_nil, List.append_nil]
      exact h.tracked

theorem call (h : Account config (some r) w.usage points) {c : Runtime.Call} (hc : Kept config c) :
    let result := r.call w c
    Account config (some result.runtime) result.world.usage
      (points ++ result.effects.filterMap Effect.point?) := by
  cases c with
  | load config' input => exact h.load r rfl hc.1 hc.2.1 hc.2.2
  | generate prompt input => exact h.generate prompt hc.1 hc.2
  | unload =>
      intro result
      have hpoints : points ++ result.effects.filterMap Effect.point? = points := points_llama _ _
      rw [hpoints]
      refine ⟨fun r' hr' hready => ?_, h.tracked⟩
      obtain rfl := Option.some.inj hr'
      cases hready
  | resetContext hasMemory =>
      intro result
      have hpoints : points ++ result.effects.filterMap Effect.point? = points := points_llama _ _
      rw [hpoints]
      refine ⟨fun r' hr' => ?_, h.tracked⟩
      obtain rfl := Option.some.inj hr'
      exact h.keeps r rfl

theorem created (h : Account config none w.usage points) {c : Option Config}
    (haccount : SameAccount (toCppConfig c) config) {input : LoadInput}
    (hadmission : input.admissionSave = .ok) (hsession : input.sessionSave = .ok) :
    let result := create c w input
    Account config result.handle result.world.usage
      (points ++ result.effects.filterMap Effect.point?) := by
  have hloaded := h.load {} rfl haccount hadmission hsession
  refine ⟨fun r hr => ?_, hloaded.tracked⟩
  exact hloaded.keeps r (congrArg some (create_handle hr).symm)

end Account

end Api

end EdgeMind
