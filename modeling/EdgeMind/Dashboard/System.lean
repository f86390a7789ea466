import EdgeMind.Api.Handles
import EdgeMind.Dashboard.Loaded
import EdgeMind.Dashboard.Ownership

/-!
# The dashboard over the runtime

The server with the C interface, the runtime and the engine below it: every call that a handler makes is
answered by the runtime behind the handle, and done to it. What is outside is the files, the clock, the
llama library and the client at the other end of a stream.
-/

namespace EdgeMind

open Framework InferenceEngine

namespace Dashboard

/-- What the surroundings contribute to a request. -/
structure Surroundings where
  load : LoadInput
  generate : GenerateInput
  hasMemory : Bool
  /-- Whether the stream is writable before and behind the event of each piece. -/
  writable : Nat → Bool × Bool
  writableAtEnd : Bool
  info : LlamaInfo
  sizedNow : Int
  reportNow : Int

/-- What a client asks for, or the end of the server. -/
inductive ClientRequest
  | lifecycle (request : LifecycleRequest)
  | reset
  | generate (body : Bytes)
  | health
  | runtime
  | memory
  | usage
  | models
  | stop

/-- The server, with the runtime that it holds, the files, and what has been done: to the library, and
by the runtimes. -/
structure System where
  server : DashboardServer Runtime
  world : World
  events : List LifecycleEvent := []
  effects : List Effect := []

namespace System

/-- What the callback of a stream returns for each piece. -/
def onToken (e : Surroundings) (i : Nat) : Bool := (e.writable i).1 && (e.writable i).2

def outcome (s : System) (e : Surroundings) (prompt : Bytes) : Api.GenerateOutcome :=
  Api.generate s.server.runtime s.world (some prompt) e.generate (some (onToken e))

def promptIn (body : Bytes) : Bytes := (parseJsonString body (text "prompt")).getD []

def answer (s : System) (e : Surroundings) (body : Bytes) : DashboardServer.GenerateAnswer where
  calls := (s.outcome e (promptIn body)).pieces.mapIdx fun i piece =>
    ⟨piece, (e.writable i).1, (e.writable i).2⟩
  status := (s.outcome e (promptIn body)).status
  writableAtEnd := e.writableAtEnd

/-- A request with the answers of the C interface. -/
def request (s : System) (e : Surroundings) : ClientRequest → Request Runtime
  | .lifecycle request => .lifecycle request (DashboardServer.created s.world e.load)
  | .reset => .reset
  | .generate body => .generate body (s.answer e body)
  | .health => .health
  | .runtime => .runtime (Api.getModelInfo s.server.runtime e.info)
  | .memory =>
      let report := (s.server.runtime.map Runtime.memoryReport).getD []
      .memory report report
  | .usage =>
      let report (now : Int) :=
        (s.server.runtime.map fun r => r.usageReport s.world.usage now).getD []
      .usage (report e.sizedNow) (report e.reportNow)
  | .models =>
      let list (bufSize : Nat) :=
        Api.listModels s.world.registry (some s.server.state.registryPath) bufSize
      .models (list 0).1 (list ((list 0).1 + 1)).2
  | .stop => .stop

def callRuntime (s : System) (r : Runtime) (c : Runtime.Call) : System where
  server := { s.server with runtime := some (r.call s.world c).runtime }
  world := (r.call s.world c).world
  events := s.events ++ Runtime.engineEvents r.engine (r.engineCalls s.world c)
  effects := s.effects ++ (r.call s.world c).effects

/-- What a call of the C interface does. -/
def perform (e : Surroundings) (s : System) : ApiCall Runtime → System
  | .create config handle _ =>
      let call : Runtime.Call := .load (Api.toCppConfig (some config)) e.load
      let loaded := ({} : Runtime).call s.world call
      { s with
        world := loaded.world
        events := s.events ++ Runtime.engineEvents {} (Runtime.engineCalls {} s.world call) ++
          -- A runtime whose handle is not handed out is deleted at once.
          if handle.isNone then loaded.runtime.engine.destroyEvents else []
        effects := s.effects ++ loaded.effects }
  | .destroy r => { s with events := s.events ++ r.engine.destroyEvents }
  | .reset r => s.callRuntime r (.resetContext e.hasMemory)
  | .generate r prompt => s.callRuntime r (.generate (Api.promptText (some prompt))
      (Api.withCallback e.generate (some (onToken e))))
  | .getModelInfo _ | .getMemoryReport _ | .getUsageReport _ | .listModels _ => s

def step (s : System) (i : ClientRequest × Surroundings) : System × Reply :=
  let result := s.server.handle (s.request i.2 i.1)
  (result.calls.foldl (perform i.2) { s with server := result.server }, result.reply)

def start (modelRegistryPath : Bytes) (world : World) : System where
  server := .start modelRegistryPath
  world := world

def unloaded (s : System) : System := { s with
  server := s.server.unloadCurrent.1
  events := s.events ++ s.server.runtime.toList.flatMap fun r => r.engine.destroyEvents }

/-- A reset or a generation, on the runtime that is held. -/
inductive Serves (e : Surroundings) : ClientRequest → Runtime.Call → Prop
  | reset : Serves e .reset (.resetContext e.hasMemory)
  | generate (body prompt : Bytes) (h : parseJsonString body (text "prompt") = some prompt) :
      Serves e (.generate body) (.generate (Api.promptText (some prompt))
        (Api.withCallback e.generate (some (onToken e))))

/-- The state after a request. -/
inductive StepCase (s : System) (e : Surroundings) : ClientRequest → System → Prop
  | kept (request : ClientRequest) : StepCase s e request s
  | called {request : ClientRequest} {c : Runtime.Call} (h : Serves e request c) {r : Runtime}
      (hruntime : s.server.runtime = some r) : StepCase s e request (s.callRuntime r c)
  | unloaded (request : ClientRequest) : StepCase s e request s.unloaded
  | created {request : LifecycleRequest} {candidate : RuntimeConfigState}
      (h : s.server.requested request = some candidate) {fresh : Option Runtime}
      {status : Api.Status}
      (hcreate : DashboardServer.created s.world e.load candidate.config = (fresh, status)) :
      StepCase s e (.lifecycle request) { perform e s.unloaded (.create candidate.config fresh status) with
        server := {
          state := if fresh.isSome then candidate else s.server.state
          runtime := fresh
          lastStatus := status } }

theorem perform_destroys (e : Surroundings) (s : System) (runtime : Option Runtime) :
    (runtime.toList.map ApiCall.destroy).foldl (perform e) s =
      { s with events := s.events ++ runtime.toList.flatMap fun r => r.engine.destroyEvents } := by
  cases runtime with
  | none =>
      rw [Option.toList_none, List.flatMap_nil, List.append_nil]
      rfl
  | some r =>
      rw [Option.toList_some, List.flatMap_singleton]
      rfl

/-- A call that reports something and leaves everything as it is. -/
def Reports (call : ApiCall Runtime) : Prop := ∀ (e : Surroundings) (s : System), perform e s call = s

theorem perform_reports (e : Surroundings) (s : System) {calls : List (ApiCall Runtime)}
    (hcalls : ∀ call ∈ calls, Reports call) : calls.foldl (perform e) s = s := by
  induction calls with
  | nil => rfl
  | cons call calls ih =>
      rw [List.forall_mem_cons] at hcalls
      rw [List.foldl_cons, hcalls.1 e s]
      exact ih hcalls.2

private theorem replicate_reports {call : Runtime → ApiCall Runtime}
    (hcall : ∀ r, Reports (call r)) (runtime : Option Runtime) (n : Nat) :
    ∀ c ∈ runtime.toList.flatMap fun r => List.replicate n (call r), Reports c := by
  intro c hc
  obtain ⟨r, -, hc⟩ := List.mem_flatMap.mp hc
  rw [List.eq_of_mem_replicate hc]
  exact hcall r

end System

namespace DashboardServer

variable {H : Type}

inductive GenerateCase (s : DashboardServer H) (body : Bytes) (answer : GenerateAnswer) :
    HandlerResult H → Prop
  | refused (reply : Reply)
      (hreply : (∃ status message, reply = .content status message) ∨
        s.runtime = none ∧ reply = .stream [doneEvent (text "Runtime is not loaded")]) :
      GenerateCase s body answer { server := s, calls := [], reply }
  | called (prompt : Bytes) (hprompt : parseJsonString body (text "prompt") = some prompt)
      (handle : H) (hruntime : s.runtime = some handle) :
      GenerateCase s body answer {
        server := s, calls := [.generate handle prompt], reply := .stream (generateEvents answer) }

theorem generate_case (s : DashboardServer H) (body : Bytes) (answer : GenerateAnswer) :
    GenerateCase s body answer (s.generate body answer) := by
  unfold generate
  split
  · exact .refused _ (.inl ⟨_, _, rfl⟩)
  · split
    · exact .refused _ (.inl ⟨_, _, rfl⟩)
    · exact .refused _ (.inl ⟨_, _, rfl⟩)
    · next prompt _ hprompt =>
        split
        · next hruntime => exact .refused _ (.inr ⟨hruntime, rfl⟩)
        · next handle hruntime => exact .called prompt hprompt handle hruntime

end DashboardServer

namespace System

theorem lifecycle_stepCase (s : System) (e : Surroundings) {request : LifecycleRequest}
    {server : DashboardServer Runtime} {calls : List (ApiCall Runtime)}
    (hcase : DashboardServer.LifecycleCase s.server request
      (DashboardServer.created s.world e.load) server calls) :
    StepCase s e (.lifecycle request) (calls.foldl (perform e) { s with server }) := by
  cases hcase with
  | refused _ => exact .kept _
  | unloaded _ =>
      rw [DashboardServer.unloadCurrent, perform_destroys]
      exact .unloaded _
  | created candidate h fresh status hcreate =>
      rw [DashboardServer.unloadCurrent, List.foldl_append, perform_destroys]
      exact .created h hcreate

theorem step_case (s : System) (i : ClientRequest × Surroundings) :
    StepCase s i.2 i.1 (s.step i).1 := by
  obtain ⟨request, e⟩ := i
  have hreports {calls : List (ApiCall Runtime)} (hcalls : ∀ call ∈ calls, Reports call) :
      StepCase s e request (calls.foldl (perform e) s) := by
    rw [perform_reports e s hcalls]
    exact .kept request
  cases request with
  | lifecycle request => exact lifecycle_stepCase s e (s.server.lifecycle_case request _)
  | reset =>
      change StepCase s e .reset (s.server.reset.calls.foldl (perform e)
        { s with server := s.server.reset.server })
      unfold DashboardServer.reset
      cases hruntime : s.server.runtime with
      | none => exact .kept _
      | some r => exact .called .reset hruntime
  | generate body =>
      have hcase := s.server.generate_case body (s.answer e body)
      change StepCase s e (.generate body) ((s.server.generate body (s.answer e body)).calls.foldl
        (perform e) { s with server := (s.server.generate body (s.answer e body)).server })
      generalize s.server.generate body (s.answer e body) = result at hcase ⊢
      cases hcase with
      | refused _ _ => exact .kept _
      | called prompt hprompt r hruntime => exact .called (.generate body prompt hprompt) hruntime
  | health => exact .kept _
  | runtime =>
      refine hreports fun call hcall => ?_
      change call ∈ if s.server.runtimeLoaded then _ else [] at hcall
      split at hcall
      · obtain ⟨r, -, rfl⟩ := List.mem_map.mp hcall
        exact fun _ _ => rfl
      · cases hcall
  | memory => exact hreports (replicate_reports (fun _ _ _ => rfl) _ _)
  | usage => exact hreports (replicate_reports (fun _ _ _ => rfl) _ _)
  | models =>
      refine hreports fun call hcall => ?_
      rw [List.eq_of_mem_replicate hcall]
      exact fun _ _ => rfl
  | stop =>
      change StepCase s e .stop ((s.server.runtime.toList.map ApiCall.destroy).foldl (perform e) _)
      rw [perform_destroys]
      exact .unloaded _

theorem perform_create_events (e : Surroundings) (s : System) {config : Api.Config}
    {fresh : Option Runtime} {status : Api.Status}
    (hcreate : DashboardServer.created s.world e.load config = (fresh, status)) :
    (perform e s (.create config fresh status)).events =
      s.events ++ Api.createEvents (some config) s.world e.load := by
  have hhandle : (Api.create (some config) s.world e.load).handle = fresh :=
    congrArg Prod.fst hcreate
  rw [Api.createEvents, hhandle, ← List.append_assoc]
  rfl

theorem step_lives {s : System} (h : Api.Lives s.server.runtime s.events)
    (i : ClientRequest × Surroundings) :
    Api.Lives (s.step i).1.server.runtime (s.step i).1.events := by
  have hcase := s.step_case i
  obtain ⟨request, e⟩ := i
  generalize (s.step _).1 = after at hcase ⊢
  cases hcase with
  | kept _ => exact h
  | called _ hruntime =>
      rw [hruntime] at h
      exact h.call s.world _
  | unloaded _ => exact h.unload
  | @created _ candidate _ fresh status hcreate =>
      have hhandle : (Api.create (some candidate.config) s.world e.load).handle = fresh :=
        congrArg Prod.fst hcreate
      have hcreated := h.unload.created (some candidate.config) s.world e.load
      rw [hhandle] at hcreated
      change Api.Lives fresh (perform e s.unloaded (.create candidate.config fresh status)).events
      rw [perform_create_events e s.unloaded hcreate]
      exact hcreated

theorem run_lives (modelRegistryPath : Bytes) (world : World)
    (requests : List (ClientRequest × Surroundings)) :
    let after := final step (start modelRegistryPath world) requests
    Api.Lives after.server.runtime after.events :=
  final_invariant (fun s : System => Api.Lives s.server.runtime s.events) (fun _ => True)
    (fun _ i _ h => step_lives h i) .start fun _ _ => trivial

theorem step_stop (s : System) (e : Surroundings) : (s.step (.stop, e)).1.server.runtime = none := by
  change ((s.server.runtime.toList.map ApiCall.destroy).foldl (perform e) _).server.runtime = none
  rw [perform_destroys]
  rfl

/-- Over any run of requests, with any files and any answers of the llama library, at most one model and
one context are live at every point and only what is live is used. Once the server has stopped nothing is
live any more. -/
theorem dashboard_single_instance (modelRegistryPath : Bytes) (world : World)
    (requests : List (ClientRequest × Surroundings)) (e : Surroundings) :
    let after := final step (start modelRegistryPath world) (requests ++ [(.stop, e)])
    SingleInstance after.events ∧ Ended after.events := by
  intro after
  have hlives : Api.Lives after.server.runtime after.events :=
    run_lives modelRegistryPath world (requests ++ [(.stop, e)])
  have hnone : after.server.runtime = none := by
    change (final step _ (requests ++ [_])).server.runtime = none
    rw [final_append]
    exact step_stop _ e
  rw [hnone] at hlives
  exact ⟨hlives.single, hlives.ended⟩

end System

end Dashboard

end EdgeMind
