import EdgeMind.Dashboard.Server
import EdgeMind.Framework.Ownership

/-!
# The one runtime of the dashboard

Over any run of requests the handles that were created and not yet destroyed are the one the server
holds, or none. A load destroys the handle that is held before it creates the next one, and nothing
touches a handle that is gone.
-/

namespace EdgeMind

open Framework

namespace Dashboard

namespace ApiCall

variable {H : Type}

def use? : ApiCall H → Option (Use H)
  | .create _ (some handle) _ => some (.acquire handle)
  | .destroy handle => some (.release handle)
  | _ => none

/-- The handle that a call is made on, if it is made on one. -/
def on? : ApiCall H → Option H
  | .create _ _ _ | .listModels _ => none
  | .destroy handle | .reset handle | .generate handle _ | .getModelInfo handle
  | .getMemoryReport handle | .getUsageReport handle => some handle

/-- A call on a handle that does not destroy it. -/
structure Touches (handle : H) (call : ApiCall H) : Prop where
  use : call.use? = none
  on : call.on? = some handle

/-- A call that leaves alive what is held: it is made on that, or on the registry. -/
def Harmless (held : Option H) (call : ApiCall H) : Prop :=
  (∃ handle, held = some handle ∧ call.Touches handle) ∨ ∃ path, call = .listModels path

end ApiCall

namespace DashboardServer

variable {H : Type}

/-- The server is left as it is, and the calls are made on the runtime that is held, or on none. -/
def Touching (s : DashboardServer H) (result : HandlerResult H) : Prop :=
  result.server = s ∧ ∀ call ∈ result.calls, call.Harmless s.runtime

theorem generate_touching (s : DashboardServer H) (body : Bytes) (answer : GenerateAnswer) :
    s.Touching (s.generate body answer) := by
  unfold generate
  split
  · exact ⟨rfl, fun _ h => absurd h List.not_mem_nil⟩
  · split
    · exact ⟨rfl, fun _ h => absurd h List.not_mem_nil⟩
    · exact ⟨rfl, fun _ h => absurd h List.not_mem_nil⟩
    · split
      · exact ⟨rfl, fun _ h => absurd h List.not_mem_nil⟩
      · next prompt _ _ _ handle hruntime =>
          refine ⟨rfl, fun call hcall => .inl ⟨handle, hruntime, ?_⟩⟩
          rw [List.mem_singleton.mp hcall]
          exact ⟨rfl, rfl⟩

theorem reset_touching (s : DashboardServer H) : s.Touching s.reset := by
  unfold reset
  split
  · exact ⟨rfl, fun _ h => absurd h List.not_mem_nil⟩
  · next handle hruntime =>
      refine ⟨rfl, fun call hcall => .inl ⟨handle, hruntime, ?_⟩⟩
      rw [List.mem_singleton.mp hcall]
      exact ⟨rfl, rfl⟩

private theorem report_touching (s : DashboardServer H) (n : Nat) {call : H → ApiCall H}
    (hcall : ∀ handle, (call handle).Touches handle) (reply : Reply) : s.Touching {
      server := s
      calls := s.runtime.toList.flatMap fun handle => List.replicate n (call handle)
      reply } := by
  refine ⟨rfl, fun c hc => ?_⟩
  obtain ⟨handle, hhandle, hc⟩ := List.mem_flatMap.mp hc
  rw [List.eq_of_mem_replicate hc]
  exact .inl ⟨handle, Option.mem_toList.mp hhandle, hcall handle⟩

theorem runtime_touching (s : DashboardServer H) (info : Option InferenceEngine.ModelInfo) :
    s.Touching (s.handle (.runtime info)) := by
  refine ⟨rfl, fun call hcall => ?_⟩
  change call ∈ if s.runtimeLoaded then _ else [] at hcall
  split at hcall
  · obtain ⟨handle, hhandle, rfl⟩ := List.mem_map.mp hcall
    exact .inl ⟨handle, Option.mem_toList.mp hhandle, rfl, rfl⟩
  · exact absurd hcall List.not_mem_nil

theorem handle_touching (s : DashboardServer H) {request : Request H}
    (hlifecycle : ∀ r create, request ≠ .lifecycle r create) (hstop : request ≠ .stop) :
    s.Touching (s.handle request) := by
  cases request with
  | lifecycle r create => exact absurd rfl (hlifecycle r create)
  | reset => exact s.reset_touching
  | generate body answer => exact s.generate_touching body answer
  | health => exact ⟨rfl, fun _ h => absurd h List.not_mem_nil⟩
  | runtime info => exact s.runtime_touching info
  | memory sized report => exact s.report_touching _ (fun _ => ⟨rfl, rfl⟩) _
  | usage sized report => exact s.report_touching _ (fun _ => ⟨rfl, rfl⟩) _
  | models n written => exact ⟨rfl, fun _ h => .inr ⟨_, List.eq_of_mem_replicate h⟩⟩
  | stop => exact absurd rfl hstop

end DashboardServer

/-- The handles that were created and not yet destroyed. -/
def liveHandles (past : List (ApiCall Handle)) : List Handle := live (past.filterMap ApiCall.use?)

/-- A call is made on a live handle, and nothing is live when a handle is asked for. -/
def Orderly (past : List (ApiCall Handle)) (call : ApiCall Handle) : Prop :=
  (∀ handle, call.on? = some handle → handle ∈ liveHandles past) ∧
    ∀ config handle status, call = .create config handle status → liveHandles past = []

/-- What holds of the calls up to a state of the server. -/
structure Owned (runtime : Option Handle) (nextHandle : Handle) (past : List (ApiCall Handle)) :
    Prop where
  held : liveHandles past = runtime.toList
  orderly : AtEvery Orderly past
  proper : AtEvery Proper (past.filterMap ApiCall.use?)
  fresh : ∀ handle, .acquire handle ∈ past.filterMap ApiCall.use? → handle < nextHandle

namespace Owned

theorem start : Owned none 0 [] where
  held := rfl
  orderly := atEvery_nil _
  proper := atEvery_nil _
  fresh := nofun

variable {runtime : Option Handle} {nextHandle handle : Handle} {past : List (ApiCall Handle)}

theorem mono (h : Owned runtime nextHandle past) : Owned runtime (nextHandle + 1) past where
  held := h.held
  orderly := h.orderly
  proper := h.proper
  fresh := fun x hx => Nat.lt_succ_of_lt (h.fresh x hx)

private theorem uses_none {call : ApiCall Handle} (hcall : call.use? = none) :
    (past ++ [call]).filterMap ApiCall.use? = past.filterMap ApiCall.use? := by
  rw [List.filterMap_append, List.filterMap_cons_none hcall, List.filterMap_nil, List.append_nil]

private theorem uses_some {call : ApiCall Handle} {use : Use Handle} (hcall : call.use? = some use) :
    (past ++ [call]).filterMap ApiCall.use? = past.filterMap ApiCall.use? ++ [use] := by
  rw [List.filterMap_append, List.filterMap_cons_some hcall, List.filterMap_nil]

theorem idle (h : Owned runtime nextHandle past) {call : ApiCall Handle} (hcall : call.use? = none)
    (horderly : Orderly past call) : Owned runtime nextHandle (past ++ [call]) where
  held := by
    rw [liveHandles, uses_none hcall]
    exact h.held
  orderly := atEvery_concat h.orderly horderly
  proper := by
    rw [uses_none hcall]
    exact h.proper
  fresh := by
    rw [uses_none hcall]
    exact h.fresh

theorem touch (h : Owned (some handle) nextHandle past) {call : ApiCall Handle}
    (hcall : call.Touches handle) : Owned (some handle) nextHandle (past ++ [call]) := by
  refine h.idle hcall.use ⟨fun x hx => ?_, fun config created status heq => ?_⟩
  · rw [hcall.on] at hx
    cases hx
    rw [h.held]
    exact List.mem_singleton_self handle
  · subst heq
    cases hcall.on

theorem harmless (h : Owned runtime nextHandle past) {call : ApiCall Handle}
    (hcall : call.Harmless runtime) : Owned runtime nextHandle (past ++ [call]) := by
  rcases hcall with ⟨handle, rfl, htouches⟩ | ⟨path, rfl⟩
  · exact h.touch htouches
  · refine h.idle rfl ⟨fun handle hon => ?_, fun config created status heq => ?_⟩
    · cases hon
    · cases heq

theorem touches (h : Owned runtime nextHandle past) {calls : List (ApiCall Handle)}
    (hcalls : ∀ call ∈ calls, call.Harmless runtime) :
    Owned runtime nextHandle (past ++ calls) := by
  induction calls using List.reverseRecOn with
  | nil =>
      rw [List.append_nil]
      exact h
  | append_singleton calls call ih =>
      rw [List.forall_mem_append] at hcalls
      rw [← List.append_assoc]
      exact (ih hcalls.1).harmless (hcalls.2 call (List.mem_singleton_self call))

theorem destroy (h : Owned (some handle) nextHandle past) :
    Owned none nextHandle (past ++ [.destroy handle]) := by
  have hheld : live (past.filterMap ApiCall.use?) = [handle] := h.held
  have hmem : handle ∈ live (past.filterMap ApiCall.use?) := by
    rw [hheld]
    exact List.mem_singleton_self handle
  have huses : (past ++ [ApiCall.destroy handle]).filterMap ApiCall.use? =
      past.filterMap ApiCall.use? ++ [.release handle] := uses_some rfl
  have horderly : Orderly past (.destroy handle) := by
    refine ⟨fun x hx => ?_, fun config created status heq => ?_⟩
    · obtain rfl := Option.some.inj hx
      exact hmem
    · cases heq
  refine ⟨?_, atEvery_concat h.orderly horderly, ?_, fun x hx => ?_⟩
  · rw [liveHandles, huses, live_concat, hheld]
    simp [Use.apply]
  · rw [huses]
    exact atEvery_concat h.proper hmem
  · rw [huses, List.mem_append, List.mem_singleton] at hx
    rcases hx with hx | hx
    · exact h.fresh x hx
    · cases hx

theorem unload (h : Owned runtime nextHandle past) :
    Owned none nextHandle (past ++ runtime.toList.map .destroy) := by
  cases runtime with
  | none =>
      rw [Option.toList_none, List.map_nil, List.append_nil]
      exact h
  | some handle => exact h.destroy

theorem create (h : Owned none nextHandle past) (config : Api.Config) (status : Api.Status)
    (alive : Bool) :
    let created := if alive then some nextHandle else none
    Owned created (nextHandle + 1) (past ++ [.create config created status]) := by
  have hlive : live (past.filterMap ApiCall.use?) = [] := h.held
  have horderly (created : Option Handle) : Orderly past (.create config created status) :=
    ⟨nofun, fun _ _ _ _ => hlive⟩
  cases alive with
  | false => exact h.mono.idle rfl (horderly none)
  | true =>
      have huses : (past ++ [ApiCall.create config (some nextHandle) status]).filterMap
          ApiCall.use? = past.filterMap ApiCall.use? ++ [.acquire nextHandle] := uses_some rfl
      refine ⟨?_, atEvery_concat h.orderly (horderly _), ?_, fun x hx => ?_⟩
      · rw [liveHandles, if_pos rfl, huses, live_concat, hlive]
        rfl
      · rw [if_pos rfl, huses]
        exact atEvery_concat h.proper fun hacquired => lt_irrefl _ (h.fresh _ hacquired)
      · rw [if_pos rfl, huses, List.mem_append, List.mem_singleton] at hx
        rcases hx with hx | hx
        · exact Nat.lt_succ_of_lt (h.fresh x hx)
        · cases hx
          exact Nat.lt_succ_self nextHandle

end Owned

/-- The server and the name of the next handle. -/
structure Process where
  server : DashboardServer Handle
  nextHandle : Handle := 0

/-- Every runtime that is created has a name of its own. -/
def Request.named (nextHandle : Handle) : Request Unit → Request Handle
  | .lifecycle request create => .lifecycle request fun config =>
      ((create config).1.map fun _ => nextHandle, (create config).2)
  | .reset => .reset
  | .generate body answer => .generate body answer
  | .health => .health
  | .runtime info => .runtime info
  | .memory sized report => .memory sized report
  | .usage sized report => .usage sized report
  | .models n written => .models n written
  | .stop => .stop

namespace Process

def start (modelRegistryPath : Bytes) : Process where
  server := .start modelRegistryPath

def step (p : Process) (request : Request Unit) : Process × HandlerResult Handle :=
  let result := p.server.handle (request.named p.nextHandle)
  ({ server := result.server, nextHandle := p.nextHandle + 1 }, result)

/-- The calls of the C interface over a run, in order. -/
def calls (p : Process) (requests : List (Request Unit)) : List (ApiCall Handle) :=
  (trace step p requests).flatMap fun e => e.output.calls

theorem lifecycle_owned {s : DashboardServer Handle} {nextHandle : Handle}
    {past : List (ApiCall Handle)} (h : Owned s.runtime nextHandle past)
    (request : LifecycleRequest) (create : Api.Config → Option Unit × Api.Status) :
    let result := s.handle (.named nextHandle (.lifecycle request create))
    Owned result.server.runtime (nextHandle + 1) (past ++ result.calls) := by
  have hcase := s.lifecycle_case request fun config =>
    ((create config).1.map fun _ => nextHandle, (create config).2)
  dsimp only [Request.named, DashboardServer.handle]
  generalize (s.lifecycle request _).server = server at hcase ⊢
  generalize (s.lifecycle request _).calls = calls at hcase ⊢
  cases hcase with
  | refused _ =>
      rw [List.append_nil]
      exact h.mono
  | unloaded _ => exact h.unload.mono
  | created candidate _ fresh status hcreate =>
      have hfresh : fresh = if (create candidate.config).1.isSome then some nextHandle else none := by
        rw [← (Prod.mk.inj hcreate).1]
        cases (create candidate.config).1 <;> rfl
      rw [← List.append_assoc, hfresh]
      exact h.unload.create candidate.config status _

theorem step_owned {p : Process} {past : List (ApiCall Handle)}
    (h : Owned p.server.runtime p.nextHandle past) (request : Request Unit) :
    Owned (p.step request).1.server.runtime (p.step request).1.nextHandle
      (past ++ (p.step request).2.calls) := by
  change Owned (p.server.handle (request.named p.nextHandle)).server.runtime (p.nextHandle + 1)
    (past ++ (p.server.handle (request.named p.nextHandle)).calls)
  have htouching (hlifecycle : ∀ r create, request.named p.nextHandle ≠ .lifecycle r create)
      (hstop : request.named p.nextHandle ≠ .stop) :
      Owned (p.server.handle (request.named p.nextHandle)).server.runtime (p.nextHandle + 1)
        (past ++ (p.server.handle (request.named p.nextHandle)).calls) := by
    obtain ⟨hserver, hcalls⟩ := p.server.handle_touching hlifecycle hstop
    rw [hserver]
    exact h.mono.touches hcalls
  cases request with
  | lifecycle request create => exact lifecycle_owned h request create
  | stop => exact h.unload.mono
  | _ => exact htouching nofun nofun

theorem run_owned {p : Process} {past : List (ApiCall Handle)}
    (h : Owned p.server.runtime p.nextHandle past) (requests : List (Request Unit)) :
    Owned (final step p requests).server.runtime (final step p requests).nextHandle
      (past ++ p.calls requests) := by
  induction requests generalizing p past with
  | nil =>
      rw [calls, trace, List.flatMap_nil, List.append_nil]
      exact h
  | cons request requests ih =>
      rw [calls, trace, List.flatMap_cons, ← List.append_assoc]
      exact ih (step_owned h request)

end Process

/-- Over any run of requests, whatever the create calls answer: the live handles are the one that is
held, a handle is asked for when nothing is live, calls are made on live handles only, and nothing
is created or destroyed twice. Once the server has stopped, every handle has been destroyed. -/
theorem dashboard_owns_one (modelRegistryPath : Bytes) (requests : List (Request Unit)) :
    let p := Process.start modelRegistryPath
    let uses := (p.calls requests).filterMap ApiCall.use?
    liveHandles (p.calls requests) = (final Process.step p requests).server.runtime.toList ∧
      AtEvery Orderly (p.calls requests) ∧ AtEvery Proper uses ∧
      (uses.filterMap Use.released?).Nodup ∧
      ∀ handle, let stopped := (p.calls (requests ++ [.stop])).filterMap ApiCall.use?
        (.acquire handle ∈ stopped → (stopped.filterMap Use.released?).count handle = 1) ∧
          (.release handle ∈ stopped → .acquire handle ∈ stopped) := by
  intro p uses
  have howned (requests : List (Request Unit)) :
      Owned (final Process.step p requests).server.runtime
        (final Process.step p requests).nextHandle (p.calls requests) := by
    have hstart : Owned p.server.runtime p.nextHandle [] := Owned.start
    exact Process.run_owned hstart requests
  have hreleased : (uses.filterMap Use.released?).Nodup := by
    obtain ⟨hperm, hnodup⟩ := acquired_perm (howned requests).proper
    exact (List.nodup_append.mp (hperm.nodup_iff.mp hnodup)).1
  refine ⟨(howned requests).held, (howned requests).orderly, (howned requests).proper, hreleased,
    fun handle => ?_⟩
  intro stopped
  have hstopped := howned (requests ++ [.stop])
  have hnone : (final Process.step p (requests ++ [.stop])).server.runtime = none := by
    rw [final_append]
    rfl
  have hlive : live stopped = [] := by
    have hheld := hstopped.held
    rw [hnone] at hheld
    exact hheld
  exact released_once hstopped.proper hlive handle

end Dashboard

end EdgeMind
