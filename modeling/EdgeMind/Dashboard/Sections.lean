import EdgeMind.Dashboard.Ownership
import EdgeMind.Framework.Mutex

/-!
# The handlers in steps

Under the operation mutex a handler works in small steps: it reads and writes the members of the
server one after the other, and a call of the C interface lasts. Each handler ends where the handler
that does everything at once ends, with the same calls and the same reply. The health route reads the
handle without the mutex, and a generation looks at its prompt before it takes it.
-/

namespace EdgeMind

open Framework

namespace Dashboard

/-- What a call of the C interface is made on; the target of a creation is a runtime that is not there
yet. -/
inductive Target
  | runtime (handle : Handle)
  | fresh
  | registry
deriving DecidableEq

def ApiCall.target : ApiCall Handle → Target
  | .create _ _ _ => .fresh
  | .listModels _ => .registry
  | .destroy handle | .reset handle | .generate handle _ | .getModelInfo handle
  | .getMemoryReport handle | .getUsageReport handle => .runtime handle

theorem ApiCall.Touches.target {handle : Handle} {call : ApiCall Handle} (h : call.Touches handle) :
    call.target = .runtime handle := by
  have hon := h.on
  cases call with
  | create | listModels => cases hon
  | _ => exact congrArg Target.runtime (Option.some.inj hon)

/-- A call of the C interface begins and ends; the token callback of a generation runs in between. -/
inductive Mark
  | enters (target : Target)
  | callback (event : Bytes)
  | leaves (call : ApiCall Handle)

def Mark.call? : Mark → Option (ApiCall Handle)
  | .leaves call => some call
  | _ => none

def callsOf (marks : List Mark) : List (ApiCall Handle) := marks.filterMap Mark.call?

/-- The target of the call that is under way, if there is one. -/
def underWay (marks : List Mark) : Option Target :=
  marks.foldl (fun current mark =>
    match mark with
    | .enters target => some target
    | .callback _ => current
    | .leaves _ => none) none

/-- What a generation asks for, or the reply that refuses it. -/
def promptOf (body : Bytes) : Except Reply Bytes :=
  if body.length > kMaxRequestBody then
    .error (.content 413 (errorObject (text "request body too large")))
  else
    match parseJsonString body (text "prompt") with
    | none | some [] =>
        .error (.content 400 (errorObject (text "prompt must be a non-empty JSON string")))
    | some prompt => .ok prompt

structure Shared where
  process : Process
  marks : List Mark := []

abbrev Section := Locked Shared

namespace Section

def server : Section (DashboardServer Handle) := Locked.read fun s => s.process.server

def assign (f : DashboardServer Handle → DashboardServer Handle) : Section Unit :=
  Locked.modify fun s => { s with process := { s.process with server := f s.process.server } }

def mark (m : Mark) : Section Unit := Locked.modify fun s => { s with marks := s.marks ++ [m] }

/-- The name for a runtime that the section may create. -/
def takeName : Section Handle :=
  .access (fun s => { s with process := { s.process with nextHandle := s.process.nextHandle + 1 } })
    fun s => .done s.process.nextHandle

def call (c : ApiCall Handle) : Section Unit := do
  mark (.enters c.target)
  mark (.leaves c)

def callTimes (c : ApiCall Handle) : Nat → Section Unit
  | 0 => pure ()
  | n + 1 => do
      call c
      callTimes c n

def unloadCurrent : Section Unit := do
  let s ← server
  match s.runtime with
  | some handle =>
      call (.destroy handle)
      assign fun s => { s with runtime := none }
  | none => pure ()
  assign fun s => { s with lastStatus := .ok }

/-- The creation of a runtime and the assignments behind it. -/
def createFresh (candidate : RuntimeConfigState) (fresh : Option Handle) (status : Api.Status) :
    Section (Option Bytes) := do
  call (.create candidate.config fresh status)
  match fresh with
  | none =>
      assign fun s => { s with lastStatus := status }
      return some (errorObject (Api.statusMessage status))
  | some handle =>
      assign fun s => { s with runtime := some handle }
      assign fun s => { s with state := candidate }
      assign fun s => { s with lastStatus := status }
      return if status ≠ .ok then some (errorObject (Api.statusMessage status)) else none

def loadFromRequest (body : Bytes) (create : Api.Config → Option Handle × Api.Status) :
    Section (Option Bytes) := do
  let s ← server
  match s.candidate body with
  | .error errorJson => return some errorJson
  | .ok candidate =>
      unloadCurrent
      createFresh candidate (create candidate.config).1 (create candidate.config).2

def reloadCurrent (create : Api.Config → Option Handle × Api.Status) : Section (Option Bytes) := do
  let s ← server
  if s.state.modelId = [] ∧ s.state.modelPath = [] then
    return some (errorObject (text "no previous model configuration to reload"))
  else loadFromRequest s.reloadBody create

def lifecycle (create : Api.Config → Option Handle × Api.Status) : LifecycleRequest → Section Reply
  | .load body => do
      match ← loadFromRequest body create with
      | some error => return .content 400 error
      | none =>
          let s ← server
          return .content 200 (text "\x7b\"ok\":true,\"status\":\"" ++
            jsonEscape (Api.statusMessage s.lastStatus) ++ text "\"\x7d")
  | .reload => do
      match ← reloadCurrent create with
      | some error => return .content 409 error
      | none => return .content 200 okObject
  | .unload => do
      unloadCurrent
      return .content 200 okObject

def reset : Section Reply := do
  let s ← server
  match s.runtime with
  | none => return .content 409 (errorObject (text "runtime is not loaded"))
  | some handle =>
      call (.reset handle)
      return .content 200 okObject

def callbacks : List Bytes → Section Unit
  | [] => pure ()
  | event :: events => do
      mark (.callback event)
      callbacks events

def stream (prompt : Bytes) (answer : DashboardServer.GenerateAnswer) : Section Reply := do
  let s ← server
  match s.runtime with
  | none => return .stream [DashboardServer.doneEvent (text "Runtime is not loaded")]
  | some handle =>
      mark (.enters (.runtime handle))
      callbacks (DashboardServer.tokenEvents answer.calls).1
      mark (.leaves (.generate handle prompt))
      return .stream (DashboardServer.generateEvents answer)

def runtime (info : Option InferenceEngine.ModelInfo) : Section Reply := do
  let s ← server
  match s.runtimeLoaded, s.runtime with
  | true, some handle => call (.getModelInfo handle)
  | _, _ => pure ()
  return .content 200 (s.runtimeJson info)

def report (c : Handle → ApiCall Handle) (sized report : Bytes) : Section Reply := do
  let s ← server
  match s.runtime with
  | none => return .content 200 (DashboardServer.reportJson [])
  | some handle =>
      callTimes (c handle) (DashboardServer.reportCalls sized)
      return .content 200 (DashboardServer.reportJson (DashboardServer.reportFrom sized report))

def models (n : Nat) (written : Bytes) : Section Reply := do
  let s ← server
  callTimes (.listModels s.state.registryPath) (DashboardServer.listingCalls n)
  return .content 200 (DashboardServer.modelsJson (DashboardServer.listingFrom n written))

def work (name : Handle) : Request Unit → Section Reply
  | .lifecycle request create => lifecycle (fun config =>
      ((create config).1.map fun _ => name, (create config).2)) request
  | .reset => reset
  | .generate body answer =>
      match promptOf body with
      | .error reply => return reply
      | .ok prompt => stream prompt answer
  | .health => do
      let s ← server
      return .content 200 s.healthJson
  | .runtime info => runtime info
  | .memory sized text => report .getMemoryReport sized text
  | .usage sized text => report .getUsageReport sized text
  | .models n written => models n written
  | .stop => do
      unloadCurrent
      return .closed

end Section

/-- The requests that are answered without the mutex. -/
def glance : Request Unit → Option (Shared → Reply)
  | .health => some fun s => .content 200 s.process.server.healthJson
  | .generate body _ =>
      match promptOf body with
      | .error reply => some fun _ => reply
      | .ok _ => none
  | _ => none

def service : Service Shared (Request Unit) Reply where
  glance := glance
  work request := do
    let name ← Section.takeName
    Section.work name request

/-- A call may be made on the target while these handles are live. -/
def Target.Suits (live : List Handle) : Target → Prop
  | .runtime handle => live = [handle]
  | .fresh => live = []
  | .registry => True

/-- A call begins when no other is under way: on the live handle, or, to create one, when nothing is
live, or on the registry. It ends as it began, and the token callback runs during a call on a handle
only. -/
def WellTimed (past : List Mark) : Mark → Prop
  | .enters target => underWay past = none ∧ target.Suits (liveHandles (callsOf past))
  | .callback _ => ∃ handle, underWay past = some (.runtime handle)
  | .leaves call => underWay past = some call.target

/-- What holds of the marks up to a moment, with the handle that is live and the call under way. -/
structure Moment (held : Option Handle) (nextHandle : Handle) (current : Option Target)
    (marks : List Mark) : Prop where
  owned : Owned held nextHandle (callsOf marks)
  timed : AtEvery WellTimed marks
  current : underWay marks = current

namespace Moment

variable {held : Option Handle} {nextHandle handle : Handle} {marks : List Mark}

theorem start : Moment none 0 none [] where
  owned := .start
  timed := atEvery_nil _
  current := rfl

theorem callsOf_concat (marks : List Mark) (m : Mark) :
    callsOf (marks ++ [m]) = callsOf marks ++ m.call?.toList := by
  rw [callsOf, List.filterMap_append]
  cases m <;> rfl

theorem underWay_concat (marks : List Mark) (m : Mark) : underWay (marks ++ [m]) =
    match m with
    | .enters target => some target
    | .callback _ => underWay marks
    | .leaves _ => none := by
  rw [underWay, List.foldl_append]
  rfl

theorem enters (h : Moment held nextHandle none marks) {target : Target}
    (hsuits : target.Suits held.toList) :
    Moment held nextHandle (some target) (marks ++ [.enters target]) where
  owned := by
    rw [callsOf_concat]
    exact (List.append_nil (callsOf marks)).symm ▸ h.owned
  timed := atEvery_concat h.timed ⟨h.current, h.owned.held.symm ▸ hsuits⟩
  current := underWay_concat marks _

theorem callback (h : Moment (some handle) nextHandle (some (.runtime handle)) marks) (event : Bytes) :
    Moment (some handle) nextHandle (some (.runtime handle)) (marks ++ [.callback event]) where
  owned := by
    rw [callsOf_concat]
    exact (List.append_nil (callsOf marks)).symm ▸ h.owned
  timed := atEvery_concat h.timed ⟨handle, h.current⟩
  current := (underWay_concat marks _).trans h.current

private theorem leaves {after : Option Handle} {next : Handle} {call : ApiCall Handle}
    (h : Moment held nextHandle (some call.target) marks)
    (howned : Owned after next (callsOf marks ++ [call])) :
    Moment after next none (marks ++ [.leaves call]) where
  owned := by
    rw [callsOf_concat]
    exact howned
  timed := atEvery_concat h.timed h.current
  current := underWay_concat marks _

theorem harmless {call : ApiCall Handle} (h : Moment held nextHandle (some call.target) marks)
    (hcall : call.Harmless held) : Moment held nextHandle none (marks ++ [.leaves call]) :=
  leaves h (h.owned.harmless hcall)

theorem destroyed (h : Moment (some handle) nextHandle (some (.runtime handle)) marks) :
    Moment none nextHandle none (marks ++ [.leaves (.destroy handle)]) :=
  leaves h h.owned.destroy

theorem created (h : Moment none nextHandle (some .fresh) marks) (config : Api.Config)
    (status : Api.Status) (alive : Bool) :
    let fresh := if alive then some nextHandle else none
    Moment fresh (nextHandle + 1) none (marks ++ [.leaves (.create config fresh status)]) :=
  leaves h (h.owned.create config status alive)

theorem mono (h : Moment held nextHandle none marks) : Moment held (nextHandle + 1) none marks :=
  { h with owned := h.owned.mono }

end Moment

/-- What holds at every moment. -/
def AnyMoment (s : Shared) : Prop :=
  ∃ held nextHandle current, Moment held nextHandle current s.marks

/-- What holds while nobody is in a section. -/
def Rests (s : Shared) : Prop :=
  Moment s.process.server.runtime s.process.nextHandle none s.marks

theorem Moment.any {s : Shared} {held : Option Handle} {nextHandle : Handle}
    {current : Option Target} (h : Moment held nextHandle current s.marks) :
    AnyMoment s := ⟨held, nextHandle, current, h⟩

/-- What a section has done between two moments at which no call is under way. -/
structure Ends (s : Shared) (server : DashboardServer Handle) (calls : List (ApiCall Handle))
    (held : Option Handle) (nextHandle : Handle) (s' : Shared) : Prop where
  process : s'.process = { s.process with server }
  calls : callsOf s'.marks = callsOf s.marks ++ calls
  moment : Moment held nextHandle none s'.marks

namespace Ends

variable {s s' s'' : Shared} {server server' : DashboardServer Handle}
  {calls calls' : List (ApiCall Handle)} {held held' : Option Handle} {next next' : Handle}

theorem refl (h : Moment held next none s.marks) : Ends s s.process.server [] held next s :=
  ⟨rfl, (List.append_nil _).symm, h⟩

theorem trans (h : Ends s server calls held next s') (h' : Ends s' server' calls' held' next' s'') :
    Ends s server' (calls ++ calls') held' next' s'' where
  process := by
    rw [h'.process, h.process]
  calls := by
    rw [h'.calls, h.calls, List.append_assoc]
  moment := h'.moment

theorem assign (h : Ends s server calls held next s')
    (f : DashboardServer Handle → DashboardServer Handle) :
    Ends s (f server) calls held next
      { s' with process := { s'.process with server := f s'.process.server } } where
  process := by
    rw [h.process]
  calls := h.calls
  moment := h.moment

theorem mono (h : Ends s server calls held next s') : Ends s server calls held (next + 1) s' :=
  { h with moment := h.moment.mono }

theorem server_eq (h : Ends s server calls held next s') : s'.process.server = server := by
  rw [h.process]

end Ends

namespace Section

open Locked (Ensures)

variable {s : Shared} {held : Option Handle} {next handle : Handle}

theorem server_ensures {Q : Shared → DashboardServer Handle → Prop} (hs : AnyMoment s)
    (h : Q s s.process.server) : Ensures AnyMoment server s Q := .read hs h

theorem assign_ensures {f : DashboardServer Handle → DashboardServer Handle}
    {Q : Shared → Unit → Prop} (hs : AnyMoment s)
    (h : Q { s with process := { s.process with server := f s.process.server } } ()) :
    Ensures AnyMoment (assign f) s Q := .modify hs hs h

private theorem call_between {c : ApiCall Handle} {held' : Option Handle} {next' : Handle}
    (h : Moment held next none s.marks) (hsuits : c.target.Suits held.toList)
    (hleaves : ∀ marks, Moment held next (some c.target) marks →
      Moment held' next' none (marks ++ [.leaves c])) :
    Ensures AnyMoment (call c) s fun s' _ => Ends s s.process.server [c] held' next' s' := by
  have henters := h.enters hsuits
  have hafter := hleaves _ henters
  apply Ensures.bind
  apply Ensures.modify h.any henters.any
  apply Ensures.modify henters.any hafter.any
  refine ⟨rfl, ?_, hafter⟩
  change callsOf (s.marks ++ [.enters c.target] ++ [.leaves c]) = _
  rw [Moment.callsOf_concat, Moment.callsOf_concat]
  exact congrArg (· ++ [c]) (List.append_nil _)

theorem call_harmless {c : ApiCall Handle} (h : Moment held next none s.marks)
    (hcall : c.Harmless held) :
    Ensures AnyMoment (call c) s fun s' _ => Ends s s.process.server [c] held next s' := by
  have hsuits : c.target.Suits held.toList := by
    rcases hcall with ⟨handle, rfl, htouches⟩ | ⟨path, rfl⟩
    · rw [htouches.target]
      rfl
    · trivial
  exact call_between h hsuits fun _ h => h.harmless hcall

theorem callTimes_harmless {c : ApiCall Handle} (hcall : c.Harmless held) (n : Nat)
    (h : Moment held next none s.marks) :
    Ensures AnyMoment (callTimes c n) s fun s' _ =>
      Ends s s.process.server (List.replicate n c) held next s' := by
  induction n generalizing s with
  | zero => exact .pure h.any (.refl h)
  | succ n ih =>
      apply Ensures.bind
      apply (call_harmless h hcall).imp
      intro s₁ _ hcalled
      apply (ih hcalled.moment).imp
      intro s₂ _ hrest
      rw [hcalled.server_eq] at hrest
      exact hcalled.trans hrest

theorem unloadCurrent_ensures (h : Moment s.process.server.runtime next none s.marks) :
    Ensures AnyMoment unloadCurrent s fun s' _ =>
      Ends s s.process.server.unloadCurrent.1 s.process.server.unloadCurrent.2 none next s' := by
  apply Ensures.bind
  apply server_ensures h.any
  unfold DashboardServer.unloadCurrent
  cases hruntime : s.process.server.runtime with
  | none =>
      rw [hruntime] at h
      apply assign_ensures h.any
      refine ⟨?_, (List.append_nil _).symm, h⟩
      rw [← hruntime]
  | some handle =>
      rw [hruntime] at h
      apply Ensures.bind
      have hsuits : (ApiCall.destroy handle).target.Suits (some handle).toList := rfl
      apply (call_between h hsuits fun _ h => h.destroyed).imp
      intro s₁ _ hdestroyed
      apply Ensures.bind
      apply assign_ensures hdestroyed.moment.any
      refine assign_ensures hdestroyed.moment.any ?_
      exact (hdestroyed.assign fun s => { s with runtime := none }).assign
        fun s => { s with lastStatus := .ok }

theorem createFresh_ensures (h : Moment none next none s.marks)
    (hruntime : s.process.server.runtime = none) (candidate : RuntimeConfigState)
    (status : Api.Status) {fresh : Option Handle} (alive : Bool)
    (hfresh : fresh = if alive then some next else none) :
    Ensures AnyMoment (createFresh candidate fresh status) s fun s' errorJson =>
      Ends s {
          state := if fresh.isSome then candidate else s.process.server.state
          runtime := fresh
          lastStatus := status } [.create candidate.config fresh status] fresh (next + 1) s' ∧
        errorJson = if fresh = none ∨ status ≠ .ok then
          some (errorObject (Api.statusMessage status)) else none := by
  subst hfresh
  apply Ensures.bind
  have hsuits (fresh : Option Handle) :
      (ApiCall.create candidate.config fresh status).target.Suits (none : Option Handle).toList := rfl
  apply (call_between h (hsuits _) fun _ h => h.created candidate.config status alive).imp
  intro s₁ _ hcreated
  cases alive with
  | false =>
      apply Ensures.bind
      apply assign_ensures hcreated.moment.any
      refine .pure hcreated.moment.any ⟨?_, rfl⟩
      have hends := hcreated.assign fun s => { s with lastStatus := status }
      rw [hruntime] at hends
      exact hends
  | true =>
      apply Ensures.bind
      apply assign_ensures hcreated.moment.any
      apply Ensures.bind
      refine assign_ensures hcreated.moment.any ?_
      apply Ensures.bind
      refine assign_ensures hcreated.moment.any ?_
      refine .pure hcreated.moment.any ⟨?_, ?_⟩
      · exact ((hcreated.assign fun s => { s with runtime := some next }).assign
          fun s => { s with state := candidate }).assign fun s => { s with lastStatus := status }
      · simp

/-- The runtimes that a section creates have the name it has taken. -/
def Names (next : Handle) (create : Api.Config → Option Handle × Api.Status) : Prop :=
  ∀ config, ∃ alive : Bool, (create config).1 = if alive then some next else none

theorem loadFromRequest_ensures (h : Moment s.process.server.runtime next none s.marks)
    {create : Api.Config → Option Handle × Api.Status} (hcreate : Names next create)
    (body : Bytes) :
    let outcome := s.process.server.loadFromRequest body create
    Ensures AnyMoment (loadFromRequest body create) s fun s' errorJson =>
      Ends s outcome.server outcome.calls outcome.server.runtime (next + 1) s' ∧
        errorJson = outcome.errorJson := by
  intro outcome
  apply Ensures.bind
  apply server_ensures h.any
  cases hcandidate : s.process.server.candidate body with
  | error errorJson =>
      have houtcome : outcome = _ := DashboardServer.loadFromRequest_error hcandidate create
      rw [houtcome]
      exact .pure h.any ⟨(Ends.refl h).mono, rfl⟩
  | ok candidate =>
      obtain ⟨hserver, hcalls⟩ :=
        DashboardServer.loadFromRequest_ok hcandidate (Prod.eta (create candidate.config)).symm
      obtain ⟨alive, halive⟩ := hcreate candidate.config
      apply Ensures.bind
      apply (unloadCurrent_ensures h).imp
      intro s₁ _ hunloaded
      have hruntime : s₁.process.server.runtime = none := by
        rw [hunloaded.server_eq]
        rfl
      apply (createFresh_ensures hunloaded.moment hruntime candidate
        (create candidate.config).2 alive halive).imp
      rintro s₂ errorJson ⟨hcreated, herror⟩
      refine ⟨?_, ?_⟩
      · change Ends s (s.process.server.loadFromRequest body create).server _ _ _ s₂
        rw [hserver]
        change Ends s _ (s.process.server.loadFromRequest body create).calls _ _ s₂
        rw [hcalls]
        have hends := hunloaded.trans hcreated
        rw [hunloaded.server_eq] at hends
        exact hends
      · rw [herror]
        change _ = (s.process.server.loadFromRequest body create).errorJson
        rw [DashboardServer.loadFromRequest, hcandidate]
        dsimp only
        cases (create candidate.config).1 with
        | none => rw [if_pos (.inl rfl)]
        | some handle => simp

theorem reloadCurrent_ensures (h : Moment s.process.server.runtime next none s.marks)
    {create : Api.Config → Option Handle × Api.Status} (hcreate : Names next create) :
    let outcome := s.process.server.reloadCurrent create
    Ensures AnyMoment (reloadCurrent create) s fun s' errorJson =>
      Ends s outcome.server outcome.calls outcome.server.runtime (next + 1) s' ∧
        errorJson = outcome.errorJson := by
  intro outcome
  apply Ensures.bind
  apply server_ensures h.any
  change Ensures AnyMoment (if _ then _ else _) s fun s' errorJson =>
    Ends s (s.process.server.reloadCurrent create).server _ _ _ s' ∧ _
  unfold outcome DashboardServer.reloadCurrent
  by_cases hnone : s.process.server.state.modelId = [] ∧ s.process.server.state.modelPath = []
  · rw [if_pos hnone, if_pos hnone]
    exact .pure h.any ⟨(Ends.refl h).mono, rfl⟩
  · rw [if_neg hnone, if_neg hnone]
    exact loadFromRequest_ensures h hcreate _

def Handles (s : Shared) (next : Handle) (p : Section Reply) (result : HandlerResult Handle) :
    Prop :=
  Ensures AnyMoment p s fun s' reply =>
    Ends s result.server result.calls result.server.runtime (next + 1) s' ∧ reply = result.reply

theorem lifecycle_handles (h : Moment s.process.server.runtime next none s.marks)
    {create : Api.Config → Option Handle × Api.Status} (hcreate : Names next create)
    (request : LifecycleRequest) :
    Handles s next (lifecycle create request) (s.process.server.lifecycle request create) := by
  cases request with
  | load body =>
      apply Ensures.bind
      apply (loadFromRequest_ensures h hcreate body).imp
      rintro s₁ errorJson ⟨hends, rfl⟩
      cases herror : (s.process.server.loadFromRequest body create).errorJson with
      | some error =>
          refine .pure hends.moment.any ⟨hends, ?_⟩
          simp only [DashboardServer.lifecycle, herror]
      | none =>
          apply Ensures.bind
          apply server_ensures hends.moment.any
          refine .pure hends.moment.any ⟨hends, ?_⟩
          simp only [DashboardServer.lifecycle, herror, hends.server_eq]
  | reload =>
      apply Ensures.bind
      apply (reloadCurrent_ensures h hcreate).imp
      rintro s₁ errorJson ⟨hends, rfl⟩
      cases herror : (s.process.server.reloadCurrent create).errorJson with
      | some error =>
          refine .pure hends.moment.any ⟨hends, ?_⟩
          simp only [DashboardServer.lifecycle, herror]
      | none =>
          refine .pure hends.moment.any ⟨hends, ?_⟩
          simp only [DashboardServer.lifecycle, herror]
  | unload =>
      apply Ensures.bind
      apply (unloadCurrent_ensures h).imp
      intro s₁ _ hunloaded
      exact .pure hunloaded.moment.any ⟨hunloaded.mono, rfl⟩

theorem reset_handles (h : Moment s.process.server.runtime next none s.marks) :
    Handles s next reset s.process.server.reset := by
  apply Ensures.bind
  apply server_ensures h.any
  unfold DashboardServer.reset
  cases hruntime : s.process.server.runtime with
  | none => exact .pure h.any ⟨(Ends.refl h).mono, rfl⟩
  | some handle =>
      rw [hruntime] at h
      apply Ensures.bind
      apply (call_harmless h (.inl ⟨handle, rfl, rfl, rfl⟩)).imp
      intro s₁ _ hends
      refine .pure hends.moment.any ⟨?_, rfl⟩
      change Ends s s.process.server [.reset handle] s.process.server.runtime _ s₁
      rw [hruntime]
      exact hends.mono

theorem callbacks_ensures (events : List Bytes)
    (h : Moment (some handle) next (some (.runtime handle)) s.marks) :
    Ensures AnyMoment (callbacks events) s fun s' _ => s'.process = s.process ∧
      callsOf s'.marks = callsOf s.marks ∧
      Moment (some handle) next (some (.runtime handle)) s'.marks := by
  induction events generalizing s with
  | nil => exact .pure h.any ⟨rfl, rfl, h⟩
  | cons event events ih =>
      have hcallback := h.callback event
      apply Ensures.bind
      apply Ensures.modify h.any hcallback.any
      apply (ih hcallback).imp
      rintro s' _ ⟨hprocess, hcalls, hmoment⟩
      refine ⟨hprocess, hcalls.trans ?_, hmoment⟩
      exact (Moment.callsOf_concat _ _).trans (List.append_nil _)

theorem stream_ensures (h : Moment s.process.server.runtime next none s.marks) (prompt : Bytes)
    (answer : DashboardServer.GenerateAnswer) {result : HandlerResult Handle}
    (hnone : s.process.server.runtime = none → result = {
      server := s.process.server, calls := []
      reply := .stream [DashboardServer.doneEvent (text "Runtime is not loaded")] })
    (hsome : ∀ handle, s.process.server.runtime = some handle → result = {
      server := s.process.server, calls := [.generate handle prompt]
      reply := .stream (DashboardServer.generateEvents answer) }) :
    Handles s next (stream prompt answer) result := by
  apply Ensures.bind
  apply server_ensures h.any
  cases hruntime : s.process.server.runtime with
  | none =>
      rw [hnone hruntime]
      exact .pure h.any ⟨(Ends.refl h).mono, rfl⟩
  | some handle =>
      rw [hsome handle hruntime]
      rw [hruntime] at h
      have henters := h.enters (show (Target.runtime handle).Suits [handle] from rfl)
      apply Ensures.bind
      apply Ensures.modify h.any henters.any
      apply Ensures.bind
      apply (callbacks_ensures _ henters).imp
      rintro s₁ _ ⟨hprocess, hcalls, hmoment⟩
      have hleaves : Moment (some handle) next none (s₁.marks ++ [.leaves (.generate handle prompt)]) :=
        hmoment.harmless (.inl ⟨handle, rfl, rfl, rfl⟩)
      apply Ensures.bind
      apply Ensures.modify hmoment.any hleaves.any
      refine .pure hleaves.any ⟨⟨hprocess, ?_, ?_⟩, rfl⟩
      · refine (Moment.callsOf_concat _ _).trans (congrArg (· ++ _) (hcalls.trans ?_))
        exact (Moment.callsOf_concat _ _).trans (List.append_nil _)
      · change Moment s.process.server.runtime _ _ _
        rw [hruntime]
        exact hleaves.mono

theorem generate_handles (h : Moment s.process.server.runtime next none s.marks) (body : Bytes)
    (answer : DashboardServer.GenerateAnswer) :
    Handles s next (work next (.generate body answer))
      (s.process.server.generate body answer) := by
  have hstream := stream_ensures h
  unfold work promptOf DashboardServer.generate
  dsimp only
  by_cases hlength : body.length > kMaxRequestBody
  · rw [if_pos hlength, if_pos hlength]
    exact .pure h.any ⟨(Ends.refl h).mono, rfl⟩
  · rw [if_neg hlength, if_neg hlength]
    rcases parseJsonString body (text "prompt") with _ | _ | ⟨c, prompt⟩
    · exact .pure h.any ⟨(Ends.refl h).mono, rfl⟩
    · exact .pure h.any ⟨(Ends.refl h).mono, rfl⟩
    · apply hstream (c :: prompt) answer
      · intro hnone
        rw [hnone]
      · intro handle hsome
        rw [hsome]

theorem runtime_handles (h : Moment s.process.server.runtime next none s.marks)
    (info : Option InferenceEngine.ModelInfo) :
    Handles s next (runtime info) (s.process.server.handle (.runtime info)) := by
  apply Ensures.bind
  apply server_ensures h.any
  cases hloaded : s.process.server.runtimeLoaded with
  | false =>
      refine .pure h.any ⟨?_, rfl⟩
      change Ends s _ (if s.process.server.runtimeLoaded then _ else []) _ _ s
      rw [hloaded]
      exact (Ends.refl h).mono
  | true =>
      cases hruntime : s.process.server.runtime with
      | none =>
          rw [DashboardServer.runtimeLoaded, hruntime] at hloaded
          cases hloaded
      | some handle =>
          rw [hruntime] at h
          apply Ensures.bind
          apply (call_harmless h (.inl ⟨handle, rfl, rfl, rfl⟩)).imp
          intro s₁ _ hends
          refine .pure hends.moment.any ⟨?_, rfl⟩
          change Ends s _ (if s.process.server.runtimeLoaded then
            s.process.server.runtime.toList.map .getModelInfo else []) s.process.server.runtime _ s₁
          rw [hloaded, hruntime]
          exact hends.mono

theorem report_handles (h : Moment s.process.server.runtime next none s.marks)
    {c : Handle → ApiCall Handle} (hc : ∀ handle, (c handle).Touches handle)
    (sized report : Bytes) :
    Handles s next (Section.report c sized report) {
      server := s.process.server
      calls := s.process.server.runtime.toList.flatMap fun handle =>
        List.replicate (DashboardServer.reportCalls sized) (c handle)
      reply := .content 200 (DashboardServer.reportJson
        (if s.process.server.runtime.isSome then DashboardServer.reportFrom sized report
          else [])) } := by
  apply Ensures.bind
  apply server_ensures h.any
  cases hruntime : s.process.server.runtime with
  | none =>
      rw [hruntime] at h
      exact .pure h.any ⟨(Ends.refl h).mono, rfl⟩
  | some handle =>
      rw [hruntime] at h
      apply Ensures.bind
      apply (callTimes_harmless (.inl ⟨handle, rfl, hc handle⟩) _ h).imp
      intro s₁ _ hends
      refine .pure hends.moment.any ⟨?_, rfl⟩
      rw [Option.toList_some, List.flatMap_singleton]
      exact hends.mono

theorem models_handles (h : Moment s.process.server.runtime next none s.marks) (n : Nat)
    (written : Bytes) :
    Handles s next (models n written) (s.process.server.handle (.models n written)) := by
  apply Ensures.bind
  apply server_ensures h.any
  apply Ensures.bind
  apply (callTimes_harmless (.inr ⟨_, rfl⟩) _ h).imp
  intro s₁ _ hends
  exact .pure hends.moment.any ⟨hends.mono, rfl⟩

theorem work_handles (h : Moment s.process.server.runtime next none s.marks)
    (request : Request Unit) :
    Handles s next (work next request) (s.process.server.handle (request.named next)) := by
  cases request with
  | lifecycle request create =>
      refine lifecycle_handles h (fun config => ⟨(create config).1.isSome, ?_⟩) request
      cases (create config).1 <;> rfl
  | reset => exact reset_handles h
  | generate body answer => exact generate_handles h body answer
  | health =>
      apply Ensures.bind
      apply server_ensures h.any
      exact .pure h.any ⟨(Ends.refl h).mono, rfl⟩
  | runtime info => exact runtime_handles h info
  | memory sized text => exact report_handles h (fun _ => ⟨rfl, rfl⟩) sized text
  | usage sized text => exact report_handles h (fun _ => ⟨rfl, rfl⟩) sized text
  | models n written => exact models_handles h n written
  | stop =>
      apply Ensures.bind
      apply (unloadCurrent_ensures h).imp
      intro s₁ _ hunloaded
      exact .pure hunloaded.moment.any ⟨hunloaded.mono, rfl⟩

end Section

end Dashboard

end EdgeMind
