import EdgeMind.Dashboard.Sections

/-!
# The threads of the dashboard

The server runs its handlers on several threads, each under the operation mutex.
-/

namespace EdgeMind

open Framework

namespace Dashboard

theorem work_ensures {s : Shared} (h : Rests s) (request : Request Unit) :
    Locked.Ensures AnyMoment (service.work request) s fun s' reply =>
      s'.process = (s.process.step request).1 ∧
      callsOf s'.marks = callsOf s.marks ++ (s.process.step request).2.calls ∧
      reply = (s.process.step request).2.reply ∧ Rests s' := by
  let named : Shared := (Section.takeName.exec s).1
  have hnamed : Moment named.process.server.runtime s.process.nextHandle none named.marks := h
  apply Locked.Ensures.bind
  refine ⟨⟨h.any, h.any⟩, ?_⟩
  apply (Section.work_handles hnamed request).imp
  rintro s' reply ⟨hends, hreply⟩
  refine ⟨hends.process, hends.calls, hreply, ?_⟩
  have hmoment := hends.moment
  rw [Rests, hends.process]
  exact hmoment

theorem guards : Threads.Guards service Rests AnyMoment where
  free _ h := h.any
  always request _ h := (work_ensures h request).always
  exec request _ h := (work_ensures h request).after.2.2.2

/-- The replies to the requests of the threads, if one is handled after the other. -/
def repliesInTurn {Thread : Type} (p : Process) (requests : List (Thread × Request Unit)) :
    List (Thread × Reply) :=
  (requests.map Prod.fst).zip
    ((trace Process.step p (requests.map Prod.snd)).map fun e => e.output.reply)

theorem serve_requests {Thread : Type} {s : Shared} (h : Rests s)
    (requests : List (Thread × Request Unit)) :
    (final (Threads.serve service) s requests).process =
        final Process.step s.process (requests.map Prod.snd) ∧
      callsOf (final (Threads.serve service) s requests).marks =
        callsOf s.marks ++ s.process.calls (requests.map Prod.snd) ∧
      Threads.outputs service s requests = repliesInTurn s.process requests := by
  induction requests generalizing s with
  | nil => exact ⟨rfl, (List.append_nil _).symm, rfl⟩
  | cons i requests ih =>
      obtain ⟨hprocess, hcalls, hreply, hrests⟩ := (work_ensures h i.2).after
      obtain ⟨hfinal, hall, houtputs⟩ := ih hrests
      rw [hprocess] at hfinal hall houtputs
      rw [hcalls, List.append_assoc] at hall
      refine ⟨hfinal, hall, ?_⟩
      change (i.1, ((service.work i.2).exec s).2) ::
        Threads.outputs service ((service.work i.2).exec s).1 requests = _
      rw [hreply, houtputs]
      rfl

section Runs

variable {Thread : Type} [DecidableEq Thread]

def startThreads (modelRegistryPath : Bytes) : Threads Thread Shared (Request Unit) Reply :=
  .start { process := .start modelRegistryPath }

theorem start_rests (modelRegistryPath : Bytes) :
    Rests { process := .start modelRegistryPath } := Moment.start

/-- Whatever the interleaving: the replies are those of the requests handled one after the other, in
the order in which they got the mutex, which agrees with the order in real time. Whenever the mutex is
free, the server is the one that this order leads to, and its calls of the C interface have been made. -/
theorem threads_in_turn (modelRegistryPath : Bytes) {past future : List (Turns Thread (Request Unit))}
    {earlier m : Threads Thread Shared (Request Unit) Reply}
    (hpast : Threads.run service (startThreads modelRegistryPath) past = some earlier)
    (hfuture : Threads.run service earlier future = some m) :
    let p := Process.start modelRegistryPath
    let requests := m.entered.map Prod.snd
    earlier.entered <+: m.entered ∧ m.returned = repliesInTurn p m.finished ∧
      (m.holder = none → m.shared.process = final Process.step p requests ∧
        callsOf m.shared.marks = p.calls requests) := by
  intro p requests
  have hrun : Threads.run service (startThreads modelRegistryPath) (past ++ future) = some m := by
    rw [Threads.run, List.foldlM_append, Option.bind_eq_bind, Option.bind_eq_some_iff]
    exact ⟨earlier, hpast, hfuture⟩
  have hserial := Threads.run_serial hrun
  have hrests := start_rests modelRegistryPath
  refine ⟨Threads.run_entered hfuture, ?_, fun hfree => ?_⟩
  · rw [hserial.returned]
    exact (serve_requests hrests m.finished).2.2
  · obtain ⟨hprocess, hcalls, -⟩ := serve_requests hrests m.entered
    rw [(hserial.free hfree).1]
    exact ⟨hprocess, hcalls⟩

/-- A load that gets a handle, a generation that waits for the mutex meanwhile, and a glance; the
generation is under way. -/
def loadAndGenerate : List (Turns Nat (Request Unit)) :=
  [.arrive 1 (.lifecycle (.load (text "\x7b\"model_path\":\"a.gguf\"\x7d")) fun _ => (some (), .ok)),
    .acquire 1, .arrive 2 (.generate (text "\x7b\"prompt\":\"Hi\"\x7d") {
      calls := [⟨text "Hello", true, true⟩], status := .ok, writableAtEnd := true })] ++
    List.replicate 10 (.access 1) ++ [.glance 3 .health, .release 1, .acquire 2] ++
    List.replicate 3 (.access 2)

private theorem loadAndGenerate_runs :
    (Threads.run service (startThreads []) loadAndGenerate).any (fun m =>
      underWay m.shared.marks = some (.runtime 0) ∧
        (Threads.run service m [.access 2, .access 2, .release 2]).isSome = true) = true := by
  decide +kernel

theorem loadAndGenerate_in_turn : ∃ earlier m,
    Threads.run service (startThreads []) loadAndGenerate = some earlier ∧
      Threads.run service earlier [.access 2, .access 2, .release 2] = some m ∧
      m.returned = repliesInTurn (Process.start []) m.finished := by
  obtain ⟨earlier, hpast, hnext⟩ := (Option.any_eq_true _ _).mp loadAndGenerate_runs
  obtain ⟨m, hfuture⟩ := Option.isSome_iff_exists.mp (of_decide_eq_true hnext).2
  exact ⟨earlier, m, hpast, hfuture, (threads_in_turn [] hpast hfuture).2.1⟩

/-- At every moment of every interleaving: no two calls of the C interface under the mutex overlap, a call
is made on the one live handle, or creates it when none is live, or lists the registry, the token callback
runs within a call on a live handle, and nothing is created or destroyed twice. -/
theorem threads_call_in_turn (modelRegistryPath : Bytes) {turns : List (Turns Thread (Request Unit))}
    {m : Threads Thread Shared (Request Unit) Reply}
    (h : Threads.run service (startThreads modelRegistryPath) turns = some m) :
    let calls := callsOf m.shared.marks
    AtEvery WellTimed m.shared.marks ∧ AtEvery Proper (calls.filterMap ApiCall.use?) ∧
      (liveHandles calls).length ≤ 1 ∧
      (m.holder = none → underWay m.shared.marks = none ∧
        liveHandles calls = m.shared.process.server.runtime.toList) := by
  intro calls
  have hrests := start_rests modelRegistryPath
  obtain ⟨held, nextHandle, current, hmoment⟩ := Threads.run_always guards hrests h
  refine ⟨hmoment.timed, hmoment.owned.proper, ?_, fun hfree => ?_⟩
  · rw [hmoment.owned.held]
    cases held <;> simp
  · have hshared := ((Threads.run_serial h).free hfree).1
    have hfinal : Rests m.shared := by
      rw [hshared]
      exact guards.final hrests m.entered
    exact ⟨hfinal.current, hfinal.owned.held⟩

theorem loadAndGenerate_call_in_turn : ∃ m,
    Threads.run service (startThreads []) loadAndGenerate = some m ∧
      underWay m.shared.marks = some (.runtime 0) ∧ AtEvery WellTimed m.shared.marks := by
  obtain ⟨m, hrun, hnext⟩ := (Option.any_eq_true _ _).mp loadAndGenerate_runs
  exact ⟨m, hrun, (of_decide_eq_true hnext).1, (threads_call_in_turn [] hrun).1⟩

end Runs

end Dashboard

end EdgeMind
