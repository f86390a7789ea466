import EdgeMind.Dashboard.Billing
import EdgeMind.Dashboard.Replies

/-!
# What a stream says

A client that splits the stream of a generation at its blank lines reads the pieces that the engine has
handed out, one by one, and then how the generation has gone, as far as it has stayed to read them.
-/

namespace EdgeMind

open Framework Framework.Json

namespace Dashboard

inductive StreamEvent
  | token (piece : Bytes)
  | done (status : Bytes)

namespace StreamEvent

def document : StreamEvent → Document
  | token piece => .object [(text "token", .string piece)]
  | done status => .object [(text "done", .boolean true), (text "status", .string status)]

theorem document_injective : Function.Injective document := by
  intro event event' h
  cases event <;> cases event' <;> simp_all [document]

def line (event : StreamEvent) : Bytes := text "data: " ++ event.document.text jsonEncoding

theorem newline_notMem_jsonString (s : Bytes) : (10 : UInt8) ∉ jsonString s := by
  rw [← quoted_jsonCharacters]
  exact DashboardServer.newline_notMem_quoted _

theorem line_single (event : StreamEvent) : event.line ≠ [] ∧ (10 : UInt8) ∉ event.line := by
  have hfront : (10 : UInt8) ∉ text "data: " := by decide
  have htrue : (10 : UInt8) ∉ jsonBool true := by decide
  refine ⟨List.append_ne_nil_of_left_ne_nil (by decide) _, ?_⟩
  cases event <;> simp [line, document, object_text, hfront, htrue, newline_notMem_jsonString]

end StreamEvent

/-- A paragraph of a stream is a line with a document. -/
def readParagraph : List Bytes → Option Document
  | [line] => if text "data: " <+: line then parse (line.drop (text "data: ").length) else none
  | _ => none

def readStream (stream : Bytes) : List (Option Document) :=
  (paragraphs (lines stream)).map readParagraph

theorem readParagraph_line (event : StreamEvent) : readParagraph [event.line] = some event.document := by
  rw [readParagraph, StreamEvent.line, if_pos (List.prefix_append _ _), List.drop_left]
  exact parse_text jsonEncoding event.document

theorem readStream_events (events : List StreamEvent) :
    readStream (events.flatMap fun event => event.line ++ [10, 10]) =
      events.map fun event => some event.document := by
  have hlines : ∀ l ∈ events.map StreamEvent.line, l ≠ [] ∧ (10 : UInt8) ∉ l := by
    intro l hl
    obtain ⟨event, -, rfl⟩ := List.mem_map.mp hl
    exact event.line_single
  have hblocks := paragraphs_blocks hlines
  rw [List.flatMap_map] at hblocks
  rw [readStream, hblocks, List.map_map, List.map_map]
  exact List.map_congr_left fun event _ => readParagraph_line event

namespace DashboardServer

theorem tokenEvent_line (piece : Bytes) :
    tokenEvent piece = (StreamEvent.token (Api.cString piece)).line ++ [10, 10] := by
  have hopen : text "data: \x7b\"token\":" =
      text "data: " ++ 123 :: (jsonString (text "token") ++ [58]) := by decide
  have hclose : text "\x7d\n\n" = [125, 10, 10] := by decide
  rw [tokenEvent, StreamEvent.line, StreamEvent.document, object_text, hopen, hclose]
  simp

theorem doneEvent_line (status : Bytes) :
    doneEvent status = (StreamEvent.done status).line ++ [10, 10] := by
  have hopen : text "data: \x7b\"done\":true,\"status\":" =
      text "data: " ++ 123 :: (jsonString (text "done") ++ 58 :: (jsonBool true ++
        44 :: (jsonString (text "status") ++ [58]))) := by decide
  have hclose : text "\x7d\n\n" = [125, 10, 10] := by decide
  rw [doneEvent, StreamEvent.line, StreamEvent.document, object_text, hopen, hclose]
  simp

theorem tokenEvents_whole {calls : List TokenCall}
    (h : ∀ call ∈ calls.dropLast, call.writableBefore = true ∧ call.writableAfter = true)
    (hwritable : (tokenEvents calls).2 = true) : (tokenEvents calls).1.length = calls.length := by
  induction calls with
  | nil => rfl
  | cons call calls ih =>
      cases calls with
      | nil =>
          unfold tokenEvents at hwritable ⊢
          split_ifs at hwritable ⊢
          · rfl
          · rfl
      | cons next calls =>
          rw [List.dropLast_cons_cons, List.forall_mem_cons] at h
          rw [tokenEvents, if_neg (not_not_intro h.1.1), if_pos h.1.2] at hwritable ⊢
          exact congrArg (· + 1) (ih h.2 hwritable)

theorem tokenEvents_open {calls : List TokenCall}
    (h : ∀ call ∈ calls, call.writableBefore = true ∧ call.writableAfter = true) :
    (tokenEvents calls).2 = true := by
  induction calls with
  | nil => rfl
  | cons call calls ih =>
      rw [List.forall_mem_cons] at h
      rw [tokenEvents, if_neg (not_not_intro h.1.1), if_pos h.1.2]
      exact ih h.2

end DashboardServer

namespace System

/-- What the stream of a generation tells: that there is no runtime, or the pieces and then how the
generation has gone; a client that goes before the end may miss the last piece and what comes after. -/
inductive StreamTold (s : System) (e : Surroundings) (body : Bytes) : List StreamEvent → Prop
  | idle (h : s.server.runtime = none) : StreamTold s e body [.done (text "Runtime is not loaded")]
  | whole {r : Runtime} (h : s.server.runtime = some r) : StreamTold s e body
      ((s.outcome e (promptIn body)).pieces.map .token ++
        [.done (Api.statusMessage (s.outcome e (promptIn body)).status)])
  | gone {r : Runtime} (h : s.server.runtime = some r) (hgone : ¬(Stays e ∧ e.writableAtEnd = true))
      (n : Nat) (hn : (s.outcome e (promptIn body)).pieces.length ≤ n + 1) :
      StreamTold s e body (((s.outcome e (promptIn body)).pieces.take n).map .token)

theorem answer_pieces (s : System) (e : Surroundings) (body : Bytes) :
    (s.answer e body).calls.map DashboardServer.TokenCall.piece =
      (s.outcome e (promptIn body)).pieces := by
  apply List.ext_getElem
  · simp [answer]
  · intro i _ _
    simp [answer]

theorem outcome_pieces (s : System) (e : Surroundings) (prompt : Bytes) :
    ∀ piece ∈ (s.outcome e prompt).pieces, Api.cString piece = piece := by
  intro piece hpiece
  unfold outcome Api.generate at hpiece
  cases hruntime : s.server.runtime with
  | none =>
      rw [hruntime] at hpiece
      cases hpiece
  | some r =>
      rw [hruntime] at hpiece
      obtain ⟨raw, -, rfl⟩ := List.mem_map.mp hpiece
      exact List.takeWhile_idem

theorem answer_events (s : System) (e : Surroundings) (body : Bytes) :
    (DashboardServer.tokenEvents (s.answer e body).calls).1 =
      (((s.outcome e (promptIn body)).pieces.take
        (DashboardServer.tokenEvents (s.answer e body).calls).1.length).map .token).map
          fun event : StreamEvent => event.line ++ [10, 10] := by
  rw [← answer_pieces, ← List.map_take, List.map_map, List.map_map]
  conv_lhs => rw [(DashboardServer.tokenEvents_take (s.answer e body).calls).1]
  refine List.map_congr_left fun call hcall => ?_
  have hpiece : call.piece ∈ (s.outcome e (promptIn body)).pieces := by
    rw [← answer_pieces]
    exact List.mem_map_of_mem (List.mem_of_mem_take hcall)
  rw [DashboardServer.tokenEvent_line, outcome_pieces s e _ _ hpiece]
  rfl

/-- What a client reads of a generation is what the engine has done: the pieces in their order, and how
it has gone. -/
theorem generate_told (s : System) (e : Surroundings) (body : Bytes) {events : List Bytes}
    (h : (s.step (.generate body, e)).2 = .stream events) :
    ∃ read, StreamTold s e body read ∧
      events.flatten = read.flatMap fun event => event.line ++ [10, 10] := by
  have hcase := s.server.generate_case body (s.answer e body)
  change (s.server.generate body (s.answer e body)).reply = _ at h
  generalize s.server.generate body (s.answer e body) = result at hcase h
  cases hcase with
  | refused reply hreply =>
      rcases hreply with ⟨status, message, rfl⟩ | ⟨hnone, rfl⟩
      · cases h
      · cases h
        refine ⟨_, .idle hnone, ?_⟩
        rw [List.flatten_singleton, List.flatMap_singleton, DashboardServer.doneEvent_line]
  | called prompt hprompt r hruntime =>
      cases h
      have hkept := answer_kept hruntime e body
      have hevents := answer_events s e body
      obtain ⟨-, hge⟩ := DashboardServer.tokenEvents_length hkept
      have hlength : (s.answer e body).calls.length = (s.outcome e (promptIn body)).pieces.length := by
        rw [← answer_pieces, List.length_map]
      unfold DashboardServer.generateEvents
      dsimp only
      split
      · next hdone =>
          rw [Bool.and_eq_true] at hdone
          have hwhole := DashboardServer.tokenEvents_whole hkept hdone.1
          refine ⟨_, .whole hruntime, ?_⟩
          rw [hevents, hwhole, hlength, List.take_length, List.flatten_append, ← List.flatMap_def,
            List.flatten_singleton, DashboardServer.doneEvent_line, List.flatMap_append,
            List.flatMap_singleton]
          rfl
      · next hdone =>
          refine ⟨_, .gone hruntime (fun hstays => hdone ?_) _ (hlength ▸ hge), ?_⟩
          · rw [Bool.and_eq_true]
            exact ⟨DashboardServer.tokenEvents_open (answer_stays hstays.1 s body), hstays.2⟩
          · conv_lhs => rw [hevents]
            rw [← List.flatMap_def]

/-- A client that splits the stream of a generation at its blank lines reads one thing, whatever bytes
the pieces have: what the engine has handed out and how the generation has gone. -/
theorem stream_told (s : System) (e : Surroundings) (body : Bytes) {events : List Bytes}
    (h : (s.step (.generate body, e)).2 = .stream events) : ∃ read : List StreamEvent,
      (∀ read' : List StreamEvent, readStream events.flatten =
        read'.map (fun event => some event.document) ↔ read' = read) ∧ StreamTold s e body read := by
  obtain ⟨read, htold, hevents⟩ := generate_told s e body h
  have hinjective : Function.Injective fun event : StreamEvent => some event.document :=
    (Option.some_injective _).comp StreamEvent.document_injective
  refine ⟨read, fun read' => ?_, htold⟩
  rw [hevents, readStream_events, hinjective.list_map.eq_iff, eq_comm]

theorem stream_told_streamed :
    let e := { sampleSurroundings with generate := streamedGenerate }
    let s := final step (start [] Runtime.sampleWorld) ((sampleRequests e).take 1)
    let body := text "\x7b\"prompt\":\"hi\"\x7d"
    let events := List.replicate 3 (DashboardServer.tokenEvent (text "a")) ++
      [DashboardServer.doneEvent (text "OK")]
    ∃ read : List StreamEvent, (∀ read' : List StreamEvent, readStream events.flatten =
      read'.map (fun event => some event.document) ↔ read' = read) ∧ StreamTold s e body read := by
  intro e s body events
  exact stream_told s e body (by decide +kernel)

end System

end Dashboard

end EdgeMind
