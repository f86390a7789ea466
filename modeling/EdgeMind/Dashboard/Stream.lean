import EdgeMind.Dashboard.JsonText
import EdgeMind.Dashboard.Server

/-!
# The event stream of a generation

Every piece that the token callback gets is written as an event of one line with a blank line behind it.
Whatever bytes the pieces have, the events can be told apart again, and each holds its piece.
-/

namespace EdgeMind

open Framework Framework.Json

namespace Dashboard

namespace DashboardServer

def tokenObject (piece : Bytes) : Object :=
  .compact [.compact (jsonCharacters (text "token")) (.string (jsonCharacters piece))]

def tokenLine (piece : Bytes) : Bytes := text "data: " ++ (tokenObject piece).text

theorem tokenEvent_eq (piece : Bytes) :
    tokenEvent piece = tokenLine (Api.cString piece) ++ [10, 10] := by
  have hopen : text "data: \x7b\"token\":" =
      text "data: " ++ (123 :: jsonString (text "token") ++ [58]) := by decide
  have hclose : text "\x7d\n\n" = [125] ++ [10, 10] := by decide
  rw [tokenEvent, hopen, hclose, tokenLine, tokenObject, Object.compact_text, quoted_jsonCharacters,
    Value.text, quoted_jsonCharacters]
  simp only [List.append_assoc, List.cons_append, List.nil_append]

theorem newline_notMem_quoted (cs : List Character) : (10 : UInt8) ∉ quoted cs := by
  have htext := newline_notMem_textOf cs
  simp [quoted, htext]

theorem tokenLine_single (piece : Bytes) : tokenLine piece ≠ [] ∧ (10 : UInt8) ∉ tokenLine piece := by
  have hfront : (10 : UInt8) ∉ text "data: " := by decide
  refine ⟨List.append_ne_nil_of_left_ne_nil (by decide) _, ?_⟩
  rw [tokenLine, tokenObject, Object.compact_text, Value.text]
  simp [hfront, newline_notMem_quoted]

/-- The text is an object whose only member is a token, the string. -/
def HoldsToken (o : Object) (token : Bytes) : Prop :=
  ∃ m cs, o.members = [m] ∧ m.Named (text "token") ∧ m.value = .string cs ∧ decode cs = some token

theorem tokenObject_holds (piece : Bytes) : HoldsToken (tokenObject piece) piece :=
  ⟨_, _, rfl, decode_jsonCharacters _, rfl, decode_jsonCharacters _⟩

/-- What the callback writes are the events of the first calls, of all of them as long as the sink is
writable. -/
theorem tokenEvents_take (calls : List TokenCall) :
    (tokenEvents calls).1 =
      (calls.take (tokenEvents calls).1.length).map (fun call => tokenEvent call.piece) ∧
    ((∀ call ∈ calls, call.writableBefore = true ∧ call.writableAfter = true) →
      (tokenEvents calls).1.length = calls.length) := by
  induction calls with
  | nil => exact ⟨rfl, fun _ => rfl⟩
  | cons call calls ih =>
      obtain ⟨htake, hall⟩ := ih
      unfold tokenEvents
      split
      · next hbefore =>
          exact ⟨rfl, fun h => absurd (h call List.mem_cons_self).1 hbefore⟩
      split
      · refine ⟨?_, fun h => ?_⟩
        · rw [List.length_cons, List.take_succ_cons, List.map_cons, ← htake]
        · rw [List.length_cons, List.length_cons,
            hall fun call hcall => h call (List.mem_cons_of_mem _ hcall)]
      · next hafter =>
          exact ⟨rfl, fun h => absurd (h call List.mem_cons_self).2 hafter⟩

/-- Split at blank lines, what the callback has written is one event for each piece in order, as far as
the sink was writable: a line that holds the piece. -/
theorem stream_events (calls : List TokenCall)
    (hpieces : ∀ call ∈ calls, (0 : UInt8) ∉ call.piece) :
    let events := (tokenEvents calls).1
    List.Forall₂
      (fun event piece => ∃ o : Object, event = [text "data: " ++ o.text] ∧ HoldsToken o piece)
      (paragraphs (lines events.flatten)) ((calls.take events.length).map TokenCall.piece) ∧
    ((∀ call ∈ calls, call.writableBefore = true ∧ call.writableAfter = true) →
      events.length = calls.length) := by
  intro events
  obtain ⟨htake, hall⟩ := tokenEvents_take calls
  refine ⟨?_, hall⟩
  have hevents : events.flatten =
      ((calls.take events.length).map fun call => tokenLine call.piece).flatMap (· ++ [10, 10]) := by
    change (tokenEvents calls).1.flatten = _
    rw [htake, List.flatMap_map]
    refine List.flatMap_congr fun call hcall => ?_
    rw [tokenEvent_eq, Api.cString_of_notMem (hpieces call (List.mem_of_mem_take hcall))]
  have hlines : ∀ l ∈ (calls.take events.length).map (fun call => tokenLine call.piece),
      l ≠ [] ∧ (10 : UInt8) ∉ l := by
    intro l hl
    obtain ⟨call, -, rfl⟩ := List.mem_map.mp hl
    exact tokenLine_single call.piece
  rw [hevents, paragraphs_blocks hlines, List.map_map, List.forall₂_map_left_iff,
    List.forall₂_map_right_iff, List.forall₂_same]
  intro call _
  exact ⟨tokenObject call.piece, rfl, tokenObject_holds call.piece⟩

/-- Pieces with a quote, a blank line and a control character. -/
def roughCalls : List TokenCall :=
  [⟨text "say \"", true, true⟩, ⟨text "\n\ndata: ", true, true⟩, ⟨[1, 92, 195], true, true⟩]

theorem stream_events_rough :
    List.Forall₂
      (fun event piece => ∃ o : Object, event = [text "data: " ++ o.text] ∧ HoldsToken o piece)
      (paragraphs (lines (tokenEvents roughCalls).1.flatten)) (roughCalls.map TokenCall.piece) :=
  (stream_events roughCalls (by decide)).1

end DashboardServer

end Dashboard

end EdgeMind
