import EdgeMind.Framework.Bytes

/-!
# JSON strings

Strings are written with their quotes, backslashes and control characters escaped. A written string
ends at the first quote that is not escaped, so that what was written can be told from what follows.
-/

namespace EdgeMind

open Framework

namespace Dashboard

def jsonEscapeByte (c : UInt8) : Bytes :=
  if c = 34 then text "\\\""
  else if c = 92 then text "\\\\"
  else if c = 8 then text "\\b"
  else if c = 12 then text "\\f"
  else if c = 10 then text "\\n"
  else if c = 13 then text "\\r"
  else if c = 9 then text "\\t"
  else if c < 32 then text "\\u" ++ (text "00" ++ hexByte (text "0123456789abcdef") c)
  else [c]

def jsonEscape (input : Bytes) : Bytes := input.flatMap jsonEscapeByte

def jsonString (s : Bytes) : Bytes := text "\"" ++ jsonEscape s ++ text "\""

def lowerHexVal (c : UInt8) : UInt8 := if c < 58 then c - 48 else c - 87

/-- The character at the front of a string, unescaped, and the rest. -/
def jsonReadByte : Bytes → Option (UInt8 × Bytes)
  | [] => none
  | c :: rest =>
      if c ≠ 92 then some (c, rest)
      else
        match rest with
        | 117 :: _ :: _ :: h :: l :: rest => some (16 * lowerHexVal h + lowerHexVal l, rest)
        | 98 :: rest => some (8, rest)
        | 102 :: rest => some (12, rest)
        | 110 :: rest => some (10, rest)
        | 114 :: rest => some (13, rest)
        | 116 :: rest => some (9, rest)
        | e :: rest => some (e, rest)
        | [] => none

theorem jsonReadByte_escape (c : UInt8) (rest : Bytes) :
    jsonReadByte (jsonEscapeByte c ++ rest) = some (c, rest) := by
  unfold jsonEscapeByte
  split_ifs with h34 h92 h8 h12 h10 h13 h9 hcontrol
  · rw [h34]; rfl
  · rw [h92]; rfl
  · rw [h8]; rfl
  · rw [h12]; rfl
  · rw [h10]; rfl
  · rw [h13]; rfl
  · rw [h9]; rfl
  · have hdigits : ∀ n < 32, 16 * lowerHexVal
        ((text "0123456789abcdef").getD ((UInt8.ofNat n).toNat / 16) 0) +
        lowerHexVal ((text "0123456789abcdef").getD ((UInt8.ofNat n).toNat % 16) 0) =
          UInt8.ofNat n := by
      decide
    have hc := hdigits c.toNat (UInt8.lt_iff_toNat_lt.mp hcontrol)
    rw [UInt8.ofNat_toNat] at hc
    change some (_, rest) = _
    rw [hc]
  · exact if_pos h92

theorem jsonEscapeByte_head (c : UInt8) (rest : Bytes) : ∃ b s, jsonEscapeByte c ++ rest = b :: s ∧
    b ≠ 34 := by
  unfold jsonEscapeByte
  split_ifs with h34 h92 h8 h12 h10 h13 h9 hcontrol
  on_goal 9 => exact ⟨c, rest, rfl, h34⟩
  all_goals exact ⟨92, _, rfl, by decide⟩

theorem jsonEscape_append_inj {s s' rest rest' : Bytes}
    (h : jsonEscape s ++ 34 :: rest = jsonEscape s' ++ 34 :: rest') : s = s' ∧ rest = rest' := by
  induction s generalizing s' with
  | nil =>
      cases s' with
      | nil => exact ⟨rfl, (List.cons.inj h).2⟩
      | cons c s' =>
          obtain ⟨b, t, hhead, hb⟩ := jsonEscapeByte_head c (jsonEscape s' ++ 34 :: rest')
          rw [jsonEscape, jsonEscape, List.flatMap_cons, List.append_assoc] at h
          exact absurd (List.cons.inj (h.trans hhead)).1.symm hb
  | cons c s ih =>
      cases s' with
      | nil =>
          obtain ⟨b, t, hhead, hb⟩ := jsonEscapeByte_head c (jsonEscape s ++ 34 :: rest)
          rw [jsonEscape, jsonEscape, List.flatMap_cons, List.append_assoc] at h
          exact absurd (List.cons.inj (h.symm.trans hhead)).1.symm hb
      | cons c' s' =>
          rw [jsonEscape, jsonEscape, List.flatMap_cons, List.flatMap_cons, List.append_assoc,
            List.append_assoc] at h
          have hread := congrArg jsonReadByte h
          rw [jsonReadByte_escape, jsonReadByte_escape] at hread
          obtain ⟨hc, hrest⟩ := Prod.mk.inj (Option.some.inj hread)
          obtain ⟨hs, hrest⟩ := ih hrest
          exact ⟨by rw [hc, hs], hrest⟩

theorem jsonString_append_inj {s s' rest rest' : Bytes}
    (h : jsonString s ++ rest = jsonString s' ++ rest') : s = s' ∧ rest = rest' := by
  have hquote : text "\"" = [34] := rfl
  simp only [jsonString, hquote, List.append_assoc, List.singleton_append] at h
  exact jsonEscape_append_inj (List.cons.inj h).2

end Dashboard

end EdgeMind
