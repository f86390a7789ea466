import EdgeMind.Dashboard.Json
import EdgeMind.Framework.Json

/-!
# Written strings as JSON texts

What is written of a string is a JSON string that denotes it, character by character.
-/

namespace EdgeMind

open Framework Framework.Json

namespace Dashboard

def jsonCharacter (c : UInt8) : Character :=
  if h34 : c = 34 then .escape .quote
  else if h92 : c = 92 then .escape .backslash
  else if c = 8 then .escape .backspace
  else if c = 12 then .escape .formFeed
  else if c = 10 then .escape .newline
  else if c = 13 then .escape .carriageReturn
  else if c = 9 then .escape .tab
  else if hcontrol : c < 32 then
    .unicode { value := 0 } { value := 0 }
      { value := ⟨c.toNat / 16, by have := UInt8.lt_iff_toNat_lt.mp hcontrol; grind⟩ }
      { value := ⟨c.toNat % 16, Nat.mod_lt _ (by decide)⟩ }
  else .plain c ⟨UInt8.not_lt.mp hcontrol, h34, h92⟩

/-- The characters that are written for a string. -/
def jsonCharacters (s : Bytes) : List Character := s.map jsonCharacter

private theorem digit_byte (n : Fin 16) :
    ({ value := n } : HexDigit).byte = (text "0123456789abcdef").getD n.val 0 := by
  revert n
  decide

theorem jsonCharacter_text (c : UInt8) : (jsonCharacter c).text = jsonEscapeByte c := by
  unfold jsonCharacter jsonEscapeByte
  split_ifs with h34 h92 h8 h12 h10 h13 h9 hcontrol
  on_goal 8 =>
    have hdigits := digit_byte
    rw [Character.text, hdigits, hdigits, hdigits]
    rfl
  all_goals rfl

theorem jsonCharacter_unicode (c : UInt8) : (jsonCharacter c).isUnicode = true ↔
    c < 32 ∧ c ≠ 8 ∧ c ≠ 12 ∧ c ≠ 10 ∧ c ≠ 13 ∧ c ≠ 9 := by
  unfold jsonCharacter
  split_ifs with h34 h92 h8 h12 h10 h13 h9 hcontrol
  on_goal 8 => exact iff_of_true rfl ⟨hcontrol, h8, h12, h10, h13, h9⟩
  on_goal 8 => exact iff_of_false Bool.false_ne_true fun h => hcontrol h.1
  · exact iff_of_false Bool.false_ne_true (by subst h34; decide)
  · exact iff_of_false Bool.false_ne_true (by subst h92; decide)
  · exact iff_of_false Bool.false_ne_true fun h => h.2.1 h8
  · exact iff_of_false Bool.false_ne_true fun h => h.2.2.1 h12
  · exact iff_of_false Bool.false_ne_true fun h => h.2.2.2.1 h10
  · exact iff_of_false Bool.false_ne_true fun h => h.2.2.2.2.1 h13
  · exact iff_of_false Bool.false_ne_true fun h => h.2.2.2.2.2 h9

private theorem utf8_control {c : UInt8} (h : c < 32) : utf8 c.toNat = [c] := by
  have hall : ∀ n < 32, utf8 n = [UInt8.ofNat n] := by decide
  rw [hall c.toNat (UInt8.lt_iff_toNat_lt.mp h), UInt8.ofNat_toNat]

private theorem codeUnit_byte (c : UInt8) (hhigh : c.toNat / 16 < 16) (hlow : c.toNat % 16 < 16) :
    codeUnit { value := 0 } { value := 0 } { value := ⟨c.toNat / 16, hhigh⟩ }
      { value := ⟨c.toNat % 16, hlow⟩ } = c.toNat := by
  change ((0 * 16 + 0) * 16 + c.toNat / 16) * 16 + c.toNat % 16 = c.toNat
  omega

theorem decode_jsonCharacter (c : UInt8) (cs : List Character) :
    decode (jsonCharacter c :: cs) = (decode cs).map (c :: ·) := by
  unfold jsonCharacter
  split_ifs with h34 h92 h8 h12 h10 h13 h9 hcontrol
  · rw [h34]; rfl
  · rw [h92]; rfl
  · rw [h8]; rfl
  · rw [h12]; rfl
  · rw [h10]; rfl
  · rw [h13]; rfl
  · rw [h9]; rfl
  · have hsmall : c.toNat < 32 := UInt8.lt_iff_toNat_lt.mp hcontrol
    rw [decode_unicode (by rw [codeUnit_byte]; omega), codeUnit_byte, utf8_control hcontrol]
    rfl
  · rfl

theorem textOf_jsonCharacters (s : Bytes) : textOf (jsonCharacters s) = jsonEscape s := by
  rw [textOf, jsonCharacters, List.flatMap_map]
  exact List.flatMap_congr fun c _ => jsonCharacter_text c

theorem decode_jsonCharacters (s : Bytes) : decode (jsonCharacters s) = some s := by
  induction s with
  | nil => rfl
  | cons c s ih =>
      rw [jsonCharacters, List.map_cons, decode_jsonCharacter]
      exact congrArg (Option.map (c :: ·)) ih

theorem quoted_jsonCharacters (s : Bytes) : quoted (jsonCharacters s) = jsonString s := by
  rw [quoted, textOf_jsonCharacters]
  rfl

end Dashboard

end EdgeMind
