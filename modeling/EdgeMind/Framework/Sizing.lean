import EdgeMind.Framework.CheckedInt
import Mathlib.Data.List.Basic

/-!
# Buffers that are sized by a call

A call is given room for some elements, and returns a number with what the buffer then begins with. There
are two conventions to say how much room the whole needs: the number is negated where the room is too small,
or it is the size of the whole in any case. A caller that calls again with the room it was told gets the
whole, as long as 32 bits can count it.
-/

namespace EdgeMind.Framework

/-- For each room, the number that is returned and what the buffer begins with. -/
abbrev Filler (α : Type*) := Int32 → Int32 × List α

variable {α : Type*} {fill : Filler α} {whole : List α} {room : Int32}

/-- What a signed 32-bit number can count. -/
def Counted (whole : List α) : Prop := whole.length < 2 ^ 31

instance (whole : List α) : Decidable (Counted whole) := inferInstanceAs (Decidable (_ < _))

def count (whole : List α) : Int32 := Int32.ofNat whole.length

theorem count_toInt (h : Counted whole) : (count whole).toInt = whole.length :=
  Int32.toInt_ofNat_of_lt h

theorem count_toNat (h : Counted whole) : (count whole).toNatClampNeg = whole.length := by
  rw [← Int32.toNat_toInt, count_toInt h, Int.toNat_natCast]

theorem neg_count_toInt (h : Counted whole) : (-count whole).toInt = -(whole.length : Int) := by
  have hlt : (whole.length : Int) < 2 ^ 31 := by exact_mod_cast h
  rw [Int32.toInt_neg, count_toInt h]
  exact Int.bmod_eq_of_le (by omega) (by omega)

theorem not_count_neg (h : Counted whole) : ¬count whole < 0 := by
  rw [Int32.lt_iff_toInt_lt, count_toInt h, Int32.toInt_zero]
  omega

/-- The size of the whole is negated where the room is too small. -/
structure Negating (fill : Filler α) (whole : List α) : Prop where
  fits : ∀ room : Int32, whole.length ≤ room.toInt → fill room = (count whole, whole)
  short : ∀ room : Int32, 0 ≤ room.toInt → room.toInt < whole.length → (fill room).1 = -count whole

/-- The size of the whole is returned in any case. -/
structure Telling (fill : Filler α) (whole : List α) : Prop where
  size : ∀ room, (fill room).1 = count whole
  fits : ∀ room : Int32, whole.length ≤ room.toInt → (fill room).2 = whole

theorem Negating.probe (h : Negating fill whole) : -(fill 0).1 = count whole := by
  by_cases hempty : whole = []
  · rw [h.fits 0 (by rw [hempty]; exact Int.le_refl 0), hempty]
    change -Int32.ofNat 0 = Int32.ofNat 0
    decide
  · have hlength := List.length_pos_of_ne_nil hempty
    rw [h.short 0 (Int.le_refl 0) (by rw [Int32.toInt_zero]; omega), Int32.neg_neg]

theorem Negating.of_neg (h : Negating fill whole) (hcount : Counted whole) (hroom : 0 ≤ room.toInt)
    (hneg : (fill room).1 < 0) : -(fill room).1 = count whole := by
  by_cases hfits : whole.length ≤ room.toInt
  · rw [h.fits room hfits] at hneg
    exact absurd hneg (not_count_neg hcount)
  · rw [h.short room hroom (by omega), Int32.neg_neg]

theorem Negating.of_nonneg (h : Negating fill whole) (hcount : Counted whole) (hroom : 0 ≤ room.toInt)
    (hnonneg : ¬(fill room).1 < 0) : fill room = (count whole, whole) := by
  apply h.fits
  by_contra hfits
  rw [h.short room hroom (by omega), Int32.lt_iff_toInt_lt, neg_count_toInt hcount,
    Int32.toInt_zero] at hnonneg
  omega

theorem Negating.again (h : Negating fill whole) (hcount : Counted whole) :
    fill (count whole) = (count whole, whole) :=
  h.fits _ (by rw [count_toInt hcount])

/-- The size is asked for without a buffer. The least number, whose negation overflows, is its own. -/
def probed (fill : Filler α) : Option (List α) :=
  let needed := -(fill 0).1
  if needed ≤ 0 then some []
  else
    let (n, written) := fill needed
    if n < 0 then none else some (written.take n.toNatClampNeg)

theorem probed_eq (h : Negating fill whole) (hcount : Counted whole) : probed fill = some whole := by
  unfold probed
  dsimp only
  rw [h.probe, h.again hcount]
  split
  · next hempty =>
      rw [Int32.le_iff_toInt_le, count_toInt hcount, Int32.toInt_zero] at hempty
      have hlength : whole.length = 0 := by omega
      rw [List.length_eq_zero_iff.mp hlength]
  · rw [if_neg (not_count_neg hcount), count_toNat hcount, List.take_length]

/-- A first buffer is tried, and one of the size that is told if it is too small. -/
def retried (room : Int32) (fill : Filler α) : List α :=
  let (n, written) := fill room
  if n < 0 then
    let (n, written) := fill (-n)
    if n < 0 then [] else written.take n.toNatClampNeg
  else written.take n.toNatClampNeg

theorem retried_eq (h : Negating fill whole) (hcount : Counted whole) (hroom : 0 ≤ room.toInt) :
    retried room fill = whole := by
  unfold retried
  dsimp only
  split
  · next hneg =>
      rw [h.of_neg hcount hroom hneg, h.again hcount]
      dsimp only
      rw [if_neg (not_count_neg hcount), count_toNat hcount, List.take_length]
  · next hnonneg =>
      rw [h.of_nonneg hcount hroom hnonneg, count_toNat hcount, List.take_length]

/-- A first buffer is tried, and grown if the size is larger; a negative number is a failure. -/
def grown (room : Int32) (fill : Filler α) : Option (List α) :=
  let (n, written) := fill room
  if n < 0 then none
  else if n > room then
    let (n, written) := fill n
    if n < 0 then none else some (written.take n.toNatClampNeg)
  else some (written.take n.toNatClampNeg)

/-- The size is told, or the call fails whatever the room is. -/
def TellsOrFails (fill : Filler α) : Option (List α) → Prop
  | some whole => Telling fill whole
  | none => ∀ room, (fill room).1 < 0

theorem grown_eq {result : Option (List α)} (h : TellsOrFails fill result)
    (hcount : ∀ whole, result = some whole → Counted whole) (room : Int32) :
    grown room fill = result := by
  unfold grown
  dsimp only
  cases result with
  | none => rw [if_pos (h room)]
  | some whole =>
      have htells : Telling fill whole := h
      have hcount := hcount whole rfl
      rw [htells.size, if_neg (not_count_neg hcount), count_toNat hcount]
      split
      · rw [htells.size, if_neg (not_count_neg hcount), count_toNat hcount,
          htells.fits _ (by rw [count_toInt hcount]), List.take_length]
      · next hroom =>
          rw [gt_iff_lt, Int32.lt_iff_toInt_lt, count_toInt hcount] at hroom
          rw [htells.fits _ (by omega), List.take_length]

end EdgeMind.Framework
