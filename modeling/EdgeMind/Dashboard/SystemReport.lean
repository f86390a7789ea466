import EdgeMind.Dashboard.Server
import EdgeMind.Framework.JsonDocument
import EdgeMind.Inference.MemoryObserver
import Mathlib.Data.Nat.Log

/-!
# The report of the system memory

The sizes are printed in bytes and, as a stream prints a floating-point number, in megabytes with six
significant digits.
-/

namespace EdgeMind

open Framework Framework.Json

namespace Dashboard

/-- The digits of a fraction without the zeros at their end. -/
def stripZeros (digits : Bytes) : Bytes := (digits.reverse.dropWhile (· = 48)).reverse

def padded (width n : Nat) : Bytes := List.replicate (width - (decimal n).length) 48 ++ decimal n

def pointed (whole : Nat) (digits : Bytes) : Bytes :=
  decimal whole ++ if stripZeros digits = [] then [] else text "." ++ stripZeros digits

/-- Six significant digits, of which the first stands at the place of `10 ^ (place - 7)`. -/
structure Significant where
  digits : Nat
  place : Nat

/-- The digits of `m / 2^20`, rounded to the nearest, ties to even. -/
def significant (m : Nat) : Significant :=
  let place := Nat.log 10 (m * 10 ^ 7 / 2 ^ 20)
  let digits := divNearestEven (m * 10 ^ (12 - place)) (2 ^ 20 * 10 ^ (place - 12))
  if digits = 10 ^ 6 then ⟨10 ^ 5, place + 1⟩ else ⟨digits, place⟩

/-- `out << static_cast<double>(bytes) / 1048576.0`; the division is exact. An exponent is printed below
`10 ^ (-4)` and from `10 ^ 6` on. -/
def streamedMb (bytes : UInt64) : Bytes :=
  let m := toDouble bytes.toNat
  if m = 0 then text "0"
  else
    let s := significant m
    if 3 ≤ s.place ∧ s.place < 13 then
      let unit := 10 ^ (12 - s.place)
      pointed (s.digits / unit) (padded (12 - s.place) (s.digits % unit))
    else
      pointed (s.digits / 10 ^ 5) (padded 5 (s.digits % 10 ^ 5)) ++
        if s.place < 7 then text "e-" ++ padded 2 (7 - s.place)
        else text "e+" ++ padded 2 (s.place - 7)

def systemJson (info : SystemMemoryInfo) : Bytes :=
  text "\x7b\"available\":" ++ jsonBool info.available ++
    text ",\"total_bytes\":" ++ decimal info.totalBytes.toNat ++
    text ",\"available_bytes\":" ++ decimal info.availableBytes.toNat ++
    text ",\"total_mb\":" ++ streamedMb info.totalBytes ++
    text ",\"available_mb\":" ++ streamedMb info.availableBytes ++ text "\x7d"

theorem padded_isDigit (width n : Nat) : ∀ b ∈ padded width n, isDigit b = true := by
  intro b hb
  rcases List.mem_append.mp hb with hb | hb
  · rw [List.eq_of_mem_replicate hb]
    decide
  · exact decimal_isDigit n b hb

theorem padded_ne_nil (width n : Nat) : padded width n ≠ [] :=
  List.append_ne_nil_of_right_ne_nil _ (decimal_ne_nil n)

theorem mem_of_mem_stripZeros {digits : Bytes} {b : UInt8} (h : b ∈ stripZeros digits) :
    b ∈ digits := by
  have hmem := (List.dropWhile_sublist _).mem (List.mem_reverse.mp h)
  exact List.mem_reverse.mp hmem

theorem isExponent_sign {sign : UInt8} (hsign : sign = 43 ∨ sign = 45) (n : Nat) :
    isExponent (101 :: sign :: padded 2 n) = true := by
  have hdigits : (padded 2 n).all isDigit = true := List.all_eq_true.mpr (padded_isDigit 2 n)
  rcases hsign with rfl | rfl <;> simp [isExponent, hdigits, padded_ne_nil]

theorem isNumber_pointed (whole width n : Nat) {exponent : Bytes} (h : isExponent exponent = true) :
    isNumber (pointed whole (padded width n) ++ exponent) = true := by
  have hfraction : ∀ b ∈ stripZeros (padded width n), isDigit b = true :=
    fun b hb => padded_isDigit width n b (mem_of_mem_stripZeros hb)
  have hparts := isNumber_parts false whole hfraction h
  rw [if_neg Bool.false_ne_true, List.nil_append, ← List.append_assoc] at hparts
  exact hparts

theorem isNumber_streamedMb (bytes : UInt64) : isNumber (streamedMb bytes) = true := by
  unfold streamedMb
  dsimp only
  split
  · rfl
  split
  · rw [← List.append_nil (pointed _ _)]
    exact isNumber_pointed _ _ _ rfl
  · split
    · exact isNumber_pointed _ _ _ (isExponent_sign (.inr rfl) _)
    · exact isNumber_pointed _ _ _ (isExponent_sign (.inl rfl) _)

end Dashboard

end EdgeMind
