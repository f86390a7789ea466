import Mathlib.Algebra.Order.Ring.Int
import Mathlib.Tactic.SplitIfs

/-!
# Machine integers

Sums, differences and products of signed 64-bit integers, checked: one that leaves the range has no
value, and neither has what is computed with it. Sums of 32-bit integers, which wrap.
-/

namespace EdgeMind.Framework

/-- What a signed 64-bit integer can hold. -/
def InInt64 (z : Int) : Prop := -2 ^ 63 ≤ z ∧ z < 2 ^ 63

instance (z : Int) : Decidable (InInt64 z) := inferInstanceAs (Decidable (_ ∧ _))

def addInt64 (a b : Int) : Option Int := if InInt64 (a + b) then some (a + b) else none

def subInt64 (a b : Int) : Option Int := if InInt64 (a - b) then some (a - b) else none

def mulInt64 (a b : Int) : Option Int := if InInt64 (a * b) then some (a * b) else none

theorem addInt64_eq {a b : Int} (h : InInt64 (a + b)) : addInt64 a b = some (a + b) := if_pos h

theorem subInt64_eq {a b : Int} (h : InInt64 (a - b)) : subInt64 a b = some (a - b) := if_pos h

theorem subInt64_of_nonneg {a b : Int} (ha : 0 ≤ a) (hb : 0 ≤ b) (ha' : a < 2 ^ 63)
    (hb' : b < 2 ^ 63) : subInt64 a b = some (a - b) := by
  apply subInt64_eq
  unfold InInt64
  omega

theorem subInt64_bind {α : Type} {a b : Int} (ha : 0 ≤ a) (hb : 0 ≤ b) (ha' : a < 2 ^ 63)
    (hb' : b < 2 ^ 63) (f : Int → Option α) : (subInt64 a b >>= f) = f (a - b) := by
  rw [subInt64_of_nonneg ha hb ha' hb', Option.bind_eq_bind, Option.bind_some]

theorem int32_add_toInt {a b : Int32} (ha : 0 ≤ a.toInt) (hb : 0 ≤ b.toInt) :
    (a + b).toInt =
      if a.toInt + b.toInt < 2 ^ 31 then a.toInt + b.toInt else a.toInt + b.toInt - 2 ^ 32 := by
  have ha' := a.toInt_lt
  have hb' := b.toInt_lt
  rw [Int32.toInt_add, Int.bmod_def]
  split_ifs <;> omega

end EdgeMind.Framework
