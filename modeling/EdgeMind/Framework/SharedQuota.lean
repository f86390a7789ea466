import Mathlib.Data.Fintype.Card
import Mathlib.Data.Finset.Card
import Mathlib.Logic.Relation
import Mathlib.Tactic.Linarith

/-!
# A counter that several clients charge after the fact

A client is admitted while the counter is below a limit, and charges it only when its work is done.
Between the two, other clients are admitted on the same count, so the counter can pass the limit; it
passes it by what the clients that are admitted at one time may charge, and by no more.
-/

namespace EdgeMind.Framework

/-- The counter, and the clients that are admitted and have not charged it yet. -/
structure Meter (ι : Type*) where
  used : Int
  admitted : Finset ι

namespace Meter

variable {ι : Type*} {limit cost : Int}

section Bound

variable [Fintype ι]

/-- What the counter is, with all that is still to be charged. -/
def Bounded (limit cost : Int) (m : Meter ι) : Prop :=
  max 0 m.used + cost * m.admitted.card ≤ limit - 1 + cost * Fintype.card ι

end Bound

variable [DecidableEq ι]

/-- A new period, an admission below the limit, and the end of an admission with a charge of at most
`cost`. -/
inductive Step (limit cost : Int) : Meter ι → Meter ι → Prop
  | restart (m : Meter ι) : Step limit cost m { m with used := 0 }
  | enter (m : Meter ι) (i : ι) (hlimit : m.used < limit) :
      Step limit cost m { m with admitted := insert i m.admitted }
  | finish (m : Meter ι) (i : ι) (hi : i ∈ m.admitted) (used : Int)
      (hused : used ≤ max 0 m.used + cost) :
      Step limit cost m ⟨used, m.admitted.erase i⟩

abbrev Leads (limit cost : Int) : Meter ι → Meter ι → Prop :=
  Relation.ReflTransGen (Step limit cost)

variable [Fintype ι]

theorem Step.bounded (hlimit : 1 ≤ limit) (hcost : 0 ≤ cost) {m m' : Meter ι}
    (h : Step limit cost m m') (hm : Bounded limit cost m) : Bounded limit cost m' := by
  have hcard (s : Finset ι) : cost * (s.card : Int) ≤ cost * Fintype.card ι :=
    mul_le_mul_of_nonneg_left (by exact_mod_cast s.card_le_univ) hcost
  cases h with
  | restart =>
      have hall := hcard m.admitted
      change max 0 0 + cost * (m.admitted.card : Int) ≤ _
      rw [max_self]
      linarith
  | enter i hused =>
      have hall := hcard (insert i m.admitted)
      change max 0 m.used + cost * ((insert i m.admitted).card : Int) ≤ _
      have hmax : max 0 m.used ≤ limit - 1 := max_le (by linarith) (Int.le_sub_one_of_lt hused)
      linarith
  | finish i hi used hused =>
      have hrest := Finset.card_erase_add_one hi
      have hall := hcard (m.admitted.erase i)
      unfold Bounded at hm
      rw [← hrest, Nat.cast_succ, mul_add, mul_one] at hm
      have hmax : max 0 used ≤ max 0 m.used + cost :=
        max_le (add_nonneg (le_max_left 0 _) hcost) hused
      change max 0 used + cost * ((m.admitted.erase i).card : Int) ≤ _
      linarith

theorem Leads.bounded (hlimit : 1 ≤ limit) (hcost : 0 ≤ cost) {m m' : Meter ι}
    (h : Leads limit cost m m') (hm : Bounded limit cost m) : Bounded limit cost m' := by
  induction h with
  | refl => exact hm
  | tail _ hstep ih => exact hstep.bounded hlimit hcost ih

end Meter

end EdgeMind.Framework
