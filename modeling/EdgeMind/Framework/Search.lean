import EdgeMind.Framework.Bytes

/-!
# Searches in strings

The first and the last position of a string in another, and what stands before and behind it. A
string is found where it was put, unless it begins earlier (or later).
-/

namespace EdgeMind.Framework

variable (needle : Bytes)

/-- The first position at which the string begins. -/
def findFirst : Bytes → Option Nat
  | [] => if needle = [] then some 0 else none
  | b :: s => if needle <+: b :: s then some 0 else (findFirst s).map (· + 1)

/-- `s.find(needle, pos)`, with `none` for `npos`. -/
def find (s : Bytes) (pos : Nat) : Option Nat :=
  if pos ≤ s.length then (findFirst needle (s.drop pos)).map (· + pos) else none

/-- `s.rfind(needle)`. -/
def rfind : Bytes → Option Nat
  | [] => if needle = [] then some 0 else none
  | b :: s =>
      match rfind s with
      | some i => some (i + 1)
      | none => if needle <+: b :: s then some 0 else none

/-- `s.substr(pos, count)`, up to the end without a count. -/
def substr (s : Bytes) (pos : Nat) (count : Option Nat) : Bytes :=
  match count with
  | none => s.drop pos
  | some count => (s.drop pos).take count

variable {needle}

private theorem dropLast_prefix_append (before after : Bytes) :
    before ++ needle.dropLast <+: before ++ needle ++ after := by
  rw [List.append_assoc, List.prefix_append_right_inj]
  exact (List.dropLast_prefix needle).trans (List.prefix_append needle after)

theorem findFirst_eq_some {s : Bytes} {i : Nat} (h : findFirst needle s = some i)
    (hne : needle ≠ []) : ∃ before after, s = before ++ needle ++ after ∧ before.length = i ∧
      ¬needle <:+: before ++ needle.dropLast := by
  induction s generalizing i with
  | nil =>
      rw [findFirst, if_neg hne] at h
      cases h
  | cons b s ih =>
      rw [findFirst] at h
      split at h
      · next hprefix =>
          cases h
          obtain ⟨after, hafter⟩ := hprefix
          refine ⟨[], after, by rw [List.nil_append, hafter], rfl, fun hoccurs => ?_⟩
          have hlength := hoccurs.length_le
          rw [List.nil_append, List.length_dropLast] at hlength
          have := List.length_pos_iff.mpr hne
          omega
      · next hprefix =>
          obtain ⟨j, hj, rfl⟩ := Option.map_eq_some_iff.mp h
          obtain ⟨before, after, hs, hlength, hbefore⟩ := ih hj
          refine ⟨b :: before, after, by rw [hs]; rfl, by rw [List.length_cons, hlength], ?_⟩
          intro hoccurs
          rcases List.infix_cons_iff.mp hoccurs with hstart | hoccurs
          · apply hprefix
            rw [hs]
            exact hstart.trans (dropLast_prefix_append (b :: before) after)
          · exact hbefore hoccurs

theorem findFirst_append {before : Bytes} (after : Bytes)
    (h : ¬needle <:+: before ++ needle.dropLast) (hne : needle ≠ []) :
    findFirst needle (before ++ needle ++ after) = some before.length := by
  induction before with
  | nil =>
      obtain ⟨b, rest, rfl⟩ := List.exists_cons_of_ne_nil hne
      rw [List.nil_append, List.cons_append, findFirst, if_pos]
      · rfl
      · exact List.prefix_append (b :: rest) after
  | cons b before ih =>
      have hrest : ¬needle <:+: before ++ needle.dropLast := fun hoccurs =>
        h (hoccurs.trans (List.infix_cons (List.infix_refl _)))
      rw [List.cons_append, List.cons_append, findFirst, if_neg, ih hrest]
      · rfl
      · intro hprefix
        have hwhole : b :: before ++ needle.dropLast <+: b :: (before ++ needle ++ after) :=
          dropLast_prefix_append (b :: before) after
        have hlength : needle.length ≤ (b :: before ++ needle.dropLast).length := by
          rw [List.length_append, List.length_cons, List.length_dropLast]
          omega
        exact h (List.prefix_of_prefix_length_le hprefix hwhole hlength).isInfix

theorem find_eq_some {s : Bytes} {pos i : Nat} (h : find needle s pos = some i) (hne : needle ≠ []) :
    ∃ before after, s.drop pos = before ++ needle ++ after ∧ before.length = i - pos ∧
      ¬needle <:+: before ++ needle.dropLast := by
  unfold find at h
  split at h
  · obtain ⟨j, hj, rfl⟩ := Option.map_eq_some_iff.mp h
    rw [Nat.add_sub_cancel]
    exact findFirst_eq_some hj hne
  · cases h

theorem find_eq_none {s : Bytes} {pos : Nat} (h : ¬needle <:+: s.drop pos) (hne : needle ≠ []) :
    find needle s pos = none := by
  cases hfind : find needle s pos with
  | none => rfl
  | some i =>
      obtain ⟨before, after, hs, -⟩ := find_eq_some hfind hne
      exact absurd ⟨before, after, hs.symm⟩ h

theorem find_append (front : Bytes) {before : Bytes} (after : Bytes)
    (h : ¬needle <:+: before ++ needle.dropLast) (hne : needle ≠ []) :
    find needle (front ++ (before ++ needle ++ after)) front.length =
      some (before.length + front.length) := by
  rw [find, if_pos (by simp), List.drop_left, findFirst_append after h hne]
  rfl

theorem rfind_append (before : Bytes) {after : Bytes} (h : ¬needle <:+: needle.tail ++ after)
    (hne : needle ≠ []) : rfind needle (before ++ needle ++ after) = some before.length := by
  have hnone (s : Bytes) (hs : ¬needle <:+: s) : rfind needle s = none := by
    induction s with
    | nil => rw [rfind, if_neg hne]
    | cons b s ih =>
        rw [rfind, ih fun hoccurs => hs (hoccurs.trans (List.infix_cons (List.infix_refl _)))]
        exact if_neg fun hprefix => hs hprefix.isInfix
  induction before with
  | nil =>
      obtain ⟨b, rest, rfl⟩ := List.exists_cons_of_ne_nil hne
      rw [List.tail_cons] at h
      rw [List.nil_append, List.cons_append, rfind, hnone _ h]
      exact if_pos (List.prefix_append (b :: rest) after)
  | cons b before ih =>
      rw [List.cons_append, List.cons_append, rfind, ih]
      rfl

theorem substr_middle (front mid rest : Bytes) :
    substr (front ++ (mid ++ rest)) front.length (some mid.length) = mid := by
  rw [substr, List.drop_left, List.take_left]

theorem substr_end (front rest : Bytes) : substr (front ++ rest) front.length none = rest :=
  List.drop_left

theorem infix_of_infix_append {c : UInt8} {s after : Bytes} (hneedle : needle.getLast? = some c)
    (hc : c ∉ after) (h : needle <:+: s ++ after) : needle <:+: s := by
  obtain ⟨front, rfl⟩ := List.getLast?_eq_some_iff.mp hneedle
  obtain ⟨before, rest, hs⟩ := h
  rcases List.append_eq_append_iff.mp hs with ⟨tail, hs, -⟩ | ⟨tail, hs, hafter⟩
  · exact ⟨before, tail, hs.symm⟩
  · rcases List.eq_nil_or_concat' tail with rfl | ⟨tail, d, rfl⟩
    · exact ⟨before, [], by rw [List.append_nil, hs, List.append_nil]⟩
    · rw [← List.append_assoc, ← List.append_assoc] at hs
      obtain ⟨-, hlast⟩ := List.append_inj' hs rfl
      cases hlast
      exact absurd (by simp [hafter]) hc

end EdgeMind.Framework
