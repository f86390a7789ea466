import EdgeMind.Framework.Run
import Mathlib.Data.List.Induction

/-!
# Variables that a loop assigns

A loop over a list that assigns a variable at some of the elements leaves it with the value of the
last of them, and so does a run whose steps assign a part of the state on some of the inputs.
-/

namespace EdgeMind.Framework

variable {α β σ : Type*}

def lastWhere (p : α → Bool) (l : List α) : Option α := l.reverse.find? p

theorem lastWhere_concat (p : α → Bool) (l : List α) (a : α) :
    lastWhere p (l ++ [a]) = if p a then some a else lastWhere p l := by
  rw [lastWhere, List.reverse_concat, List.find?_cons, lastWhere]
  cases p a <;> rfl

theorem lastWhere_cons (p : α → Bool) (a : α) (l : List α) :
    lastWhere p (a :: l) = (lastWhere p l).or (if p a then some a else none) := by
  rw [lastWhere, List.reverse_cons, List.find?_append, List.find?_singleton, lastWhere]

theorem lastWhere_eq_none_iff (p : α → Bool) (l : List α) :
    lastWhere p l = none ↔ ∀ a ∈ l, p a = false := by
  simp [lastWhere]

theorem mem_of_lastWhere {p : α → Bool} {l : List α} {a : α} (h : lastWhere p l = some a) :
    a ∈ l ∧ p a = true :=
  ⟨List.mem_reverse.mp (List.mem_of_find?_eq_some h), List.find?_some h⟩

theorem lastWhere_filter {p q : α → Bool} (h : ∀ a, p a = true → q a = true) (l : List α) :
    lastWhere p (l.filter q) = lastWhere p l := by
  rw [lastWhere, lastWhere, ← List.filter_reverse, List.find?_filter]
  congr 1
  funext a
  cases hp : p a with
  | false => simp
  | true => simp [h a hp]

theorem foldl_assigned {get : σ → Option β} {step : σ → α → σ} {p : α → Bool} {value : α → β}
    (h : ∀ s a, get (step s a) = if p a then some (value a) else get s) (s : σ) (l : List α) :
    get (l.foldl step s) = ((lastWhere p l).map value).or (get s) := by
  induction l using List.reverseRecOn with
  | nil => rfl
  | append_singleton l a ih =>
      rw [List.foldl_append, List.foldl_cons, List.foldl_nil, h, lastWhere_concat]
      split
      · rfl
      · exact ih

section Runs

variable {State Input Output : Type*} {step : State → Input → State × Output} {get : State → β}
  {assign : Input → Option β}

/-- What the last assignment of a run has left. -/
theorem final_assigned (h : ∀ s i, get (step s i).1 = (assign i).getD (get s)) (s : State)
    (is : List Input) :
    get (final step s is) = (is.filterMap assign).getLast?.getD (get s) := by
  induction is using List.reverseRecOn with
  | nil => rfl
  | append_singleton is i ih =>
      rw [final_append, List.filterMap_append]
      change get (step (final step s is) i).1 = _
      rw [h, ih]
      cases hassign : assign i with
      | none => simp [hassign]
      | some b => simp [hassign]

/-- The same of a run whose steps decide by the state what they assign. -/
theorem trace_assigned {assign : State → Input → Option β} {s : State} {is : List Input}
    (h : ∀ e ∈ trace step s is,
      get (step e.before e.input).1 = (assign e.before e.input).getD (get e.before)) :
    get (final step s is) =
      ((trace step s is).filterMap fun e => assign e.before e.input).getLast?.getD (get s) := by
  induction is generalizing s with
  | nil => rfl
  | cons i is ih =>
      rw [trace, List.forall_mem_cons] at h
      obtain ⟨hfirst, hrest⟩ := h
      change get (final step (step s i).1 is) = _
      rw [ih hrest, hfirst, trace]
      cases hassign : assign s i with
      | none => simp [hassign]
      | some b => simp [hassign, List.getLast?_cons]

/-- A variable that starts with a value no assignment gives holds that of the last input, or still the
first, exactly if the last input assigns it or none did before. -/
theorem final_concat_iff (h : ∀ s i, get (step s i).1 = (assign i).getD (get s)) {s : State}
    (hne : ∀ i, assign i ≠ some (get s)) (past : List Input) (i : Input) :
    get (final step s (past ++ [i])) = (assign i).getD (get s) ↔
      (assign i).isSome = true ∨ ∀ p ∈ past, assign p = none := by
  rw [final_assigned h, List.filterMap_append]
  cases hassign : assign i with
  | some b => simp [hassign]
  | none =>
      rw [Option.getD_none, ← List.filterMap_eq_nil_iff]
      simp only [hassign, List.filterMap_cons_none, List.filterMap_nil, List.append_nil,
        Option.isSome_none, Bool.false_eq_true, false_or]
      constructor
      · intro hstill
        by_contra hassigned
        obtain ⟨p, -, hp⟩ := List.mem_filterMap.mp (List.getLast_mem hassigned)
        rw [List.getLast?_eq_some_getLast hassigned, Option.getD_some] at hstill
        exact hne p (hp.trans (congrArg some hstill))
      · intro hnone
        rw [hnone]
        rfl

end Runs

end EdgeMind.Framework
