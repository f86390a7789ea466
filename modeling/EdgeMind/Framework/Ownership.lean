import EdgeMind.Framework.Run
import Mathlib.Data.List.Induction
import Mathlib.Data.List.Nodup

/-!
# Acquired and released objects

A history of acquisitions and releases is proper if nothing is acquired twice and only what is live
is released. Then the live objects account for what has been acquired and not yet released, and
once nothing is live, every object has been released exactly once.
-/

namespace EdgeMind.Framework

inductive Use (α : Type*)
  | acquire (x : α)
  | release (x : α)
deriving DecidableEq

variable {α : Type*}

def Use.acquired? : Use α → Option α
  | .acquire x => some x
  | .release _ => none

def Use.released? : Use α → Option α
  | .acquire _ => none
  | .release x => some x

theorem mem_acquired_iff (history : List (Use α)) (x : α) :
    x ∈ history.filterMap Use.acquired? ↔ .acquire x ∈ history := by
  rw [List.mem_filterMap]
  constructor
  · intro h
    obtain ⟨use, hmem, huse⟩ := h
    cases use with
    | acquire y =>
        cases huse
        exact hmem
    | release y => cases huse
  · intro h
    exact ⟨_, h, rfl⟩

variable [DecidableEq α]

def Use.apply (live : List α) : Use α → List α
  | .acquire x => x :: live
  | .release x => live.erase x

/-- The objects that have been acquired and not released. -/
def live (history : List (Use α)) : List α := history.foldl Use.apply []

@[simp]
theorem live_concat (history : List (Use α)) (use : Use α) :
    live (history ++ [use]) = use.apply (live history) := by
  rw [live, List.foldl_append]
  rfl

/-- An object is acquired once, and released while it is live. -/
def Proper (past : List (Use α)) : Use α → Prop
  | .acquire x => .acquire x ∉ past
  | .release x => x ∈ live past

theorem acquired_perm {history : List (Use α)} (h : AtEvery Proper history) :
    (history.filterMap Use.acquired?).Perm (history.filterMap Use.released? ++ live history) ∧
      (history.filterMap Use.acquired?).Nodup := by
  induction history using List.reverseRecOn with
  | nil => exact ⟨.refl _, List.nodup_nil⟩
  | append_singleton past use ih =>
      obtain ⟨hperm, hnodup⟩ := ih (fun p x future heq => h p x (future ++ [use]) (by simp [heq]))
      have huse : Proper past use := h past use [] rfl
      rw [List.filterMap_append, List.filterMap_append, live_concat]
      cases use with
      | acquire x =>
          refine ⟨?_, ?_⟩
          · rw [show List.filterMap Use.released? [Use.acquire x] = [] from rfl, List.append_nil]
            exact (List.perm_append_singleton x _).trans
              ((hperm.cons x).trans List.perm_middle.symm)
          · refine List.nodup_append.mpr ⟨hnodup, List.nodup_singleton x, ?_⟩
            intro y hy z hz hyz
            rw [hyz, List.mem_singleton.mp hz, mem_acquired_iff] at hy
            exact huse hy
      | release x =>
          have hsplit := (List.perm_cons_erase (show x ∈ live past from huse)).append_left
            (past.filterMap Use.released?)
          refine ⟨?_, ?_⟩
          · rw [show List.filterMap Use.acquired? [Use.release x] = [] from rfl, List.append_nil,
              List.append_assoc]
            exact hperm.trans hsplit
          · rw [show List.filterMap Use.acquired? [Use.release x] = [] from rfl, List.append_nil]
            exact hnodup

theorem released_once {history : List (Use α)} (h : AtEvery Proper history)
    (hlive : live history = []) (x : α) :
    (.acquire x ∈ history → (history.filterMap Use.released?).count x = 1) ∧
      (.release x ∈ history → .acquire x ∈ history) := by
  obtain ⟨hperm, hnodup⟩ := acquired_perm h
  rw [hlive, List.append_nil] at hperm
  have hacquired := mem_acquired_iff history x
  refine ⟨fun hx => ?_, fun hx => ?_⟩
  · rw [← hperm.count_eq]
    exact List.count_eq_one_of_mem hnodup (hacquired.mpr hx)
  · exact hacquired.mp (hperm.mem_iff.mpr (List.mem_filterMap.mpr ⟨_, hx, rfl⟩))

end EdgeMind.Framework
