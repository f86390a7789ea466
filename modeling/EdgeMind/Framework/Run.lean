import Mathlib.Data.List.Basic
import Mathlib.Data.List.Induction

/-!
# Runs of a step function

A run applies a step function to a list of inputs. Its trace records every step with the state
before it and the output of the step. Facts about all steps come from an invariant, and facts about
what has been output so far come from one that also speaks of the history.
-/

namespace EdgeMind.Framework

variable {State Input Output : Type*}

structure Entry (State Input Output : Type*) where
  before : State
  input : Input
  output : Output

def final (step : State → Input → State × Output) (s : State) : List Input → State
  | [] => s
  | i :: is => final step (step s i).1 is

def trace (step : State → Input → State × Output) (s : State) :
    List Input → List (Entry State Input Output)
  | [] => []
  | i :: is => ⟨s, i, (step s i).2⟩ :: trace step (step s i).1 is

theorem final_append (step : State → Input → State × Output) (s : State) (is js : List Input) :
    final step s (is ++ js) = final step (final step s is) js := by
  induction is generalizing s with
  | nil => rfl
  | cons i is ih => exact ih (step s i).1

theorem trace_append (step : State → Input → State × Output) (s : State) (is js : List Input) :
    trace step s (is ++ js) = trace step s is ++ trace step (final step s is) js := by
  induction is generalizing s with
  | nil => rfl
  | cons i is ih => exact congrArg (_ :: ·) (ih (step s i).1)

/-- Inputs that leave the state as it is can be left out. -/
theorem final_filter {step : State → Input → State × Output} (p : Input → Bool)
    (hstep : ∀ s i, p i = false → (step s i).1 = s) (s : State) (is : List Input) :
    final step s (is.filter p) = final step s is := by
  induction is generalizing s with
  | nil => rfl
  | cons i is ih =>
      cases hp : p i with
      | true => simp [hp, final, ih]
      | false => simp [hp, final, ih, hstep s i hp]

/-- What the other inputs do and output is the same without them. -/
theorem trace_filter {step : State → Input → State × Output} (p : Input → Bool)
    (hstep : ∀ s i, p i = false → (step s i).1 = s) (s : State) (is : List Input) :
    trace step s (is.filter p) = (trace step s is).filter fun e => p e.input := by
  induction is generalizing s with
  | nil => rfl
  | cons i is ih =>
      cases hp : p i with
      | true => simp [hp, trace, ih]
      | false => simp [hp, trace, ih, hstep s i hp]

/-- An invariant that every step on an allowed input keeps holds at the end of every run. -/
theorem final_invariant {step : State → Input → State × Output} (Inv : State → Prop)
    (Allowed : Input → Prop) (hstep : ∀ s i, Allowed i → Inv s → Inv (step s i).1) {s : State}
    (h : Inv s) {is : List Input} (his : ∀ i ∈ is, Allowed i) : Inv (final step s is) := by
  induction is generalizing s with
  | nil => exact h
  | cons i is ih =>
      rw [List.forall_mem_cons] at his
      exact ih (hstep s i his.1 h) his.2

theorem input_mem_of_mem_trace {step : State → Input → State × Output} {s : State}
    {is : List Input} : ∀ e ∈ trace step s is, e.input ∈ is := by
  induction is generalizing s with
  | nil =>
      intro e he
      cases he
  | cons i is ih =>
      intro e he
      rcases List.mem_cons.mp he with rfl | he
      · exact List.mem_cons_self
      · exact List.mem_cons_of_mem i (ih e he)

/-- If every step of a run meets a condition under which the invariant is kept, then every step is
one of the function from a state that satisfies the invariant. -/
theorem trace_invariant {step : State → Input → State × Output} (Inv : State → Prop)
    (Meets : State → Input → Prop) (hstep : ∀ s i, Meets s i → Inv s → Inv (step s i).1)
    {s : State} (h : Inv s) {is : List Input}
    (his : ∀ e ∈ trace step s is, Meets e.before e.input) :
    ∀ e ∈ trace step s is, Inv e.before ∧ e.output = (step e.before e.input).2 := by
  induction is generalizing s with
  | nil =>
      intro e he
      cases he
  | cons i is ih =>
      rw [trace, List.forall_mem_cons] at his
      intro e he
      rcases List.mem_cons.mp he with rfl | he
      · exact ⟨h, rfl⟩
      · exact ih (hstep s i his.1 h) his.2 e he

theorem output_of_mem_trace {step : State → Input → State × Output} {s : State} {is : List Input} :
    ∀ e ∈ trace step s is, e.output = (step e.before e.input).2 := by
  intro e he
  exact (trace_invariant (fun _ => True) (fun _ _ => True) (fun _ _ _ _ => trivial) trivial
    (fun _ _ => trivial) e he).2

/-- The state at the end of such a run satisfies the invariant too. -/
theorem final_of_trace {step : State → Input → State × Output} (Inv : State → Prop)
    (Meets : State → Input → Prop) (hstep : ∀ s i, Meets s i → Inv s → Inv (step s i).1)
    {s : State} (h : Inv s) {is : List Input}
    (his : ∀ e ∈ trace step s is, Meets e.before e.input) : Inv (final step s is) := by
  induction is generalizing s with
  | nil => exact h
  | cons i is ih =>
      rw [trace, List.forall_mem_cons] at his
      exact ih (hstep s i his.1 h) his.2

/-- Every step of a run is a step of the function, from a state that satisfies the invariant. -/
theorem trace_forall {step : State → Input → State × Output} (Inv : State → Prop)
    (Allowed : Input → Prop) (hstep : ∀ s i, Allowed i → Inv s → Inv (step s i).1) {s : State}
    (h : Inv s) {is : List Input} (his : ∀ i ∈ is, Allowed i) :
    ∀ e ∈ trace step s is,
      Inv e.before ∧ Allowed e.input ∧ e.output = (step e.before e.input).2 := by
  intro e he
  have hallowed := his e.input (input_mem_of_mem_trace e he)
  obtain ⟨hinv, houtput⟩ := trace_invariant Inv (fun _ i => Allowed i) hstep h
    (fun e he => his e.input (input_mem_of_mem_trace e he)) e he
  exact ⟨hinv, hallowed, houtput⟩

/-- Two systems whose states stay related run alike, as long as every step of the first meets a
condition. -/
theorem trace_simulates {State' Output' : Type*} {step : State → Input → State × Output}
    {step' : State' → Input → State' × Output'} (R : State → State' → Prop)
    (Same : Output → Output' → Prop) (Meets : State → Input → Prop)
    (hstep : ∀ s s' i, R s s' → Meets s i →
      R (step s i).1 (step' s' i).1 ∧ Same (step s i).2 (step' s' i).2)
    {s : State} {s' : State'} (h : R s s') {is : List Input}
    (his : ∀ e ∈ trace step s is, Meets e.before e.input) :
    List.Forall₂ (fun e e' => e.input = e'.input ∧ R e.before e'.before ∧ Same e.output e'.output)
      (trace step s is) (trace step' s' is) := by
  induction is generalizing s s' with
  | nil => exact .nil
  | cons i is ih =>
      rw [trace, List.forall_mem_cons] at his
      obtain ⟨hnext, hsame⟩ := hstep s s' i h his.1
      exact .cons ⟨rfl, h, hsame⟩ (ih hnext his.2)

/-- `P` holds of every element of a history and what came before it. -/
def AtEvery {α : Type*} (P : List α → α → Prop) (history : List α) : Prop :=
  ∀ past x future, history = past ++ x :: future → P past x

theorem atEvery_nil {α : Type*} (P : List α → α → Prop) : AtEvery P [] := by
  intro past x future h
  exact absurd h.symm (List.append_ne_nil_of_right_ne_nil past (List.cons_ne_nil x future))

theorem atEvery_concat {α : Type*} {P : List α → α → Prop} {history : List α} {x : α}
    (h : AtEvery P history) (hx : P history x) : AtEvery P (history ++ [x]) := by
  intro past y future heq
  rcases List.eq_nil_or_concat' future with rfl | ⟨future, z, rfl⟩
  · obtain ⟨rfl, hxy⟩ := List.append_inj' heq rfl
    rw [← (List.cons.inj hxy).1]
    exact hx
  · rw [← List.cons_append, ← List.append_assoc] at heq
    exact h past y future (List.append_inj' heq rfl).1

theorem AtEvery.left {α : Type*} {P : List α → α → Prop} {history more : List α}
    (h : AtEvery P (history ++ more)) : AtEvery P history := by
  intro past x future heq
  exact h past x (future ++ more) (by rw [heq, List.append_assoc, List.cons_append])

theorem AtEvery.append {α : Type*} {P : List α → α → Prop} {history more : List α}
    (h : AtEvery P history) (hmore : AtEvery (fun past x => P (history ++ past) x) more) :
    AtEvery P (history ++ more) := by
  induction more using List.reverseRecOn with
  | nil =>
      rw [List.append_nil]
      exact h
  | append_singleton more x ih =>
      rw [← List.append_assoc]
      exact atEvery_concat (ih hmore.left) (hmore more x [] rfl)

theorem AtEvery.imp {α : Type*} {P Q : List α → α → Prop} {history : List α}
    (h : AtEvery P history) (hPQ : ∀ past x, P past x → Q past x) : AtEvery Q history :=
  fun past x future heq => hPQ past x (h past x future heq)

end EdgeMind.Framework
