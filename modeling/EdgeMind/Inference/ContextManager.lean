import EdgeMind.Framework.CheckedInt
import EdgeMind.Framework.Run
import EdgeMind.Inference.Engine

/-!
# The context manager over runs

The check adds before it compares, so that a request is judged as it should be exactly as long as the
sum stays below `2^31`. A run in which every request does keeps what is in use within the context,
and the first request that does not is let through.
-/

namespace EdgeMind

open Framework

namespace ContextManager

def Within (m : ContextManager) : Prop := 0 ≤ m.nUsed.toInt ∧ m.nUsed.toInt ≤ m.nCtx.toInt

/-- The sum that is compared with the context size leaves 32 bits. -/
def Wraps (m : ContextManager) (k : Int32) : Prop := 0 < k.toInt ∧ 2 ^ 31 ≤ m.nUsed.toInt + k.toInt

theorem canAccept_iff {m : ContextManager} (h : m.Within) (k : Int32) :
    m.canAccept k = true ↔
      0 ≤ k.toInt ∧ (k.toInt ≤ m.nCtx.toInt - m.nUsed.toInt ∨ m.Wraps k) := by
  obtain ⟨hpos, hmax⟩ := h
  have hctx := m.nCtx.toInt_lt
  have hk := k.toInt_lt
  have hneg : k < 0 ↔ k.toInt < 0 := Int32.lt_iff_toInt_lt
  unfold canAccept Wraps
  by_cases hk0 : k.toInt < 0
  · rw [if_pos (hneg.mpr hk0)]
    exact iff_of_false nofun (by omega)
  · rw [if_neg fun h => hk0 (hneg.mp h), decide_eq_true_iff, Int32.le_iff_toInt_le,
      int32_add_toInt hpos (not_lt.mp hk0)]
    split <;> omega

theorem consume_nUsed {m : ContextManager} (h : m.Within) (k : Int32) :
    (m.consume k).nUsed.toInt =
      if 0 < k.toInt ∧ k.toInt ≤ m.nCtx.toInt - m.nUsed.toInt then m.nUsed.toInt + k.toInt
      else if 0 < k.toInt ∧ 2 ^ 31 ≤ m.nUsed.toInt + k.toInt then
        m.nUsed.toInt + k.toInt - 2 ^ 32
      else m.nUsed.toInt := by
  have haccept := canAccept_iff h k
  obtain ⟨hpos, hmax⟩ := h
  have hctx := m.nCtx.toInt_lt
  have hnonpos : k ≤ 0 ↔ k.toInt ≤ 0 := Int32.le_iff_toInt_le
  unfold consume
  unfold Wraps at haccept
  by_cases hk : k.toInt ≤ 0
  · rw [if_pos (hnonpos.mpr hk), if_neg (by omega), if_neg (by omega)]
  · have hsum := int32_add_toInt hpos (show 0 ≤ k.toInt by omega)
    rw [if_neg fun h => hk (hnonpos.mp h)]
    by_cases hok : m.canAccept k = true
    · rw [if_neg (not_not_intro hok)]
      change (m.nUsed + k).toInt = _
      have hcase := haccept.mp hok
      rw [hsum]
      split_ifs <;> omega
    · rw [if_pos hok]
      rw [haccept] at hok
      rw [if_neg (by omega), if_neg (by omega)]

@[simp]
theorem consume_nCtx (m : ContextManager) (k : Int32) : (m.consume k).nCtx = m.nCtx := by
  unfold consume
  split_ifs <;> rfl

theorem reset_within {m : ContextManager} (h : m.Within) : m.reset.Within := by
  exact ⟨Int32.toInt_zero.ge, Int32.toInt_zero.trans_le (h.1.trans h.2)⟩

theorem consume_within_iff {m : ContextManager} (h : m.Within) (k : Int32) :
    (m.consume k).Within ↔ ¬m.Wraps k := by
  have hused := consume_nUsed h k
  have hk := k.toInt_lt
  have hctx := m.nCtx.toInt_lt
  obtain ⟨hpos, hmax⟩ := h
  unfold Within
  rw [hused, consume_nCtx]
  unfold Wraps
  split_ifs <;> omega

inductive Operation
  | canAccept (k : Int32)
  | consume (k : Int32)
  | reset

/-- One operation; the answer is that of the check. -/
def perform (m : ContextManager) : Operation → ContextManager × Bool
  | .canAccept k => (m, m.canAccept k)
  | .consume k => (m.consume k, true)
  | .reset => (m.reset, true)

/-- What an operation should do: keep within the context, answer as the integers do, and leave alone
what does not fit. -/
def Exact (m : ContextManager) (operation : Operation) : Prop :=
  m.Within ∧ (perform m operation).1.Within ∧
    match operation with
    | .canAccept k => (perform m (.canAccept k)).2 = true ↔
        0 ≤ k.toInt ∧ k.toInt ≤ m.nCtx.toInt - m.nUsed.toInt
    | .consume k => m.nCtx.toInt - m.nUsed.toInt < k.toInt →
        (perform m (.consume k)).1.nUsed = m.nUsed
    | .reset => True

/-- The operation is a request whose sum wraps. -/
def Overflows (m : ContextManager) : Operation → Prop
  | .canAccept k => m.Wraps k
  | .consume k => m.Wraps k
  | .reset => False

theorem exact_iff {m : ContextManager} (h : m.Within) (operation : Operation) :
    Exact m operation ↔ ¬Overflows m operation := by
  have hctx := m.nCtx.toInt_lt
  cases operation with
  | canAccept k =>
      have haccept := canAccept_iff h k
      refine Iff.trans (and_iff_right h) (Iff.trans (and_iff_right h) ?_)
      change (m.canAccept k = true ↔ _) ↔ ¬m.Wraps k
      rw [haccept]
      unfold Wraps
      omega
  | consume k =>
      refine Iff.trans (and_iff_right h) ?_
      change (m.consume k).Within ∧ (_ → (m.consume k).nUsed = m.nUsed) ↔ ¬m.Wraps k
      rw [consume_within_iff h, ← Int32.toInt_inj, consume_nUsed h]
      refine and_iff_left_of_imp fun hfits hover => ?_
      rw [if_neg (by omega)]
      exact if_neg hfits
  | reset => exact iff_of_true ⟨h, reset_within h, trivial⟩ not_false

theorem perform_within {m : ContextManager} {operation : Operation}
    (hfits : ¬Overflows m operation) (h : m.Within) : (perform m operation).1.Within :=
  ((exact_iff h operation).mpr hfits).2.1

/-- A manager of any context size does what it should in every step of a run exactly if no request of
the run wraps. -/
theorem exact_run_iff {nCtx : Int32} (h : 0 ≤ nCtx.toInt) (operations : List Operation) :
    (∀ e ∈ trace perform { nCtx } operations, Exact e.before e.input) ↔
      ∀ e ∈ trace perform { nCtx } operations, ¬Overflows e.before e.input := by
  have hstart : ({ nCtx } : ContextManager).Within :=
    ⟨Int32.toInt_zero.ge, Int32.toInt_zero.trans_le h⟩
  constructor
  · intro hexact e he
    exact (exact_iff (hexact e he).1 e.input).mp (hexact e he)
  · intro hfits e he
    have hwithin := trace_invariant Within (fun m operation => ¬Overflows m operation)
      (fun m operation => perform_within) hstart hfits e he
    exact (exact_iff hwithin.1 e.input).mpr (hfits e he)

/-- A request for more than is left changes nothing. -/
theorem exact_run_small : Exact { nCtx := 10, nUsed := 7 } (.consume 4) := by
  have hrun := (@exact_run_iff 10 (by decide) [.consume 7, .consume 4]).mpr
  refine hrun ?_ ⟨{ nCtx := 10, nUsed := 7 }, .consume 4, true⟩
    (List.mem_cons_of_mem _ List.mem_cons_self)
  intro e he
  simp only [trace, List.mem_cons, List.not_mem_nil, or_false] at he
  rcases he with rfl | rfl
  · exact fun h => absurd h.2 (by decide)
  · exact fun h => absurd h.2 (by decide)

/-- After one token, a request for as many as 32 bits can say is let through. -/
theorem exact_run_wraps :
    ¬∀ (nCtx : Int32) (operations : List Operation), 0 ≤ nCtx.toInt →
      ∀ e ∈ trace perform { nCtx } operations, Exact e.before e.input := by
  intro h
  have hstep := h 16 [.consume 1, .consume 2147483647] (by decide)
    ⟨{ nCtx := 16, nUsed := 1 }, .consume 2147483647, true⟩
    (List.mem_cons_of_mem _ List.mem_cons_self)
  exact absurd hstep.2.1.1 (by decide)

end ContextManager

end EdgeMind
