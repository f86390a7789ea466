import EdgeMind.Inference.Memory

/-!
# The budget policy over all 64-bit inputs

The total of an estimate saturates at the largest number, which is also the largest ceiling: there,
and only there, the saturated total is taken for one that fits.
-/

namespace EdgeMind

namespace MemoryEstimate

/-- The parts of an estimate, over the naturals. -/
def exactTotal (e : MemoryEstimate) : Nat :=
  e.weightsBytes.toNat + e.kvCacheBytes.toNat + e.computeBufferBytes.toNat +
    e.runtimeOverheadBytes.toNat

theorem totalBytes_add_toNat (sum : UInt64) (ps : List UInt64) :
    (totalBytes.add sum ps).toNat = min (sum.toNat + (ps.map UInt64.toNat).sum) (2 ^ 64 - 1) := by
  induction ps generalizing sum with
  | nil =>
      have hsum := sum.toNat_lt
      rw [totalBytes.add, List.map_nil, List.sum_nil]
      omega
  | cons p ps ih =>
      have hsum := sum.toNat_lt
      have hp := p.toNat_lt
      have hnext : (sum + p).toNat = (sum.toNat + p.toNat) % 2 ^ 64 := UInt64.toNat_add sum p
      rw [totalBytes.add, List.map_cons, List.sum_cons]
      split
      · next hwrap =>
          have hmax : (UInt64.ofNat (2 ^ 64 - 1)).toNat = 2 ^ 64 - 1 := by decide
          rw [UInt64.lt_iff_toNat_lt] at hwrap
          rw [hmax]
          omega
      · next hfits =>
          rw [UInt64.lt_iff_toNat_lt] at hfits
          rw [ih]
          omega

theorem totalBytes_toNat (e : MemoryEstimate) :
    e.totalBytes.toNat = min e.exactTotal (2 ^ 64 - 1) := by
  have htotal := totalBytes_add_toNat 0
    [e.weightsBytes, e.kvCacheBytes, e.computeBufferBytes, e.runtimeOverheadBytes]
  simpa [totalBytes, exactTotal, Nat.add_assoc] using htotal

/-- The saturating sum is below a ceiling exactly if the sum is, for every ceiling that is not the
largest number. -/
theorem totalBytes_le_iff (e : MemoryEstimate) {ceiling : UInt64}
    (h : ceiling.toNat < 2 ^ 64 - 1) :
    e.totalBytes ≤ ceiling ↔ e.weightsBytes.toNat + e.kvCacheBytes.toNat +
      e.computeBufferBytes.toNat + e.runtimeOverheadBytes.toNat ≤ ceiling.toNat := by
  rw [UInt64.le_iff_toNat_le, totalBytes_toNat, exactTotal]
  omega

end MemoryEstimate

namespace MemoryBudgetPolicy

theorem evaluate_safe_iff (e : MemoryEstimate) (budgetBytes safetyReserveBytes : UInt64) :
    (evaluate e budgetBytes safetyReserveBytes).safe = true ↔
      e.valid = true ∧ safetyReserveBytes < budgetBytes ∧
        min e.exactTotal (2 ^ 64 - 1) ≤ budgetBytes.toNat - safetyReserveBytes.toNat := by
  unfold evaluate
  dsimp only
  cases hvalid : e.valid with
  | false => simp
  | true =>
      by_cases hfits : safetyReserveBytes < budgetBytes
      · have hceiling : (budgetBytes - safetyReserveBytes).toNat =
            budgetBytes.toNat - safetyReserveBytes.toNat :=
          UInt64.toNat_sub_of_le _ _ (UInt64.le_of_lt hfits)
        have hpos : budgetBytes - safetyReserveBytes > 0 := by
          rw [UInt64.lt_iff_toNat_lt] at hfits
          rw [gt_iff_lt, UInt64.lt_iff_toNat_lt, hceiling, UInt64.toNat_zero]
          omega
        simp only [hfits, if_true, hpos, decide_true, Bool.true_and, not_true_eq_false, if_false,
          decide_eq_true_eq, true_and]
        rw [UInt64.le_iff_toNat_le, e.totalBytes_toNat, hceiling]
      · simp [hfits]

/-- The policy compares the sum of the parts with what the budget leaves, except where the ceiling is
the largest number and the sum is beyond it. -/
theorem evaluate_exact_iff (e : MemoryEstimate) (budgetBytes safetyReserveBytes : UInt64) :
    ((evaluate e budgetBytes safetyReserveBytes).safe = true ↔
      e.valid = true ∧ safetyReserveBytes < budgetBytes ∧
        e.weightsBytes.toNat + e.kvCacheBytes.toNat + e.computeBufferBytes.toNat +
          e.runtimeOverheadBytes.toNat ≤ budgetBytes.toNat - safetyReserveBytes.toNat) ↔
      ¬(e.valid = true ∧ safetyReserveBytes = 0 ∧ budgetBytes.toNat = 2 ^ 64 - 1 ∧
        2 ^ 64 ≤ e.weightsBytes.toNat + e.kvCacheBytes.toNat + e.computeBufferBytes.toNat +
          e.runtimeOverheadBytes.toNat) := by
  have hbudget := budgetBytes.toNat_lt
  have htotal : e.exactTotal = e.weightsBytes.toNat + e.kvCacheBytes.toNat +
    e.computeBufferBytes.toNat + e.runtimeOverheadBytes.toNat := rfl
  rw [evaluate_safe_iff, ← htotal, UInt64.lt_iff_toNat_lt, ← UInt64.toNat_inj, UInt64.toNat_zero]
  constructor
  · rintro hexact ⟨hvalid, hreserve, hmax, hover⟩
    have hsafe := hexact.mp ⟨hvalid, by omega, by omega⟩
    omega
  · intro hnot
    refine and_congr_right fun hvalid => and_congr_right fun hlt => ?_
    have hcases : ¬(safetyReserveBytes.toNat = 0 ∧ budgetBytes.toNat = 2 ^ 64 - 1 ∧
        2 ^ 64 ≤ e.exactTotal) := fun h => hnot ⟨hvalid, h⟩
    omega

/-- Parts that are together one byte too many for 64 bits are admitted under the largest budget. -/
theorem evaluate_saturated :
    ¬∀ (e : MemoryEstimate) (budgetBytes safetyReserveBytes : UInt64),
      (evaluate e budgetBytes safetyReserveBytes).safe = true →
        e.weightsBytes.toNat + e.kvCacheBytes.toNat + e.computeBufferBytes.toNat +
          e.runtimeOverheadBytes.toNat ≤ budgetBytes.toNat - safetyReserveBytes.toNat := by
  intro h
  have hsafe : (evaluate { weightsBytes := UInt64.ofNat (2 ^ 64 - 1), kvCacheBytes := 1 }
      (UInt64.ofNat (2 ^ 64 - 1)) 0).safe = true := by decide +kernel
  exact absurd (h _ _ _ hsafe) (by decide)

end MemoryBudgetPolicy

end EdgeMind
