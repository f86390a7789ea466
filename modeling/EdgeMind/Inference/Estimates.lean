import EdgeMind.Inference.Memory
import Mathlib.Algebra.Order.Field.Basic
import Mathlib.Algebra.Order.Ring.Nat
import Mathlib.Algebra.Order.Ring.Rat
import Mathlib.Data.Nat.Cast.Order.Field
import Mathlib.Tactic.GCongr
import Mathlib.Tactic.Ring

/-!
# Estimates are exact on the sane range

Wherever the hyperparameters and the sizes are in range, every product of an estimate fits 64 bits, so
that what is computed is the formula over the naturals and no overflow is ever met. The formula
itself rounds down before it multiplies.
-/

namespace EdgeMind

open Framework

namespace MemoryEstimator

theorem toU64_toNat {x : Int32} (h : 0 ≤ x.toInt) : (toU64 x).toNat = x.toInt.toNat := by
  have hle : 0 ≤ x.toInt64 := by
    rw [Int64.le_iff_toInt_le, Int32.toInt_toInt64]
    exact h
  rw [toU64, Int64.toNat_toUInt64_of_le hle, Int64.toNatClampNeg, Int32.toInt_toInt64]

theorem checkedMul_eq (a b : UInt64) :
    checkedMul a b = if a.toNat * b.toNat < 2 ^ 64 then some (a * b) else none := by
  unfold checkedMul
  split
  · next hzero => rcases hzero with rfl | rfl <;> simp
  · next hzero =>
      rw [not_or, ← UInt64.toNat_inj, ← UInt64.toNat_inj] at hzero
      have hb : 0 < b.toNat := Nat.pos_of_ne_zero hzero.2
      have htest : a > UInt64.ofNat (2 ^ 64 - 1) / b ↔ ¬a.toNat * b.toNat < 2 ^ 64 := by
        have hmax : (UInt64.ofNat (2 ^ 64 - 1)).toNat = 2 ^ 64 - 1 := by decide
        rw [gt_iff_lt, UInt64.lt_iff_toNat_lt, UInt64.toNat_div, hmax, Nat.div_lt_iff_lt_mul hb]
        omega
      by_cases hfits : a.toNat * b.toNat < 2 ^ 64
      · rw [if_neg fun h => htest.mp h hfits, if_pos hfits]
      · rw [if_pos (htest.mpr hfits), if_neg hfits]

/-- Multiplication with something else done where the product overflows. -/
def checkedMulOr (overflow : UInt64 → UInt64 → Option UInt64) (a b : UInt64) : Option UInt64 :=
  if a = 0 ∨ b = 0 then some 0
  else if a > UInt64.ofNat (2 ^ 64 - 1) / b then overflow a b
  else some (a * b)

/-- A multiplication that is right as long as the product fits. -/
def MultipliesFitting (mul : UInt64 → UInt64 → Option UInt64) : Prop :=
  ∀ a b, a.toNat * b.toNat < 2 ^ 64 → mul a b = some (a * b)

theorem multipliesFitting_checkedMul : MultipliesFitting checkedMul := by
  intro a b hfits
  rw [checkedMul_eq, if_pos hfits]

theorem multipliesFitting_checkedMulOr (overflow : UInt64 → UInt64 → Option UInt64) :
    MultipliesFitting (checkedMulOr overflow) := by
  intro a b hfits
  have hsome := multipliesFitting_checkedMul a b hfits
  unfold checkedMul at hsome
  unfold checkedMulOr
  split
  · next hzero => rwa [if_pos hzero] at hsome
  · next hzero =>
      rw [if_neg hzero] at hsome
      split
      · next hover =>
          rw [if_pos hover] at hsome
          cases hsome
      · rfl

theorem foldlM_mul {mul : UInt64 → UInt64 → Option UInt64} (hmul : MultipliesFitting mul)
    (xs : List UInt64) {a : UInt64}
    (h : a.toNat * (xs.map fun x => max 1 x.toNat).prod < 2 ^ 64) :
    xs.foldlM mul a = some (UInt64.ofNat (a.toNat * (xs.map UInt64.toNat).prod)) ∧
      a.toNat * (xs.map UInt64.toNat).prod < 2 ^ 64 := by
  induction xs generalizing a with
  | nil =>
      have ha := a.toNat_lt
      exact ⟨by simp, by simpa using ha⟩
  | cons x xs ih =>
      rw [List.map_cons, List.prod_cons, ← Nat.mul_assoc] at h
      have hone : 0 < (xs.map fun x => max 1 x.toNat).prod := by
        rw [List.prod_pos_iff_forall_pos_nat, List.forall_mem_map]
        omega
      have hx : a.toNat * x.toNat ≤ a.toNat * max 1 x.toNat :=
        Nat.mul_le_mul_left _ (Nat.le_max_right _ _)
      have hfits : a.toNat * x.toNat < 2 ^ 64 := by
        have := Nat.le_mul_of_pos_right (a.toNat * max 1 x.toNat) hone
        omega
      have hnat : (a * x).toNat = a.toNat * x.toNat := by
        rw [UInt64.toNat_mul, Nat.mod_eq_of_lt hfits]
      obtain ⟨hrest, hlt⟩ := @ih (a * x) (by
        rw [hnat]
        exact (Nat.mul_le_mul_right _ hx).trans_lt h)
      rw [hnat, Nat.mul_assoc] at hrest hlt
      refine ⟨?_, hlt⟩
      rw [List.foldlM_cons, hmul a x hfits]
      exact hrest

/-- The hyperparameters that an estimate is made for. -/
structure SaneRange (hp : ModelHyperparams) : Prop where
  layers : 1 ≤ hp.nLayer.toInt ∧ hp.nLayer.toInt ≤ 2048
  embd : 1 ≤ hp.nEmbd.toInt ∧ hp.nEmbd.toInt ≤ 2 ^ 20
  heads : 1 ≤ hp.nHead.toInt ∧ hp.nHead.toInt ≤ 4096
  headsKv : 1 ≤ hp.nHeadKv.toInt ∧ hp.nHeadKv.toInt ≤ hp.nHead.toInt

theorem hyperparamsInSaneRange_iff (hp : ModelHyperparams) :
    hyperparamsInSaneRange hp = true ↔ SaneRange hp := by
  have hlayers : maxSaneLayers.toInt = 2048 := by decide
  have hembd : maxSaneEmbd.toInt = 2 ^ 20 := by decide
  have hheads : maxSaneHeads.toInt = 4096 := by decide
  unfold hyperparamsInSaneRange
  simp only [gt_iff_lt, Int32.le_iff_toInt_le, Int32.lt_iff_toInt_lt, hlayers, hembd, hheads,
    Int32.toInt_zero]
  constructor
  · intro h
    split_ifs at h
    exact ⟨by omega, by omega, by omega, by omega⟩
  · intro h
    have := h.layers
    have := h.embd
    have := h.heads
    have := h.headsKv
    rw [if_neg (by omega), if_neg (by omega), if_neg (by omega), if_neg (by omega),
      if_neg (by omega)]

/-- The inputs that the estimate of the key and value cache is made for. -/
structure KvRange (hp : ModelHyperparams) (nCtx bytesPerElement : Int32) : Prop where
  hyperparams : SaneRange hp
  ctx : 1 ≤ nCtx.toInt ∧ nCtx.toInt ≤ 2 ^ 24
  element : 1 ≤ bytesPerElement.toInt ∧ bytesPerElement.toInt ≤ 8

/-- Those that the estimate of the compute buffer is made for. -/
structure BatchRange (hp : ModelHyperparams) (nBatch : Int32) : Prop where
  hyperparams : SaneRange hp
  batch : 1 ≤ nBatch.toInt ∧ nBatch.toInt ≤ 2 ^ 24

theorem guard_iff (n limit : Int32) :
    ¬(n ≤ 0 ∨ n > limit) ↔ 1 ≤ n.toInt ∧ n.toInt ≤ limit.toInt := by
  rw [gt_iff_lt, Int32.le_iff_toInt_le, Int32.lt_iff_toInt_lt, Int32.toInt_zero]
  omega

theorem ctx_guard_iff (n : Int32) :
    ¬(n ≤ 0 ∨ n > maxSaneCtx) ↔ 1 ≤ n.toInt ∧ n.toInt ≤ 2 ^ 24 := by
  have hsane : maxSaneCtx.toInt = 2 ^ 24 := by decide
  rw [guard_iff, hsane]

theorem element_guard_iff (n : Int32) :
    ¬(n ≤ 0 ∨ n > maxSaneBytesPerElement) ↔ 1 ≤ n.toInt ∧ n.toInt ≤ 8 := by
  have hsane : maxSaneBytesPerElement.toInt = 8 := by decide
  rw [guard_iff, hsane]

/-- `estimate_kv_cache_bytes` over a given multiplication. -/
def estimateKvCacheBytesBy (mul : UInt64 → UInt64 → Option UInt64) (hp : ModelHyperparams)
    (nCtx : Int32) (bytesPerElement : Int32) : Option UInt64 := do
  guard (hyperparamsInSaneRange hp)
  guard (¬(nCtx ≤ 0 ∨ nCtx > maxSaneCtx))
  guard (¬(bytesPerElement ≤ 0 ∨ bytesPerElement > maxSaneBytesPerElement))
  let embdXHeadkv ← mul (toU64 hp.nEmbd) (toU64 hp.nHeadKv)
  let nEmbdGqa := embdXHeadkv / toU64 hp.nHead
  [toU64 hp.nLayer, toU64 nCtx, nEmbdGqa, toU64 bytesPerElement].foldlM mul 2

/-- `estimate_compute_buffer_bytes` over a given multiplication. -/
def estimateComputeBufferBytesBy (mul : UInt64 → UInt64 → Option UInt64) (hp : ModelHyperparams)
    (nBatch : Int32) : Option UInt64 := do
  guard (hyperparamsInSaneRange hp)
  guard (¬(nBatch ≤ 0 ∨ nBatch > maxSaneCtx))
  [toU64 nBatch, toU64 hp.nEmbd, 4, toU64 computeBufferMultiplier].foldlM mul 1

/-- The formula for the key and value cache, over the naturals. -/
def kvFormula (hp : ModelHyperparams) (nCtx bytesPerElement : Int32) : Nat :=
  2 * hp.nLayer.toInt.toNat * nCtx.toInt.toNat *
    (hp.nEmbd.toInt.toNat * hp.nHeadKv.toInt.toNat / hp.nHead.toInt.toNat) *
    bytesPerElement.toInt.toNat

def computeFormula (hp : ModelHyperparams) (nBatch : Int32) : Nat :=
  16 * nBatch.toInt.toNat * hp.nEmbd.toInt.toNat

private theorem kvFormula_fits {l c g b : Nat} (hl : l ≤ 2048) (hc : c ≤ 2 ^ 24) (hg : g ≤ 2 ^ 20)
    (hb : b ≤ 8) : 2 * (max 1 l * (max 1 c * (max 1 g * (max 1 b * 1)))) < 2 ^ 64 :=
  calc 2 * (max 1 l * (max 1 c * (max 1 g * (max 1 b * 1))))
    _ ≤ 2 * (2048 * (2 ^ 24 * (2 ^ 20 * (8 * 1)))) := by gcongr <;> omega
    _ < 2 ^ 64 := by decide

private theorem computeFormula_fits {c e : Nat} (hc : c ≤ 2 ^ 24) (he : e ≤ 2 ^ 20) :
    1 * (max 1 c * (max 1 e * (max 1 4 * (max 1 4 * 1)))) < 2 ^ 64 :=
  calc 1 * (max 1 c * (max 1 e * (max 1 4 * (max 1 4 * 1))))
    _ ≤ 1 * (2 ^ 24 * (2 ^ 20 * (4 * (4 * 1)))) := by gcongr <;> omega
    _ < 2 ^ 64 := by decide

section Formulas

variable {mul : UInt64 → UInt64 → Option UInt64} {hp : ModelHyperparams}

theorem estimateKvCacheBytesBy_eq (hmul : MultipliesFitting mul) {nCtx bytesPerElement : Int32}
    (h : KvRange hp nCtx bytesPerElement) :
    estimateKvCacheBytesBy mul hp nCtx bytesPerElement =
        some (UInt64.ofNat (kvFormula hp nCtx bytesPerElement)) ∧
      kvFormula hp nCtx bytesPerElement < 2 ^ 64 := by
  have hsane := (hyperparamsInSaneRange_iff hp).mpr h.hyperparams
  have hctx := (ctx_guard_iff nCtx).mpr h.ctx
  have helement := (element_guard_iff bytesPerElement).mpr h.element
  obtain ⟨⟨hlayers, hembd, hheads, hheadsKv⟩, hctxRange, helementRange⟩ := h
  have hL := toU64_toNat (x := hp.nLayer) (by omega)
  have hE := toU64_toNat (x := hp.nEmbd) (by omega)
  have hH := toU64_toNat (x := hp.nHead) (by omega)
  have hK := toU64_toNat (x := hp.nHeadKv) (by omega)
  have hC := toU64_toNat (x := nCtx) (by omega)
  have hB := toU64_toNat (x := bytesPerElement) (by omega)
  have hproduct : hp.nEmbd.toInt.toNat * hp.nHeadKv.toInt.toNat ≤ 2 ^ 20 * 4096 :=
    Nat.mul_le_mul (by omega) (by omega)
  have hfits : (toU64 hp.nEmbd).toNat * (toU64 hp.nHeadKv).toNat < 2 ^ 64 := by
    rw [hE, hK]
    omega
  -- No head is wider than the embedding.
  have hgqa : hp.nEmbd.toInt.toNat * hp.nHeadKv.toInt.toNat / hp.nHead.toInt.toNat ≤ 2 ^ 20 :=
    Nat.div_le_of_le_mul ((Nat.mul_le_mul (by omega) (by omega)).trans_eq (Nat.mul_comm _ _))
  have hG : (toU64 hp.nEmbd * toU64 hp.nHeadKv / toU64 hp.nHead).toNat =
      hp.nEmbd.toInt.toNat * hp.nHeadKv.toInt.toNat / hp.nHead.toInt.toNat := by
    rw [UInt64.toNat_div, UInt64.toNat_mul, Nat.mod_eq_of_lt hfits, hE, hK, hH]
  have htwo : (2 : UInt64).toNat = 2 := by decide
  obtain ⟨hbytes, hlt⟩ := foldlM_mul hmul [toU64 hp.nLayer, toU64 nCtx,
    toU64 hp.nEmbd * toU64 hp.nHeadKv / toU64 hp.nHead, toU64 bytesPerElement] (a := 2) (by
      simp only [List.map_cons, List.map_nil, List.prod_cons, List.prod_nil, hL, hC, hG, hB, htwo]
      exact kvFormula_fits (by omega) (by omega) hgqa (by omega))
  have hformula : (2 : UInt64).toNat * ([toU64 hp.nLayer, toU64 nCtx,
      toU64 hp.nEmbd * toU64 hp.nHeadKv / toU64 hp.nHead, toU64 bytesPerElement].map
        UInt64.toNat).prod = kvFormula hp nCtx bytesPerElement := by
    simp only [List.map_cons, List.map_nil, List.prod_cons, List.prod_nil, hL, hC, hG, hB, htwo,
      kvFormula]
    ring
  rw [hformula] at hbytes hlt
  refine ⟨?_, hlt⟩
  simp only [estimateKvCacheBytesBy, guard, hsane, hctx, helement, if_true, not_false_eq_true,
    Option.bind_eq_bind, Option.pure_def, Option.bind_some, hmul _ _ hfits]
  exact hbytes

theorem estimateComputeBufferBytesBy_eq (hmul : MultipliesFitting mul) {nBatch : Int32}
    (h : BatchRange hp nBatch) :
    estimateComputeBufferBytesBy mul hp nBatch =
        some (UInt64.ofNat (computeFormula hp nBatch)) ∧ computeFormula hp nBatch < 2 ^ 64 := by
  have hsane := (hyperparamsInSaneRange_iff hp).mpr h.hyperparams
  have hctx := (ctx_guard_iff nBatch).mpr h.batch
  obtain ⟨⟨-, hembd, -, -⟩, hbatch⟩ := h
  have hE := toU64_toNat (x := hp.nEmbd) (by omega)
  have hC := toU64_toNat (x := nBatch) (by omega)
  have hfour : (4 : UInt64).toNat = 4 := by decide
  have hmultiplier : (toU64 computeBufferMultiplier).toNat = 4 := by decide
  obtain ⟨hbytes, hlt⟩ := foldlM_mul hmul
    [toU64 nBatch, toU64 hp.nEmbd, 4, toU64 computeBufferMultiplier] (a := 1) (by
      simp only [List.map_cons, List.map_nil, List.prod_cons, List.prod_nil, hE, hC, hfour,
        hmultiplier]
      exact computeFormula_fits (by omega) (by omega))
  have hformula : (1 : UInt64).toNat * ([toU64 nBatch, toU64 hp.nEmbd, 4,
      toU64 computeBufferMultiplier].map UInt64.toNat).prod = computeFormula hp nBatch := by
    simp only [List.map_cons, List.map_nil, List.prod_cons, List.prod_nil, hE, hC, hfour,
      hmultiplier, UInt64.toNat_one, computeFormula]
    ring
  rw [hformula] at hbytes hlt
  refine ⟨?_, hlt⟩
  simp only [estimateComputeBufferBytesBy, guard, hsane, hctx, if_true, not_false_eq_true,
    Option.bind_eq_bind, Option.pure_def, Option.bind_some]
  exact hbytes

theorem estimateKvCacheBytesBy_none {nCtx bytesPerElement : Int32}
    (h : ¬KvRange hp nCtx bytesPerElement) :
    estimateKvCacheBytesBy mul hp nCtx bytesPerElement = none := by
  by_cases hsane : hyperparamsInSaneRange hp = true
  · by_cases hctx : ¬(nCtx ≤ 0 ∨ nCtx > maxSaneCtx)
    · by_cases helement : ¬(bytesPerElement ≤ 0 ∨ bytesPerElement > maxSaneBytesPerElement)
      · exact absurd ⟨(hyperparamsInSaneRange_iff hp).mp hsane, (ctx_guard_iff nCtx).mp hctx,
          (element_guard_iff bytesPerElement).mp helement⟩ h
      · simp [estimateKvCacheBytesBy, guard, hsane, hctx, helement]
    · simp [estimateKvCacheBytesBy, guard, hsane, hctx]
  · simp [estimateKvCacheBytesBy, guard, hsane]

theorem estimateComputeBufferBytesBy_none {nBatch : Int32} (h : ¬BatchRange hp nBatch) :
    estimateComputeBufferBytesBy mul hp nBatch = none := by
  by_cases hsane : hyperparamsInSaneRange hp = true
  · by_cases hctx : ¬(nBatch ≤ 0 ∨ nBatch > maxSaneCtx)
    · exact absurd ⟨(hyperparamsInSaneRange_iff hp).mp hsane, (ctx_guard_iff nBatch).mp hctx⟩ h
    · simp [estimateComputeBufferBytesBy, guard, hsane, hctx]
  · simp [estimateComputeBufferBytesBy, guard, hsane]

end Formulas

/-- What is exactly in range, and the formula there, is any number of bytes that is in range and the
formula. -/
private theorem eq_some_iff {estimate : Option UInt64} {inRange : Prop} {formula : Nat}
    (heq : inRange → estimate = some (UInt64.ofNat formula) ∧ formula < 2 ^ 64)
    (hnone : ¬inRange → estimate = none) {bytes : UInt64} :
    estimate = some bytes ↔ inRange ∧ bytes.toNat = formula := by
  by_cases hrange : inRange
  · obtain ⟨hsome, hlt⟩ := heq hrange
    rw [hsome, Option.some.injEq, and_iff_right hrange, ← UInt64.toNat_inj,
      UInt64.toNat_ofNat_of_lt' hlt, eq_comm]
  · rw [hnone hrange]
    exact iff_of_false nofun fun h => hrange h.1

theorem estimateKvCacheBytes_some_iff {hp : ModelHyperparams} {nCtx bytesPerElement : Int32}
    {bytes : UInt64} : estimateKvCacheBytes hp nCtx bytesPerElement = some bytes ↔
      KvRange hp nCtx bytesPerElement ∧ bytes.toNat = kvFormula hp nCtx bytesPerElement := by
  change estimateKvCacheBytesBy checkedMul hp nCtx bytesPerElement = _ ↔ _
  exact eq_some_iff (estimateKvCacheBytesBy_eq multipliesFitting_checkedMul)
    estimateKvCacheBytesBy_none

theorem estimateComputeBufferBytes_some_iff {hp : ModelHyperparams} {nBatch : Int32}
    {bytes : UInt64} : estimateComputeBufferBytes hp nBatch = some bytes ↔
      BatchRange hp nBatch ∧ bytes.toNat = computeFormula hp nBatch := by
  change estimateComputeBufferBytesBy checkedMul hp nBatch = _ ↔ _
  exact eq_some_iff (estimateComputeBufferBytesBy_eq multipliesFitting_checkedMul)
    estimateComputeBufferBytesBy_none

/-- There is an estimate exactly in range, it is the formula over the naturals, and what would be
done about a product that overflows makes no difference. -/
theorem estimates_exact (hp : ModelHyperparams) (nCtx bytesPerElement nBatch : Int32) :
    ((∃ bytes, estimateKvCacheBytes hp nCtx bytesPerElement = some bytes) ↔
      KvRange hp nCtx bytesPerElement) ∧
    (∀ bytes, estimateKvCacheBytes hp nCtx bytesPerElement = some bytes →
      bytes.toNat = 2 * hp.nLayer.toInt.toNat * nCtx.toInt.toNat *
        (hp.nEmbd.toInt.toNat * hp.nHeadKv.toInt.toNat / hp.nHead.toInt.toNat) *
        bytesPerElement.toInt.toNat) ∧
    ((∃ bytes, estimateComputeBufferBytes hp nBatch = some bytes) ↔ BatchRange hp nBatch) ∧
    (∀ bytes, estimateComputeBufferBytes hp nBatch = some bytes →
      bytes.toNat = 16 * nBatch.toInt.toNat * hp.nEmbd.toInt.toNat) ∧
    ∀ overflow : UInt64 → UInt64 → Option UInt64,
      estimateKvCacheBytesBy (checkedMulOr overflow) hp nCtx bytesPerElement =
        estimateKvCacheBytes hp nCtx bytesPerElement ∧
      estimateComputeBufferBytesBy (checkedMulOr overflow) hp nBatch =
        estimateComputeBufferBytes hp nBatch := by
  refine ⟨⟨?_, ?_⟩, ?_, ⟨?_, ?_⟩, ?_, fun overflow => ⟨?_, ?_⟩⟩
  · rintro ⟨bytes, hsome⟩
    exact (estimateKvCacheBytes_some_iff.mp hsome).1
  · intro hrange
    exact ⟨_, (estimateKvCacheBytesBy_eq multipliesFitting_checkedMul hrange).1⟩
  · intro bytes hsome
    exact (estimateKvCacheBytes_some_iff.mp hsome).2
  · rintro ⟨bytes, hsome⟩
    exact (estimateComputeBufferBytes_some_iff.mp hsome).1
  · intro hrange
    exact ⟨_, (estimateComputeBufferBytesBy_eq multipliesFitting_checkedMul hrange).1⟩
  · intro bytes hsome
    exact (estimateComputeBufferBytes_some_iff.mp hsome).2
  · change _ = estimateKvCacheBytesBy checkedMul hp nCtx bytesPerElement
    by_cases hrange : KvRange hp nCtx bytesPerElement
    · rw [(estimateKvCacheBytesBy_eq (multipliesFitting_checkedMulOr overflow) hrange).1,
        (estimateKvCacheBytesBy_eq multipliesFitting_checkedMul hrange).1]
    · rw [estimateKvCacheBytesBy_none hrange, estimateKvCacheBytesBy_none hrange]
  · change _ = estimateComputeBufferBytesBy checkedMul hp nBatch
    by_cases hrange : BatchRange hp nBatch
    · rw [(estimateComputeBufferBytesBy_eq (multipliesFitting_checkedMulOr overflow) hrange).1,
        (estimateComputeBufferBytesBy_eq multipliesFitting_checkedMul hrange).1]
    · rw [estimateComputeBufferBytesBy_none hrange, estimateComputeBufferBytesBy_none hrange]

theorem div_le_cast_div_iff {n d : Nat} (hd : 0 < d) : (n : ℚ) / d ≤ ((n / d : Nat) : ℚ) ↔ d ∣ n := by
  have hpos : (0 : ℚ) < d := Nat.cast_pos.mpr hd
  rw [div_le_iff₀ hpos, ← Nat.cast_mul, Nat.cast_le]
  constructor
  · intro hle
    exact ⟨n / d, (hle.antisymm (Nat.div_mul_le_self n d)).trans (Nat.mul_comm _ _)⟩
  · intro hdvd
    exact (Nat.div_mul_cancel hdvd).ge

/-- A product with the rounded quotient is positive and not below the one with the quotient exactly
if the division leaves no rest. -/
theorem rounded_product_iff {l c e k d b : Nat} (hl : 0 < l) (hc : 0 < c) (he : 0 < e) (hk : 0 < k)
    (hd : 0 < d) (hb : 0 < b) :
    (0 < 2 * l * c * (e * k / d) * b ∧
      2 * (l : ℚ) * c * ((e : ℚ) * k / d) * b ≤ ((2 * l * c * (e * k / d) * b : Nat) : ℚ)) ↔
      d ∣ e * k := by
  have hscale : (0 : ℚ) < ((2 * l * c * b : Nat) : ℚ) :=
    Nat.cast_pos.mpr (Nat.mul_pos (Nat.mul_pos (by omega) hc) hb)
  have hexact : 2 * (l : ℚ) * c * ((e : ℚ) * k / d) * b =
      ((2 * l * c * b : Nat) : ℚ) * (((e * k : Nat) : ℚ) / d) := by
    push_cast
    ring
  have hfloor : ((2 * l * c * (e * k / d) * b : Nat) : ℚ) =
      ((2 * l * c * b : Nat) : ℚ) * ((e * k / d : Nat) : ℚ) := by
    rw [← Nat.cast_mul]
    congr 1
    ring
  rw [hexact, hfloor, mul_le_mul_iff_right₀ hscale, div_le_cast_div_iff hd]
  refine and_iff_right_of_imp fun hdvd => ?_
  have hquotient : 0 < e * k / d := Nat.div_pos (Nat.le_of_dvd (Nat.mul_pos he hk) hdvd) hd
  exact Nat.mul_pos (Nat.mul_pos (Nat.mul_pos (by omega) hc) hquotient) hb

/-- The estimate is positive and not below its formula over the rationals exactly if the heads divide
what is stored of an embedding. -/
theorem kvEstimate_conservative_iff {hp : ModelHyperparams} {nCtx bytesPerElement : Int32}
    {bytes : UInt64} (h : estimateKvCacheBytes hp nCtx bytesPerElement = some bytes) :
    (0 < bytes ∧ 2 * (hp.nLayer.toInt : ℚ) * (nCtx.toInt : ℚ) *
        ((hp.nEmbd.toInt : ℚ) * (hp.nHeadKv.toInt : ℚ) / (hp.nHead.toInt : ℚ)) *
        (bytesPerElement.toInt : ℚ) ≤ (bytes.toNat : ℚ)) ↔
      hp.nHead.toInt ∣ hp.nEmbd.toInt * hp.nHeadKv.toInt := by
  obtain ⟨⟨⟨hlayers, hembd, hheads, hheadsKv⟩, hctx, helement⟩, hbytes⟩ :=
    estimateKvCacheBytes_some_iff.mp h
  rw [kvFormula] at hbytes
  rw [UInt64.lt_iff_toNat_lt, UInt64.toNat_zero, hbytes]
  clear h hbytes
  obtain ⟨l, hl⟩ := Int.eq_ofNat_of_zero_le (show 0 ≤ hp.nLayer.toInt by omega)
  obtain ⟨e, he⟩ := Int.eq_ofNat_of_zero_le (show 0 ≤ hp.nEmbd.toInt by omega)
  obtain ⟨d, hd⟩ := Int.eq_ofNat_of_zero_le (show 0 ≤ hp.nHead.toInt by omega)
  obtain ⟨k, hk⟩ := Int.eq_ofNat_of_zero_le (show 0 ≤ hp.nHeadKv.toInt by omega)
  obtain ⟨c, hc⟩ := Int.eq_ofNat_of_zero_le (show 0 ≤ nCtx.toInt by omega)
  obtain ⟨b, hb⟩ := Int.eq_ofNat_of_zero_le (show 0 ≤ bytesPerElement.toInt by omega)
  rw [hl] at hlayers
  rw [he] at hembd
  rw [hd] at hheads
  rw [hd, hk] at hheadsKv
  rw [hc] at hctx
  rw [hb] at helement
  rw [hl, he, hd, hk, hc, hb]
  simp only [Int.toNat_natCast, Int.cast_natCast]
  rw [← Int.natCast_mul, Int.natCast_dvd_natCast]
  exact rounded_product_iff (by omega) (by omega) (by omega) (by omega) (by omega) (by omega)

/-- Twelve heads that share four. -/
theorem kvEstimate_conservative_grouped :
    let hp : ModelHyperparams := { nLayer := 12, nEmbd := 768, nHead := 12, nHeadKv := 4 }
    ∃ bytes, estimateKvCacheBytes hp 1024 2 = some bytes ∧ 0 < bytes := by
  refine ⟨12582912, by decide +kernel, ?_⟩
  exact ((@kvEstimate_conservative_iff { nLayer := 12, nEmbd := 768, nHead := 12, nHeadKv := 4 }
    1024 2 12582912 (by decide +kernel)).mpr (by decide)).1

/-- Two heads over an embedding of one element cost nothing, where the formula has 128 MiB. -/
theorem kvEstimate_degenerate :
    ¬∀ (hp : ModelHyperparams) (nCtx bytesPerElement : Int32) (bytes : UInt64),
      estimateKvCacheBytes hp nCtx bytesPerElement = some bytes → 0 < bytes := by
  intro h
  have hzero : estimateKvCacheBytes { nLayer := 1, nEmbd := 1, nHead := 2, nHeadKv := 1 }
      16777216 8 = some 0 := by decide +kernel
  exact absurd (h _ _ _ _ hzero) (by decide)

end MemoryEstimator

end EdgeMind
