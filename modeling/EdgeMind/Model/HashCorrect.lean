import EdgeMind.Model.Hash

/-!
# The streaming hasher computes SHA-256

One block agrees with the compression function of the standard. The buffered state after any
sequence of updates is determined by the bytes fed so far, so the way they were split into
calls does not matter, and the padding loop ends after the number of zero bytes that the
standard prescribes.
-/

namespace EdgeMind

open Framework

private theorem rotr_eq (x : Word32) {n : Nat} (h : n < 32) : rotr x n = x.rotateRight n := by
  simp [rotr, BitVec.rotateRight_def, Nat.mod_eq_of_lt h]

private theorem ofNat_shift_toNat (b : UInt8) {k : Nat} (hk : k ≤ 24) :
    (BitVec.ofNat 32 b.toNat <<< k).toNat = b.toNat <<< k := by
  have hb : b.toNat ≤ 255 := by have := b.toNat_lt; omega
  have hp : 2 ^ k ≤ 2 ^ 24 := Nat.pow_le_pow_right (by decide) hk
  have hm := Nat.mul_le_mul hb hp
  rw [BitVec.toNat_shiftLeft, BitVec.toNat_ofNat, Nat.mod_eq_of_lt (by omega : b.toNat < 2 ^ 32),
    Nat.mod_eq_of_lt]
  rw [Nat.shiftLeft_eq]
  omega

private theorem or_reverse (x y z w : Nat) : x ||| y ||| z ||| w = w ||| z ||| y ||| x := by
  ac_rfl

private theorem blockWord_eq (block : Bytes) (i : Nat) :
    blockWord block i = Fips180.wordAt block (4 * i) := by
  have h0 := (block.getD (i * 4) 0).toNat_lt
  have h1 := (block.getD (i * 4 + 1) 0).toNat_lt
  have h2 := (block.getD (i * 4 + 2) 0).toNat_lt
  have h3 := (block.getD (i * 4 + 3) 0).toNat_lt
  unfold blockWord Fips180.wordAt
  rw [Nat.mul_comm 4 i]
  generalize block.getD (i * 4) 0 = b0 at *
  generalize block.getD (i * 4 + 1) 0 = b1 at *
  generalize block.getD (i * 4 + 2) 0 = b2 at *
  generalize block.getD (i * 4 + 3) 0 = b3 at *
  apply BitVec.eq_of_toNat_eq
  rw [BitVec.toNat_or, BitVec.toNat_or, BitVec.toNat_or, ofNat_shift_toNat b0 (by omega),
    ofNat_shift_toNat b1 (by omega), ofNat_shift_toNat b2 (by omega), BitVec.toNat_ofNat,
    BitVec.toNat_ofNat, Nat.mod_eq_of_lt (by omega : b3.toNat < 2 ^ 32)]
  rw [or_reverse, shiftLeft_or_value _ _ 8 (by omega), shiftLeft_or_value _ _ 16 (by omega),
    shiftLeft_or_value _ _ 24 (by omega)]
  omega

private theorem extendW_schedule (block : Bytes) (n : Nat) :
    let w := (List.range' 16 n).foldl extendW ((List.range 16).map (blockWord block))
    w.length = 16 + n ∧ ∀ t < 16 + n, w.getD t 0 = Fips180.schedule block t := by
  induction n with
  | zero =>
      refine ⟨rfl, fun t ht => ?_⟩
      simp only [List.range'_zero, List.foldl_nil]
      rw [List.getD_eq_getElem _ _ (by simpa using ht), List.getElem_map, List.getElem_range,
        blockWord_eq, Fips180.schedule_lt block (by omega)]
  | succ n ih =>
      simp only at ih ⊢
      rw [List.range'_concat, List.foldl_append, Nat.one_mul]
      generalize (List.range' 16 n).foldl extendW ((List.range 16).map (blockWord block)) = w at ih
      obtain ⟨hlen, hget⟩ := ih
      simp only [List.foldl_cons, List.foldl_nil, extendW]
      refine ⟨by simp [hlen]; omega, fun t ht => ?_⟩
      by_cases hlt : t < 16 + n
      · rw [List.getD_append _ _ _ _ (by omega), hget t hlt]
      · have he : t = 16 + n := by omega
        subst t
        rw [List.getD_append_right _ _ _ _ (by omega), hlen, Nat.sub_self, List.getD_cons_zero,
          hget _ (by omega), hget _ (by omega), hget _ (by omega), hget _ (by omega),
          Fips180.schedule_ge block (by omega : 16 ≤ 16 + n)]
        simp only [rotr_eq _ (by decide : 7 < 32), rotr_eq _ (by decide : 18 < 32),
          rotr_eq _ (by decide : 17 < 32), rotr_eq _ (by decide : 19 < 32)]
        change _ + Fips180.smallSigma0 _ + _ + Fips180.smallSigma1 _ = _
        ac_rfl

private theorem roundStep_eq (w : List Word32) (W : Nat → Word32) (v : Fips180.HashValue) (t : Nat)
    (h : w.getD t 0 = W t) : roundStep w v t = Fips180.round W v t := by
  simp only [roundStep, Fips180.round, h, rotr_eq _ (by decide : 6 < 32),
    rotr_eq _ (by decide : 11 < 32), rotr_eq _ (by decide : 25 < 32), rotr_eq _ (by decide : 2 < 32),
    rotr_eq _ (by decide : 13 < 32), rotr_eq _ (by decide : 22 < 32)]
  rfl

private theorem rounds_eq {w : List Word32} {W : Nat → Word32} (hw : ∀ t < 64, w.getD t 0 = W t)
    (ts : List Nat) (hts : ∀ t ∈ ts, t < 64) (v : Fips180.HashValue) :
    ts.foldl (roundStep w) v = ts.foldl (Fips180.round W) v := by
  induction ts generalizing v with
  | nil => rfl
  | cons t ts ih =>
      have ht : roundStep w v t = Fips180.round W v t :=
        roundStep_eq w W v t (hw t (hts t List.mem_cons_self))
      rw [List.foldl_cons, List.foldl_cons, ht, ih (fun s hs => hts s (List.mem_cons_of_mem t hs))]

theorem processBlock_eq (state : Fips180.HashValue) (block : Bytes) :
    processBlock state block = Fips180.compress state block := by
  have hw : ∀ t < 64, (messageWords block).getD t 0 = Fips180.schedule block t :=
    (extendW_schedule block 48).2
  have hrounds := rounds_eq hw (List.range 64) (fun t ht => List.mem_range.mp ht) state
  rw [processBlock, Fips180.compress, ← hrounds, Fips180.HashValue.add]

def tailBytes (xs : Bytes) : Bytes := xs.drop (64 * (xs.length / 64))

theorem tailBytes_length (xs : Bytes) : (tailBytes xs).length = xs.length % 64 := by
  rw [tailBytes, List.length_drop]; omega

theorem tailBytes_of_lt {xs : Bytes} (h : xs.length < 64) : tailBytes xs = xs := by
  simp [tailBytes, Nat.div_eq_of_lt h]

theorem tailBytes_of_mod {xs : Bytes} (h : xs.length % 64 = 0) : tailBytes xs = [] := by
  rw [← List.length_eq_zero_iff, tailBytes_length, h]

private theorem tailBytes_append (k : Nat) {xs ys : Bytes} (h : xs.length = 64 * k) :
    tailBytes (xs ++ ys) = tailBytes ys := by
  have hd : (xs ++ ys).length / 64 = k + ys.length / 64 := by
    rw [List.length_append, h]; omega
  rw [tailBytes, hd, show 64 * (k + ys.length / 64) = xs.length + 64 * (ys.length / 64) by omega,
    ← List.drop_drop, List.drop_left]
  rfl

private theorem take_whole_length (xs : Bytes) :
    (xs.take (64 * (xs.length / 64))).length = 64 * (xs.length / 64) := by
  rw [List.length_take]; omega

theorem tailBytes_absorb (xs ys : Bytes) : tailBytes (tailBytes xs ++ ys) = tailBytes (xs ++ ys) := by
  conv_rhs => rw [← List.take_append_drop (64 * (xs.length / 64)) xs, List.append_assoc]
  exact (tailBytes_append _ (take_whole_length xs)).symm

theorem hashBlocks_absorb (H : Fips180.HashValue) (xs ys : Bytes) :
    Fips180.hashBlocks (Fips180.hashBlocks H xs) (tailBytes xs ++ ys) =
      Fips180.hashBlocks H (xs ++ ys) := by
  have hw := take_whole_length xs
  have hsplit (zs : Bytes) : xs ++ zs =
      xs.take (64 * (xs.length / 64)) ++ (tailBytes xs ++ zs) := by
    rw [tailBytes, ← List.append_assoc, List.take_append_drop]
  have hx : Fips180.hashBlocks H xs = Fips180.hashBlocks H (xs.take (64 * (xs.length / 64))) := by
    conv_lhs => rw [← List.append_nil xs, hsplit [], Fips180.hashBlocks_append _ H _ _ hw,
      List.append_nil]
    apply Fips180.hashBlocks_of_lt
    rw [tailBytes_length]; omega
  rw [hx, hsplit ys, Fips180.hashBlocks_append _ H _ _ hw]

private theorem hnil : ([] : Bytes).length < 64 := Nat.zero_lt_succ 63

namespace Sha256

/-- The buffer holds exactly the tail of the bytes fed so far, the state all blocks before it. -/
structure Fed (h : Sha256) (m : Bytes) : Prop where
  state : h.state = Fips180.hashBlocks Fips180.initial m
  size : h.buffer.length = 64
  len : h.bufferLen = m.length % 64
  buffered : h.buffer.take h.bufferLen = tailBytes m

theorem fed_new : Fed new [] where
  state := (Fips180.hashBlocks_of_lt Fips180.initial hnil).symm
  size := List.length_replicate
  len := rfl
  buffered := rfl

theorem memcpy_some (dst src : Bytes) (i : Nat) (h : i + src.length ≤ dst.length) :
    ∃ out, memcpy dst i src = some out ∧ out.length = dst.length ∧
      out.take (i + src.length) = dst.take i ++ src := by
  refine ⟨_, if_pos h, ?_, ?_⟩
  · simp only [List.length_append, List.length_take, List.length_drop]; omega
  · have hl : (dst.take i ++ src).length = i + src.length := by
      rw [List.length_append, List.length_take]; omega
    rw [List.take_left' hl]

theorem readAt_some (data : Bytes) (i n : Nat) (h : i + n ≤ data.length) :
    readAt data i n = some ((data.drop i).take n) := if_pos h

private theorem wholeBlocks_spec (fuel : Nat) (data : Bytes) (offset : Nat)
    (state : Fips180.HashValue) (ho : offset ≤ data.length)
    (hf : (data.length - offset) / 64 < fuel) :
    wholeBlocks fuel data offset state =
      some (Fips180.hashBlocks state (data.drop offset),
        offset + 64 * ((data.length - offset) / 64)) := by
  induction fuel generalizing offset state with
  | zero => omega
  | succ fuel ih =>
      rw [wholeBlocks]
      by_cases hb : offset + 64 ≤ data.length
      · have hlen : ((data.drop offset).take 64).length = 64 := by
          rw [List.length_take, List.length_drop]; omega
        have hrest : (data.drop offset).take 64 ++ data.drop (offset + 64) = data.drop offset := by
          rw [← List.drop_drop, List.take_append_drop]
        rw [if_pos hb, readAt_some _ _ _ hb]
        simp only [Option.bind_eq_bind, Option.bind_some]
        rw [ih (offset + 64) _ (by omega) (by omega), processBlock_eq, ← hrest,
          Fips180.hashBlocks_cons _ hlen]
        have hd : offset + 64 + 64 * ((data.length - (offset + 64)) / 64) =
            offset + 64 * ((data.length - offset) / 64) := by omega
        rw [hd, hrest]
      · have hshort : (data.drop offset).length < 64 := by rw [List.length_drop]; omega
        rw [if_neg hb, Fips180.hashBlocks_of_lt _ hshort]
        have hd : (data.length - offset) / 64 = 0 := by omega
        rw [hd, Nat.mul_zero, Nat.add_zero]

private theorem Fed.fill {h : Sha256} {m : Bytes} (hm : Fed h m) {xs out : Bytes}
    (hsize : out.length = 64) (htake : out.take (h.bufferLen + xs.length) = tailBytes m ++ xs)
    (hroom : h.bufferLen + xs.length < 64) :
    Fed { h with buffer := out, bufferLen := h.bufferLen + xs.length } (m ++ xs) := by
  have hshort : (tailBytes m ++ xs).length < 64 := by
    rw [List.length_append, tailBytes_length, ← hm.len]
    exact hroom
  refine ⟨?_, hsize, ?_, ?_⟩
  · change h.state = _
    rw [hm.state, ← hashBlocks_absorb,
      Fips180.hashBlocks_of_lt (Fips180.hashBlocks Fips180.initial m) hshort]
  · change h.bufferLen + xs.length = (m ++ xs).length % 64
    rw [List.length_append, hm.len]
    rw [hm.len] at hroom
    omega
  · change out.take (h.bufferLen + xs.length) = _
    rw [htake, ← tailBytes_absorb, tailBytes_of_lt hshort]

private theorem Fed.flush {h : Sha256} {m : Bytes} (hm : Fed h m) {xs out : Bytes}
    (hsize : out.length = 64) (htake : out.take (h.bufferLen + xs.length) = tailBytes m ++ xs)
    (hfull : h.bufferLen + xs.length = 64) :
    Fed { h with state := processBlock h.state out, buffer := out, bufferLen := 0 } (m ++ xs) := by
  have hout : out = tailBytes m ++ xs := by
    rw [← htake, hfull, ← hsize, List.take_length]
  have haligned : (m ++ xs).length % 64 = 0 := by
    rw [hm.len] at hfull
    rw [List.length_append]
    omega
  refine ⟨?_, hsize, haligned.symm, ?_⟩
  · change processBlock h.state out = _
    rw [processBlock_eq, hm.state, ← hashBlocks_absorb, ← hout, ← List.append_nil out,
      Fips180.hashBlocks_cons _ hsize, List.append_nil, Fips180.hashBlocks_of_lt _ hnil]
  · change out.take 0 = _
    rw [List.take_zero, tailBytes_of_mod haligned]

/-- What topping up does: a prefix of the data is consumed, and either the data is used up or
the buffer is empty again. -/
private theorem topUp_spec {h : Sha256} {m : Bytes} (hm : Fed h m) (data : Bytes) :
    ∃ h' n, topUp h data = some (h', n) ∧ n ≤ data.length ∧ Fed h' (m ++ data.take n) ∧
      h'.bitLen = h.bitLen ∧ (n = data.length ∨ h'.bufferLen = 0) := by
  have hlt : h.bufferLen < 64 := by rw [hm.len]; omega
  by_cases hpos : 0 < h.bufferLen
  · let n := if data.length < 64 - h.bufferLen then data.length else 64 - h.bufferLen
    have hn : n ≤ data.length ∧ n ≤ 64 - h.bufferLen ∧
        (n = data.length ∨ h.bufferLen + n = 64) := by
      simp only [n]; split <;> omega
    have hread := readAt_some data 0 n (by omega)
    rw [List.drop_zero] at hread
    have hcopied : (data.take n).length = n := by rw [List.length_take]; omega
    obtain ⟨out, hcopy, hsize, htake⟩ := memcpy_some h.buffer (data.take n) h.bufferLen
      (by rw [hcopied, hm.size]; omega)
    rw [hm.size] at hsize
    rw [hm.buffered] at htake
    have hfold : topUp h data = if h.bufferLen + n = 64 then
        some ({ h with state := processBlock h.state out, buffer := out, bufferLen := 0 }, n)
        else some ({ h with buffer := out, bufferLen := h.bufferLen + n }, n) := by
      simp only [topUp, hpos, if_true]
      change ((readAt data 0 n).bind fun src => (memcpy h.buffer h.bufferLen src).bind _) = _
      rw [hread, Option.bind_some, hcopy, Option.bind_some]
      rfl
    by_cases hfull : h.bufferLen + n = 64
    · rw [if_pos hfull] at hfold
      exact ⟨_, n, hfold, hn.1, hm.flush hsize htake (by rw [hcopied]; exact hfull), rfl, .inr rfl⟩
    · rw [if_neg hfull] at hfold
      have hfed := hm.fill hsize htake (by omega)
      rw [hcopied] at hfed
      exact ⟨_, n, hfold, hn.1, hfed, rfl, .inl (hn.2.2.resolve_right hfull)⟩
  · refine ⟨h, 0, by rw [topUp, if_neg hpos], Nat.zero_le _, ?_, rfl, Or.inr (by omega)⟩
    simpa using hm

private theorem Fed.whole {h : Sha256} {m : Bytes} (hm : Fed h m) (hempty : h.bufferLen = 0) :
    m.length = 64 * (m.length / 64) ∧ ∀ rest : Bytes,
      Fips180.hashBlocks h.state rest = Fips180.hashBlocks Fips180.initial (m ++ rest) := by
  have hlen := hm.len
  have hwhole : m.length = 64 * (m.length / 64) := by omega
  refine ⟨hwhole, fun rest => ?_⟩
  rw [hm.state, Fips180.hashBlocks_append _ _ _ _ hwhole]

private theorem Fed.blocks {h : Sha256} {m : Bytes} (hm : Fed h m) (hempty : h.bufferLen = 0)
    {rest : Bytes} (hrest : rest.length % 64 = 0) :
    Fed { h with state := Fips180.hashBlocks h.state rest } (m ++ rest) := by
  obtain ⟨hwhole, hstate⟩ := hm.whole hempty
  have haligned : (m ++ rest).length % 64 = 0 := by
    rw [List.length_append]
    omega
  refine ⟨hstate rest, hm.size, ?_, ?_⟩
  · rw [haligned]
    exact hempty
  · change h.buffer.take h.bufferLen = _
    rw [hempty, List.take_zero, tailBytes_of_mod haligned]

private theorem Fed.remainder {h : Sha256} {m : Bytes} (hm : Fed h m) (hempty : h.bufferLen = 0)
    {rest out : Bytes} (hsize : out.length = 64)
    (htake : out.take (rest.length % 64) = tailBytes rest) :
    Fed { h with
      state := Fips180.hashBlocks h.state rest
      buffer := out
      bufferLen := rest.length % 64 } (m ++ rest) := by
  obtain ⟨hwhole, hstate⟩ := hm.whole hempty
  refine ⟨hstate rest, hsize, ?_, ?_⟩
  · change rest.length % 64 = _
    rw [List.length_append]
    omega
  · exact htake.trans (tailBytes_append _ hwhole).symm

theorem update_spec {h : Sha256} {m : Bytes} (hm : Fed h m) (data : Bytes) :
    ∃ h', h.update data = some h' ∧ Fed h' (m ++ data) ∧
      h'.bitLen = h.bitLen + UInt64.ofNat data.length * 8 := by
  have hm' : Fed { h with bitLen := h.bitLen + UInt64.ofNat data.length * 8 } m :=
    ⟨hm.state, hm.size, hm.len, hm.buffered⟩
  obtain ⟨h1, n, htop, hn, hf, hbit, hdone⟩ := topUp_spec hm' data
  have hblocks := wholeBlocks_spec (data.length / 64 + 1) data n h1.state hn (by omega)
  have happ : m ++ data = (m ++ data.take n) ++ data.drop n := by
    rw [List.append_assoc, List.take_append_drop]
  have hrest : (data.drop n).length = data.length - n := List.length_drop
  by_cases hrem : n + 64 * ((data.length - n) / 64) < data.length
  · -- a proper remainder is left, so the buffer was empty after topping up
    have hempty : h1.bufferLen = 0 := hdone.resolve_left (by omega)
    have hleft : data.length - (n + 64 * ((data.length - n) / 64)) = (data.drop n).length % 64 := by
      omega
    have hread : readAt data (n + 64 * ((data.length - n) / 64)) ((data.drop n).length % 64) =
        some (tailBytes (data.drop n)) := by
      rw [readAt_some _ _ _ (by omega), tailBytes, hrest, List.drop_drop, List.take_of_length_le]
      rw [List.length_drop]
      omega
    have htail := tailBytes_length (data.drop n)
    obtain ⟨out, hcopy, hsize, htake⟩ := memcpy_some h1.buffer (tailBytes (data.drop n)) 0
      (by rw [hf.size]; omega)
    rw [List.take_zero, List.nil_append, Nat.zero_add, htail] at htake
    have hupdate : h.update data = some { h1 with
        state := Fips180.hashBlocks h1.state (data.drop n)
        buffer := out
        bufferLen := (data.drop n).length % 64 } := by
      simp only [update, htop, hblocks, Option.bind_eq_bind, Option.bind_some, hrem, if_true, hleft,
        hread, hcopy]
      rfl
    exact ⟨_, hupdate, happ ▸ hf.remainder hempty (hsize.trans hf.size) htake, hbit⟩
  · have hupdate : h.update data =
        some { h1 with state := Fips180.hashBlocks h1.state (data.drop n) } := by
      simp only [update, htop, hblocks, Option.bind_eq_bind, Option.bind_some, hrem, if_false]
      rfl
    refine ⟨_, hupdate, ?_, hbit⟩
    rcases hdone with hall | hempty
    · rw [hall, List.take_length] at hf
      rw [hall, List.drop_length, Fips180.hashBlocks_of_lt _ hnil]
      exact hf
    · exact happ ▸ hf.blocks hempty (by omega)

/-- Any number of calls of `update`, in order. -/
def updateAll (h : Sha256) (chunks : List Bytes) : Option Sha256 := chunks.foldlM update h

theorem updateAll_spec (chunks : List Bytes) {h : Sha256} {m : Bytes} (hm : Fed h m)
    (hbit : h.bitLen = UInt64.ofNat (8 * m.length)) :
    ∃ h', h.updateAll chunks = some h' ∧ Fed h' (m ++ chunks.flatten) ∧
      h'.bitLen = UInt64.ofNat (8 * (m ++ chunks.flatten).length) := by
  induction chunks generalizing h m with
  | nil => exact ⟨h, rfl, by simpa using hm, by simpa using hbit⟩
  | cons data chunks ih =>
      obtain ⟨h1, hup, hf, hb⟩ := update_spec hm data
      have hbit1 : h1.bitLen = UInt64.ofNat (8 * (m ++ data).length) := by
        rw [hb, hbit, List.length_append, Nat.mul_add, UInt64.ofNat_add, Nat.mul_comm 8 data.length,
          UInt64.ofNat_mul data.length]
        rfl
      obtain ⟨h2, hall, hf2, hb2⟩ := ih hf hbit1
      refine ⟨h2, ?_, by simpa using hf2, by simpa using hb2⟩
      rw [updateAll, List.foldlM_cons, hup]
      exact hall

private theorem padZeros_spec (k : Nat) (fuel : Nat) {h : Sha256} {m : Bytes} (bits : UInt64)
    (hm : Fed h m) (hbit : h.bitLen = bits) (hfuel : k < fuel)
    (hk : (m.length + k) % 64 = 56) (hleast : ∀ j < k, (m.length + j) % 64 ≠ 56) :
    ∃ h', padZeros fuel bits h = some h' ∧ Fed h' (m ++ List.replicate k 0) ∧ h'.bitLen = bits := by
  induction k generalizing fuel h m with
  | zero =>
      obtain ⟨fuel, rfl⟩ : ∃ f, fuel = f + 1 := ⟨fuel - 1, by omega⟩
      have hlen : h.bufferLen = 56 := by rw [hm.len]; exact hk
      refine ⟨h, by rw [padZeros, if_neg (not_not_intro hlen)], by simpa using hm, hbit⟩
  | succ k ih =>
      obtain ⟨fuel, rfl⟩ : ∃ f, fuel = f + 1 := ⟨fuel - 1, by omega⟩
      have hlen : h.bufferLen ≠ 56 := by
        rw [hm.len]
        exact hleast 0 (by omega)
      obtain ⟨h1, hup, hf, -⟩ := update_spec hm [0x00]
      have hf1 : Fed { h1 with bitLen := bits } (m ++ [0x00]) :=
        ⟨hf.state, hf.size, hf.len, hf.buffered⟩
      obtain ⟨h2, hpad, hf2, hb2⟩ := ih fuel hf1 rfl (by omega)
        (by simp only [List.length_append, List.length_singleton]; omega)
        (fun j hj => by
          have := hleast (j + 1) (by omega)
          simp only [List.length_append, List.length_singleton]
          omega)
      refine ⟨h2, ?_, ?_, hb2⟩
      · rw [padZeros, if_pos hlen, hup]
        exact hpad
      · rw [List.append_assoc] at hf2
        exact hf2

private theorem lenBytes_eq (n : Nat) : lenBytes (UInt64.ofNat n) = Fips180.lengthBytes n := by
  unfold lenBytes Fips180.lengthBytes
  apply List.map_congr_left
  intro i hi
  have hi8 : i < 8 := List.mem_range.mp hi
  apply UInt8.toNat_inj.mp
  rw [UInt64.toNat_toUInt8, UInt64.toNat_shiftRight, UInt64.toNat_ofNat', UInt64.toNat_ofNat',
    UInt8.toNat_ofNat', Nat.mod_eq_of_lt (by omega : 56 - 8 * i < 2 ^ 64),
    Nat.mod_eq_of_lt (by omega : 56 - 8 * i < 64), Nat.shiftRight_eq_div_pow]
  have hsplit : 2 ^ 64 = 2 ^ (56 - 8 * i) * 2 ^ (8 + 8 * i) := by
    rw [← Nat.pow_add]; congr 1; omega
  have hdvd : 2 ^ 8 ∣ 2 ^ (8 + 8 * i) := Nat.pow_dvd_pow 2 (by omega)
  rw [hsplit, Nat.mod_mul_right_div_self, Nat.mod_mod_of_dvd _ hdvd]

private theorem hexOfWord_eq (w : Word32) (j : Nat) :
    hexOfWord w j = hexByte (text "0123456789abcdef")
      (UInt8.ofNat (w.toNat / 2 ^ (24 - 8 * j))) := by
  have hshift : (w >>> (24 - 8 * j)).toNat = w.toNat / 2 ^ (24 - 8 * j) := by
    rw [BitVec.toNat_ushiftRight, Nat.shiftRight_eq_div_pow]
  have hhigh (b : UInt8) : (b >>> 4).toNat = b.toNat / 16 := by
    rw [UInt8.toNat_shiftRight]; exact Nat.shiftRight_eq_div_pow _ 4
  have hlow (b : UInt8) : (b &&& 0x0F).toNat = b.toNat % 16 := by
    rw [UInt8.toNat_and]; exact Nat.and_two_pow_sub_one_eq_mod b.toNat 4
  simp only [hexOfWord, hexByte, hshift, hhigh, hlow, kHex]

private theorem hexWords_eq (v : Fips180.HashValue) :
    (v.words.flatMap fun w => (List.range 4).flatMap (hexOfWord w)) =
      (v.words.flatMap Fips180.wordBytes).flatMap (hexByte (text "0123456789abcdef")) := by
  rw [List.flatMap_assoc]
  congr 1
  funext w
  rw [Fips180.wordBytes, List.flatMap_map]
  congr 1
  funext j
  exact hexOfWord_eq w j

theorem finalizeHex_spec {h : Sha256} {m : Bytes} (hm : Fed h m)
    (hbit : h.bitLen = UInt64.ofNat (8 * m.length)) :
    h.finalizeHex = some (Fips180.sha256Hex m) := by
  obtain ⟨h1, hup, hf1, -⟩ := update_spec hm [0x80]
  have hfm : Fed { h1 with bitLen := h.bitLen } (m ++ [0x80]) :=
    ⟨hf1.state, hf1.size, hf1.len, hf1.buffered⟩
  have hzero := Fips180.zeroCount_least m.length
  have hmlen : (m ++ [(0x80 : UInt8)]).length = m.length + 1 := List.length_append
  obtain ⟨h2, hpad, hf2, -⟩ := padZeros_spec (Fips180.zeroCount m.length) 64 h.bitLen hfm rfl
    (by rw [Fips180.zeroCount]; omega) (by rw [hmlen]; exact hzero.1)
    (fun j hj hmod => by
      have := hzero.2 j (by rw [← hmlen]; exact hmod)
      omega)
  have hpadlen : (m ++ [0x80] ++ List.replicate (Fips180.zeroCount m.length) 0).length % 64 = 56 := by
    rw [List.length_append, hmlen, List.length_replicate]
    exact hzero.1
  have hlen2 : h2.bufferLen = 56 := by rw [hf2.len, hpadlen]
  have hlenBytes : lenBytes h.bitLen = Fips180.lengthBytes (8 * m.length) := by
    rw [hbit, lenBytes_eq]
  obtain ⟨out, hcopy, hsize, htake⟩ := memcpy_some h2.buffer (lenBytes h.bitLen)
    h2.bufferLen (by rw [hf2.size, hlen2, hlenBytes, Fips180.lengthBytes_length])
  have hout : out = tailBytes (m ++ [0x80] ++ List.replicate (Fips180.zeroCount m.length) 0) ++
      Fips180.lengthBytes (8 * m.length) := by
    rw [← hf2.buffered, ← hlenBytes, ← htake, hlen2, hlenBytes, Fips180.lengthBytes_length,
      List.take_of_length_le]
    rw [hsize, hf2.size]
  have hblock : out.length = 64 := by rw [hsize, hf2.size]
  have hdigest : processBlock h2.state out = Fips180.sha256 m := by
    rw [Fips180.sha256, Fips180.pad, List.append_cons m, ← hashBlocks_absorb, ← hout,
      ← List.append_nil out, Fips180.hashBlocks_cons _ hblock, Fips180.hashBlocks_of_lt _ hnil,
      processBlock_eq, hf2.state, List.append_nil]
  have hrun : h.finalizeHex = some
      ((processBlock h2.state out).words.flatMap fun w => (List.range 4).flatMap (hexOfWord w)) := by
    simp only [finalizeHex, hup, hpad, hcopy, Option.bind_eq_bind, Option.bind_some]
    rfl
  rw [hrun, hexWords_eq, hdigest, Fips180.sha256Hex]

theorem hash_of_chunks (chunks : List Bytes) :
    (new.updateAll chunks).bind finalizeHex = some (Fips180.sha256Hex chunks.flatten) := by
  obtain ⟨h, hall, hf, hbit⟩ := updateAll_spec chunks fed_new rfl
  rw [hall, Option.bind_some]
  rw [List.nil_append] at hf hbit
  exact finalizeHex_spec hf hbit

end Sha256

/-- The chunks the read loop passes to the hasher. -/
def readChunks : Nat → Bytes → List Bytes
  | 0, _ => []
  | fuel + 1, unread =>
      let got := unread.take chunkBytes
      (if 0 < got.length then [got] else []) ++
        if got.length < chunkBytes then [] else readChunks fuel (unread.drop chunkBytes)

private theorem fuel_drop {unread : Bytes} {fuel : Nat} (hf : unread.length / chunkBytes < fuel + 1)
    (hlast : ¬(unread.take chunkBytes).length < chunkBytes) :
    (unread.drop chunkBytes).length / chunkBytes < fuel := by
  have hc : chunkBytes = 1048576 := rfl
  rw [hc] at hf hlast ⊢
  rw [List.length_take] at hlast
  rw [List.length_drop]
  omega

private theorem readChunks_flatten (fuel : Nat) (unread : Bytes)
    (hf : unread.length / chunkBytes < fuel) : (readChunks fuel unread).flatten = unread := by
  induction fuel generalizing unread with
  | zero => exact absurd hf (Nat.not_lt_zero _)
  | succ fuel ih =>
      have hhead : (if 0 < (unread.take chunkBytes).length then [unread.take chunkBytes]
          else []).flatten = unread.take chunkBytes := by
        split
        · simp
        · have h0 : (unread.take chunkBytes).length = 0 := by omega
          rw [List.length_eq_zero_iff.mp h0]
          rfl
      rw [readChunks, List.flatten_append, hhead]
      by_cases hlast : (unread.take chunkBytes).length < chunkBytes
      · rw [if_pos hlast, List.flatten_nil, List.append_nil, List.take_of_length_le]
        rw [List.length_take] at hlast
        omega
      · rw [if_neg hlast, ih _ (fuel_drop hf hlast), List.take_append_drop]

private theorem hashChunks_eq (fuel : Nat) (unread : Bytes) (h : Sha256)
    (hf : unread.length / chunkBytes < fuel) :
    hashChunks fuel unread h = h.updateAll (readChunks fuel unread) := by
  induction fuel generalizing unread h with
  | zero => exact absurd hf (Nat.not_lt_zero _)
  | succ fuel ih =>
      have hstep : (if 0 < (unread.take chunkBytes).length then h.update (unread.take chunkBytes)
          else some h) =
            h.updateAll (if 0 < (unread.take chunkBytes).length then [unread.take chunkBytes]
              else []) := by
        split <;> simp [Sha256.updateAll]
      rw [readChunks, Sha256.updateAll, List.foldlM_append, ← Sha256.updateAll, ← hstep, hashChunks]
      refine Option.bind_congr fun h1 _ => ?_
      by_cases hlast : (unread.take chunkBytes).length < chunkBytes
      · rw [if_pos hlast, if_pos hlast]
        rfl
      · rw [if_neg hlast, if_neg hlast, ih _ h1 (fuel_drop hf hlast)]
        rfl

theorem computeModelIdentity_readable {fs : FileSystem} {path : Path} {content : Bytes}
    (h : (fs path).open = some content) :
    computeModelIdentity fs path =
      some { computed := true, sha256Hex := Fips180.sha256Hex content } := by
  have hfuel := Nat.lt_succ_self (content.length / chunkBytes)
  have hhash := Sha256.hash_of_chunks (readChunks (content.length / chunkBytes + 1) content)
  rw [readChunks_flatten _ _ hfuel, ← hashChunks_eq _ _ _ hfuel] at hhash
  obtain ⟨hasher, hrun, hfin⟩ := Option.bind_eq_some_iff.mp hhash
  simp only [computeModelIdentity, h, hrun, hfin, Option.bind_eq_bind, Option.bind_some]
  rfl

theorem computeModelIdentity_unreadable {fs : FileSystem} {path : Path}
    (h : (fs path).open = none) : computeModelIdentity fs path = some {} := by
  rw [computeModelIdentity, h]

/-- The streaming hasher refines the standard for every split into updates, and the identity of a
readable file is the hash of its whole content. -/
theorem streaming_sha256 :
    (∀ chunks, (Sha256.new.updateAll chunks).bind Sha256.finalizeHex =
      some (Fips180.sha256Hex chunks.flatten)) ∧
    ∀ fs path, computeModelIdentity fs path = some (match (fs path).open with
      | some content => { computed := true, sha256Hex := Fips180.sha256Hex content }
      | none => {}) := by
  refine ⟨Sha256.hash_of_chunks, fun fs path => ?_⟩
  cases h : (fs path).open with
  | none => exact computeModelIdentity_unreadable h
  | some content => exact computeModelIdentity_readable h

example : (Sha256.new.updateAll [text "a", [], text "bc"]).bind Sha256.finalizeHex =
    some (text "ba7816bf8f01cfea414140de5dae2223b00361a396177a9cb410ff61f20015ad") := by
  decide +kernel

end EdgeMind
