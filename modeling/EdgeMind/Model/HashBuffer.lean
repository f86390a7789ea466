import EdgeMind.Model.HashCorrect

/-!
# The buffer of the hasher

Between updates the buffer holds less than a block, and how much is determined by the number of bytes
fed. So every copy fits, and the padding loop, which ends only when exactly 56 bytes are buffered,
gets there from any state before it has gone around the buffer once.
-/

namespace EdgeMind

open Framework

namespace Sha256

def padZero (originalBitLen : UInt64) (h : Sha256) : Option Sha256 :=
  (h.update [0x00]).map fun h => { h with bitLen := originalBitLen }

def padTimes (originalBitLen : UInt64) : Nat → Sha256 → Option Sha256
  | 0, h => some h
  | k + 1, h => (padZero originalBitLen h).bind (padTimes originalBitLen k)

/-- The padding loop stops after `k` iterations, with room for exactly the length. -/
structure StopsAfter (originalBitLen : UInt64) (k : Nat) (h full : Sha256) : Prop where
  iterations : padTimes originalBitLen k h = some full
  stops : full.bufferLen = 56
  continues : ∀ j < k, ∃ h', padTimes originalBitLen j h = some h' ∧ h'.bufferLen ≠ 56
  room : full.bufferLen + (lenBytes originalBitLen).length = full.buffer.length

variable {originalBitLen : UInt64}

theorem padZero_spec {h : Sha256} {m : Bytes} (hm : Fed h m) :
    ∃ h', padZero originalBitLen h = some h' ∧ Fed h' (m ++ [0x00]) := by
  obtain ⟨h', hupdate, hfed, -⟩ := update_spec hm [0x00]
  refine ⟨{ h' with bitLen := originalBitLen }, ?_, hfed.state, hfed.size, hfed.len, hfed.buffered⟩
  rw [padZero, hupdate]
  rfl

theorem padTimes_spec (k : Nat) {h : Sha256} {m : Bytes} (hm : Fed h m) :
    ∃ h', padTimes originalBitLen k h = some h' ∧ Fed h' (m ++ List.replicate k 0x00) := by
  induction k generalizing h m with
  | zero => exact ⟨h, rfl, by simpa using hm⟩
  | succ k ih =>
      obtain ⟨h', hzero, hfed⟩ := padZero_spec hm
      obtain ⟨full, htimes, hfull⟩ := ih hfed
      refine ⟨full, ?_, by simpa [List.replicate_succ] using hfull⟩
      rw [padTimes, hzero]
      exact htimes

theorem padZeros_of_stops {k fuel : Nat} {h full : Sha256} (hfuel : k < fuel)
    (hstop : StopsAfter originalBitLen k h full) :
    padZeros fuel originalBitLen h = some full := by
  induction k generalizing fuel h with
  | zero =>
      obtain ⟨fuel, rfl⟩ : ∃ f, fuel = f + 1 := ⟨fuel - 1, by omega⟩
      obtain rfl : h = full := Option.some.inj hstop.iterations
      rw [padZeros, if_neg (not_not_intro hstop.stops)]
  | succ k ih =>
      obtain ⟨fuel, rfl⟩ : ∃ f, fuel = f + 1 := ⟨fuel - 1, by omega⟩
      obtain ⟨h', hstart, hne⟩ := hstop.continues 0 (Nat.succ_pos k)
      obtain rfl : h = h' := Option.some.inj hstart
      obtain ⟨next, hzero, hrest⟩ := Option.bind_eq_some_iff.mp hstop.iterations
      have hcontinues (j : Nat) (hj : j < k) :
          ∃ h', padTimes originalBitLen j next = some h' ∧ h'.bufferLen ≠ 56 := by
        have hlater := hstop.continues (j + 1) (Nat.succ_lt_succ hj)
        rwa [padTimes, hzero, Option.bind_some] at hlater
      have hloop := @ih fuel next (Nat.lt_of_succ_lt_succ hfuel)
        ⟨hrest, hstop.stops, hcontinues, hstop.room⟩
      obtain ⟨updated, hupdate, hnext⟩ := Option.map_eq_some_iff.mp hzero
      rw [padZeros, if_pos hne, hupdate]
      change padZeros fuel originalBitLen { updated with bitLen := originalBitLen } = some full
      rw [hnext]
      exact hloop

theorem stopsAfter_zeroCount {h : Sha256} {m : Bytes} (hm : Fed h (m ++ [0x80])) :
    ∃ full, StopsAfter originalBitLen (Fips180.zeroCount m.length) h full := by
  obtain ⟨hroom, hleast⟩ := Fips180.zeroCount_least m.length
  have hlen (k : Nat) {h' : Sha256} (hfed : Fed h' (m ++ [0x80] ++ List.replicate k 0x00)) :
      h'.bufferLen = (m.length + 1 + k) % 64 := by
    rw [hfed.len, List.length_append, List.length_append, List.length_replicate]
    rfl
  obtain ⟨full, htimes, hfed⟩ := padTimes_spec (Fips180.zeroCount m.length) hm
  refine ⟨full, htimes, (hlen _ hfed).trans hroom, fun j hj => ?_, ?_⟩
  · obtain ⟨h', htimes', hfed'⟩ := padTimes_spec j hm
    refine ⟨h', htimes', fun hstop => ?_⟩
    have := hleast j ((hlen j hfed').symm.trans hstop)
    omega
  · rw [hlen _ hfed, hroom, hfed.size]
    rfl

/-- In every reachable state the buffer holds the bytes fed modulo 64, further updates copy and read
in bounds, and finishing stops padding within 63 iterations and fills the buffer with the length. -/
theorem buffering_safe (chunks : List Bytes) :
    ∃ h, new.updateAll chunks = some h ∧ h.buffer.length = 64 ∧ h.bufferLen < 64 ∧
      h.bufferLen = chunks.flatten.length % 64 ∧ (∀ data, ∃ h', h.update data = some h') ∧
      ∃ padded k full buffer, h.update [0x80] = some padded ∧ k ≤ 63 ∧
        StopsAfter h.bitLen k { padded with bitLen := h.bitLen } full ∧
        (∀ fuel, k < fuel →
          padZeros fuel h.bitLen { padded with bitLen := h.bitLen } = some full) ∧
        memcpy full.buffer full.bufferLen (lenBytes h.bitLen) = some buffer ∧
        h.finalizeHex = some ((processBlock full.state buffer).words.flatMap fun w =>
          (List.range 4).flatMap (hexOfWord w)) := by
  obtain ⟨h, hall, hfed, -⟩ := updateAll_spec chunks fed_new rfl
  rw [List.nil_append] at hfed
  have hlen := hfed.len
  obtain ⟨padded, hpad, hpadded, -⟩ := update_spec hfed [0x80]
  have hstart : Fed { padded with bitLen := h.bitLen } (chunks.flatten ++ [0x80]) :=
    ⟨hpadded.state, hpadded.size, hpadded.len, hpadded.buffered⟩
  obtain ⟨full, hstop⟩ := @stopsAfter_zeroCount h.bitLen _ _ hstart
  have hk : Fips180.zeroCount chunks.flatten.length ≤ 63 := by
    rw [Fips180.zeroCount]
    omega
  have hloop (fuel : Nat) (hfuel : Fips180.zeroCount chunks.flatten.length < fuel) :=
    padZeros_of_stops hfuel hstop
  obtain ⟨buffer, hcopy, -, -⟩ := memcpy_some full.buffer (lenBytes h.bitLen) full.bufferLen
    hstop.room.le
  refine ⟨h, hall, hfed.size, by omega, hlen, fun data => ?_, padded, _, full, buffer, hpad, hk,
    hstop, hloop, hcopy, ?_⟩
  · obtain ⟨h', hupdate, -⟩ := update_spec hfed data
    exact ⟨h', hupdate⟩
  · rw [finalizeHex]
    simp only [hpad, hloop 64 (by omega), hcopy, Option.bind_eq_bind, Option.bind_some]
    rfl

end Sha256

end EdgeMind
