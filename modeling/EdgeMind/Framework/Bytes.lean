import Mathlib.Data.Nat.Bitwise
import Mathlib.Data.List.Basic
import Mathlib.Data.List.Nodup
import Mathlib.Tactic.Ring

/-!
# Byte strings

Strings of the modelled programs are byte strings. This module supplies text literals, the
value of little-endian words and hexadecimal digits, with the facts that make them readable
back from the bytes.
-/

namespace EdgeMind.Framework

abbrev Bytes := List UInt8

def text (s : String) : Bytes := s.toByteArray.data.toList

/-- Number represented by a little-endian byte string. -/
def leNat : Bytes → Nat
  | [] => 0
  | b :: bs => b.toNat + 256 * leNat bs

@[simp]
theorem leNat_nil : leNat [] = 0 := rfl

@[simp]
theorem leNat_cons (b : UInt8) (bs : Bytes) : leNat (b :: bs) = b.toNat + 256 * leNat bs := rfl

theorem leNat_lt (bs : Bytes) : leNat bs < 256 ^ bs.length := by
  induction bs with
  | nil => simp
  | cons b bs ih =>
      have hb := b.toNat_lt
      simp only [leNat_cons, List.length_cons, Nat.pow_succ]
      omega

/-- The little-endian string of `k` bytes for a number. -/
def leBytes : Nat → Nat → Bytes
  | 0, _ => []
  | k + 1, n => UInt8.ofNat n :: leBytes k (n / 256)

@[simp]
theorem leBytes_length (k n : Nat) : (leBytes k n).length = k := by
  induction k generalizing n with
  | zero => rfl
  | succ k ih => rw [leBytes, List.length_cons, ih]

theorem eq_leBytes_iff {k n : Nat} (hn : n < 256 ^ k) (bs : Bytes) :
    bs = leBytes k n ↔ bs.length = k ∧ leNat bs = n := by
  induction k generalizing n bs with
  | zero =>
      have h0 : n = 0 := by simpa using hn
      subst n
      rw [leBytes, List.length_eq_zero_iff]
      exact ⟨fun h => ⟨h, h ▸ rfl⟩, fun h => h.1⟩
  | succ k ih =>
      have hdiv : n / 256 < 256 ^ k := by
        rw [Nat.pow_succ] at hn; omega
      cases bs with
      | nil => simp [leBytes]
      | cons b bs =>
          have hb := b.toNat_lt
          have hhead : b = UInt8.ofNat n ↔ b.toNat = n % 256 := by
            rw [← UInt8.toNat_inj, UInt8.toNat_ofNat']
          rw [leBytes, List.cons.injEq, hhead, ih hdiv, List.length_cons, leNat_cons]
          omega

theorem shiftLeft_or_value (x y k : Nat) (hx : x < 2 ^ k) :
    x ||| (y <<< k) = x + y * 2 ^ k := by
  rw [Nat.or_comm, ← Nat.shiftLeft_add_eq_or_of_lt hx, Nat.shiftLeft_eq]
  omega

/-- The usual shift-and-or assembly of a 16-bit word. -/
def u16OfLe (b0 b1 : UInt8) : UInt16 := b0.toUInt16 ||| (b1.toUInt16 <<< 8)

theorem u16OfLe_toNat (b0 b1 : UInt8) : (u16OfLe b0 b1).toNat = leNat [b0, b1] := by
  have h0 := b0.toNat_lt
  have h1 := b1.toNat_lt
  have hs : (b1.toNat <<< 8) % 65536 = b1.toNat <<< 8 := by
    rw [Nat.shiftLeft_eq]; omega
  simp only [u16OfLe, UInt16.toNat_or, UInt16.toNat_shiftLeft, UInt8.toNat_toUInt16]
  change b0.toNat ||| (b1.toNat <<< 8) % 65536 = _
  rw [hs, shiftLeft_or_value _ _ 8 (by omega)]
  simp only [leNat_cons, leNat_nil]
  omega

/-- The usual shift-and-or assembly of a 32-bit word. -/
def u32OfLe (b0 b1 b2 b3 : UInt8) : UInt32 :=
  b0.toUInt32 ||| (b1.toUInt32 <<< 8) ||| (b2.toUInt32 <<< 16) ||| (b3.toUInt32 <<< 24)

theorem u32OfLe_toNat (b0 b1 b2 b3 : UInt8) :
    (u32OfLe b0 b1 b2 b3).toNat = leNat [b0, b1, b2, b3] := by
  have h0 := b0.toNat_lt
  have h1 := b1.toNat_lt
  have h2 := b2.toNat_lt
  have h3 := b3.toNat_lt
  have hs (b : UInt8) (k : Nat) (hk : k ≤ 24) : (b.toNat <<< k) % 4294967296 = b.toNat <<< k := by
    have hb : b.toNat ≤ 255 := by have := b.toNat_lt; omega
    have hp : 2 ^ k ≤ 2 ^ 24 := Nat.pow_le_pow_right (by decide) hk
    rw [Nat.shiftLeft_eq]
    apply Nat.mod_eq_of_lt
    exact lt_of_le_of_lt (Nat.mul_le_mul hb hp) (by decide)
  simp only [u32OfLe, UInt32.toNat_or, UInt32.toNat_shiftLeft, UInt8.toNat_toUInt32]
  change b0.toNat ||| (b1.toNat <<< 8) % 4294967296 ||| (b2.toNat <<< 16) % 4294967296 |||
    (b3.toNat <<< 24) % 4294967296 = _
  rw [hs b1 8 (by omega), hs b2 16 (by omega), hs b3 24 (by omega),
    shiftLeft_or_value _ _ 8 (by omega), shiftLeft_or_value _ _ 16 (by omega),
    shiftLeft_or_value _ _ 24 (by omega)]
  simp only [leNat_cons, leNat_nil]
  omega

/-- Fold a little-endian byte string into a 64-bit word from its most significant byte down. -/
def u64OfLe : Bytes → UInt64
  | [] => 0
  | b :: bs => (u64OfLe bs <<< 8) ||| b.toUInt64

theorem u64OfLe_toNat (bs : Bytes) (h : bs.length ≤ 8) : (u64OfLe bs).toNat = leNat bs := by
  induction bs with
  | nil => rfl
  | cons b bs ih =>
      have hb := b.toNat_lt
      have hlen : bs.length ≤ 7 := Nat.le_of_succ_le_succ h
      have hlt := leNat_lt bs
      have hp : 256 ^ bs.length ≤ 256 ^ 7 := Nat.pow_le_pow_right (by decide) hlen
      have hs : (leNat bs <<< 8) % 2 ^ 64 = leNat bs <<< 8 := by
        rw [Nat.shiftLeft_eq]; omega
      simp only [u64OfLe, UInt64.toNat_or, UInt64.toNat_shiftLeft, UInt8.toNat_toUInt64,
        ih (by omega)]
      change (leNat bs <<< 8) % 2 ^ 64 ||| b.toNat = _
      rw [hs, Nat.or_comm, shiftLeft_or_value _ _ 8 (by omega)]
      simp only [leNat_cons]
      omega

/-- A byte is in the range of the ASCII decimal digits. -/
def isDigit (b : UInt8) : Bool := 48 ≤ b && b ≤ 57

def digitByte (d : Nat) : UInt8 := UInt8.ofNat (48 + d)

theorem digitByte_toNat {d : Nat} (h : d < 10) : (digitByte d).toNat = 48 + d := by
  simp only [digitByte, UInt8.toNat_ofNat']
  omega

theorem isDigit_iff (b : UInt8) : isDigit b = true ↔ 48 ≤ b.toNat ∧ b.toNat ≤ 57 := by
  simp [isDigit, UInt8.le_iff_toNat_le]

theorem isDigit_digitByte {d : Nat} (h : d < 10) : isDigit (digitByte d) = true := by
  rw [isDigit_iff, digitByte_toNat h]
  omega

/-- ASCII upper-case letters lowered, every other byte unchanged. -/
def lowerByte (b : UInt8) : UInt8 := if 65 ≤ b && b ≤ 90 then b + 32 else b

/-- The nibbles of a byte as two hexadecimal digits taken from `digits`. -/
def hexByte (digits : Bytes) (b : UInt8) : Bytes :=
  [digits.getD (b.toNat / 16) 0, digits.getD (b.toNat % 16) 0]

theorem mem_of_mem_hexByte {digits : Bytes} (hlength : digits.length = 16) {b c : UInt8}
    (h : c ∈ hexByte digits b) : c ∈ digits := by
  have hb := b.toNat_lt
  have hget (n : Nat) (hn : n < 16) : digits.getD n 0 ∈ digits := by
    rw [List.getD_eq_getElem _ _ (by omega)]
    exact List.getElem_mem _
  rcases List.mem_cons.mp h with rfl | h
  · exact hget _ (by omega)
  · rw [List.mem_singleton.mp h]
    exact hget _ (by omega)

theorem hexByte_inj {digits : Bytes} (hlength : digits.length = 16) (hnodup : digits.Nodup)
    {a b : UInt8} (h : hexByte digits a = hexByte digits b) : a = b := by
  have ha := a.toNat_lt
  have hb := b.toNat_lt
  have hget {m n : Nat} (hm : m < 16) (hn : n < 16) (h : digits.getD m 0 = digits.getD n 0) :
      m = n := by
    rw [List.getD_eq_getElem _ _ (by omega), List.getD_eq_getElem _ _ (by omega)] at h
    exact (hnodup.getElem_inj_iff).mp h
  obtain ⟨hhigh, hlow⟩ := List.cons.inj h
  have hhigh := hget (by omega) (by omega) hhigh
  have hlow := hget (by omega) (by omega) (List.cons.inj hlow).1
  apply UInt8.toNat_inj.mp
  omega

theorem hexBytes_inj {digits : Bytes} (hlength : digits.length = 16) (hnodup : digits.Nodup)
    {as bs : Bytes} (h : as.flatMap (hexByte digits) = bs.flatMap (hexByte digits)) : as = bs := by
  induction as generalizing bs with
  | nil =>
      cases bs with
      | nil => rfl
      | cons b bs => cases h
  | cons a as ih =>
      cases bs with
      | nil => cases h
      | cons b bs =>
          rw [List.flatMap_cons, List.flatMap_cons] at h
          obtain ⟨hbyte, hrest⟩ := List.append_inj h rfl
          rw [hexByte_inj hlength hnodup hbyte, ih hrest]

end EdgeMind.Framework
