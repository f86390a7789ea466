import EdgeMind.Framework.Bytes

/-!
# SHA-256 as specified

The hash of FIPS 180-4 on byte strings: padding to whole blocks, the message schedule as a
recurrence, sixty-four rounds, and the chaining of blocks. Sections 4.1.2, 4.2.2, 5.1.1, 5.3.3
and 6.2.2 of the standard are followed name by name.
-/

namespace EdgeMind.Framework.Fips180

abbrev Word := BitVec 32

def Ch (x y z : Word) : Word := (x &&& y) ^^^ (~~~x &&& z)

def Maj (x y z : Word) : Word := (x &&& y) ^^^ (x &&& z) ^^^ (y &&& z)

def bigSigma0 (x : Word) : Word := x.rotateRight 2 ^^^ x.rotateRight 13 ^^^ x.rotateRight 22

def bigSigma1 (x : Word) : Word := x.rotateRight 6 ^^^ x.rotateRight 11 ^^^ x.rotateRight 25

def smallSigma0 (x : Word) : Word := x.rotateRight 7 ^^^ x.rotateRight 18 ^^^ (x >>> 3)

def smallSigma1 (x : Word) : Word := x.rotateRight 17 ^^^ x.rotateRight 19 ^^^ (x >>> 10)

def constants : List Word := [
  0x428a2f98, 0x71374491, 0xb5c0fbcf, 0xe9b5dba5, 0x3956c25b, 0x59f111f1, 0x923f82a4, 0xab1c5ed5,
  0xd807aa98, 0x12835b01, 0x243185be, 0x550c7dc3, 0x72be5d74, 0x80deb1fe, 0x9bdc06a7, 0xc19bf174,
  0xe49b69c1, 0xefbe4786, 0x0fc19dc6, 0x240ca1cc, 0x2de92c6f, 0x4a7484aa, 0x5cb0a9dc, 0x76f988da,
  0x983e5152, 0xa831c66d, 0xb00327c8, 0xbf597fc7, 0xc6e00bf3, 0xd5a79147, 0x06ca6351, 0x14292967,
  0x27b70a85, 0x2e1b2138, 0x4d2c6dfc, 0x53380d13, 0x650a7354, 0x766a0abb, 0x81c2c92e, 0x92722c85,
  0xa2bfe8a1, 0xa81a664b, 0xc24b8b70, 0xc76c51a3, 0xd192e819, 0xd6990624, 0xf40e3585, 0x106aa070,
  0x19a4c116, 0x1e376c08, 0x2748774c, 0x34b0bcb5, 0x391c0cb3, 0x4ed8aa4a, 0x5b9cca4f, 0x682e6ff3,
  0x748f82ee, 0x78a5636f, 0x84c87814, 0x8cc70208, 0x90befffa, 0xa4506ceb, 0xbef9a3f7, 0xc67178f2]

/-- Round constant `K_t`. -/
def K (t : Nat) : Word := constants.getD t 0

/-- The eight chaining (or working) variables. -/
structure HashValue where
  a : Word
  b : Word
  c : Word
  d : Word
  e : Word
  f : Word
  g : Word
  h : Word
deriving DecidableEq

namespace HashValue

def add (x y : HashValue) : HashValue :=
  ⟨x.a + y.a, x.b + y.b, x.c + y.c, x.d + y.d, x.e + y.e, x.f + y.f, x.g + y.g, x.h + y.h⟩

def words (x : HashValue) : List Word := [x.a, x.b, x.c, x.d, x.e, x.f, x.g, x.h]

end HashValue

def initial : HashValue :=
  ⟨0x6a09e667, 0xbb67ae85, 0x3c6ef372, 0xa54ff53a, 0x510e527f, 0x9b05688c, 0x1f83d9ab, 0x5be0cd19⟩

/-- The big-endian word at byte offset `i`. -/
def wordAt (bs : Bytes) (i : Nat) : Word :=
  BitVec.ofNat 32 ((bs.getD i 0).toNat * 2 ^ 24 + (bs.getD (i + 1) 0).toNat * 2 ^ 16 +
    (bs.getD (i + 2) 0).toNat * 2 ^ 8 + (bs.getD (i + 3) 0).toNat)

/-- Message schedule `W_t` of a block. -/
def schedule (block : Bytes) (t : Nat) : Word :=
  if t < 16 then wordAt block (4 * t)
  else smallSigma1 (schedule block (t - 2)) + schedule block (t - 7) +
    smallSigma0 (schedule block (t - 15)) + schedule block (t - 16)
termination_by t
decreasing_by all_goals omega

theorem schedule_lt (block : Bytes) {t : Nat} (h : t < 16) :
    schedule block t = wordAt block (4 * t) := by
  rw [schedule, if_pos h]

theorem schedule_ge (block : Bytes) {t : Nat} (h : 16 ≤ t) :
    schedule block t = smallSigma1 (schedule block (t - 2)) + schedule block (t - 7) +
      smallSigma0 (schedule block (t - 15)) + schedule block (t - 16) := by
  rw [schedule, if_neg (by omega)]

/-- Step 3 of the hash computation for one `t`. -/
def round (W : Nat → Word) (v : HashValue) (t : Nat) : HashValue :=
  let T1 := v.h + bigSigma1 v.e + Ch v.e v.f v.g + K t + W t
  let T2 := bigSigma0 v.a + Maj v.a v.b v.c
  ⟨T1 + T2, v.a, v.b, v.c, v.d + T1, v.e, v.f, v.g⟩

/-- Chain one 64-byte block into the intermediate hash value. -/
def compress (H : HashValue) (block : Bytes) : HashValue :=
  H.add ((List.range 64).foldl (round (schedule block)) H)

def blocks (bs : Bytes) : List Bytes :=
  (List.range (bs.length / 64)).map fun i => (bs.drop (64 * i)).take 64

def hashBlocks (H : HashValue) (bs : Bytes) : HashValue := (blocks bs).foldl compress H

/-- Zero bytes between the `0x80` marker and the length field. -/
def zeroCount (len : Nat) : Nat := (119 - len % 64) % 64

def lengthBytes (n : Nat) : Bytes :=
  (List.range 8).map fun i => UInt8.ofNat (n / 2 ^ (56 - 8 * i))

def pad (m : Bytes) : Bytes :=
  m ++ 0x80 :: List.replicate (zeroCount m.length) 0 ++ lengthBytes (8 * m.length)

def sha256 (m : Bytes) : HashValue := hashBlocks initial (pad m)

def wordBytes (w : Word) : Bytes :=
  (List.range 4).map fun j => UInt8.ofNat (w.toNat / 2 ^ (24 - 8 * j))

/-- The digest as 64 lower-case hexadecimal digits. -/
def sha256Hex (m : Bytes) : Bytes :=
  ((sha256 m).words.flatMap wordBytes).flatMap (hexByte (text "0123456789abcdef"))

theorem sha256Hex_length (m : Bytes) : (sha256Hex m).length = 64 := rfl

theorem mem_of_mem_sha256Hex {m : Bytes} {c : UInt8} (h : c ∈ sha256Hex m) :
    c ∈ text "0123456789abcdef" := by
  obtain ⟨b, -, hb⟩ := List.mem_flatMap.mp h
  exact mem_of_mem_hexByte rfl hb

theorem zero_notMem_sha256Hex (m : Bytes) : (0 : UInt8) ∉ sha256Hex m :=
  fun h => absurd (mem_of_mem_sha256Hex h) (by decide)

theorem zeroCount_least (len : Nat) :
    (len + 1 + zeroCount len) % 64 = 56 ∧
      ∀ k, (len + 1 + k) % 64 = 56 → zeroCount len ≤ k := by
  unfold zeroCount
  constructor
  · omega
  · intro k hk; omega

@[simp]
theorem lengthBytes_length (n : Nat) : (lengthBytes n).length = 8 := rfl

theorem blocks_of_lt {bs : Bytes} (h : bs.length < 64) : blocks bs = [] := by
  simp [blocks, Nat.div_eq_of_lt h]

theorem blocks_cons {b rest : Bytes} (h : b.length = 64) :
    blocks (b ++ rest) = b :: blocks rest := by
  have hdiv : (b ++ rest).length / 64 = rest.length / 64 + 1 := by
    rw [List.length_append, h]; omega
  unfold blocks
  rw [hdiv, List.range_succ_eq_map, List.map_cons, List.map_map]
  congr 1
  · rw [Nat.mul_zero, List.drop_zero, List.take_left' h]
  · apply List.map_congr_left
    intro i _
    simp only [Function.comp_apply]
    have hd : (b ++ rest).drop (64 * (i + 1)) = rest.drop (64 * i) := by
      rw [show 64 * (i + 1) = b.length + 64 * i by omega, ← List.drop_drop, List.drop_left]
    rw [hd]

theorem hashBlocks_of_lt (H : HashValue) {bs : Bytes} (h : bs.length < 64) :
    hashBlocks H bs = H := by
  simp [hashBlocks, blocks_of_lt h]

theorem hashBlocks_cons (H : HashValue) {b rest : Bytes} (h : b.length = 64) :
    hashBlocks H (b ++ rest) = hashBlocks (compress H b) rest := by
  simp [hashBlocks, blocks_cons h]

theorem hashBlocks_append (k : Nat) (H : HashValue) (xs ys : Bytes) (h : xs.length = 64 * k) :
    hashBlocks H (xs ++ ys) = hashBlocks (hashBlocks H xs) ys := by
  induction k generalizing H xs with
  | zero =>
      have hx : xs = [] := List.length_eq_zero_iff.mp h
      subst xs
      rw [List.nil_append, hashBlocks_of_lt H (by simp : ([] : Bytes).length < 64)]
  | succ k ih =>
      have hb : (xs.take 64).length = 64 := by rw [List.length_take]; omega
      have ht : (xs.drop 64).length = 64 * k := by rw [List.length_drop]; omega
      conv_lhs => rw [← List.take_append_drop 64 xs, List.append_assoc, hashBlocks_cons H hb]
      rw [ih _ _ ht, ← hashBlocks_cons H hb, List.take_append_drop]

end EdgeMind.Framework.Fips180
