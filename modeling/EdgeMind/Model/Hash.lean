import EdgeMind.Framework.FileStore
import EdgeMind.Framework.Sha256
import EdgeMind.Model.Types

/-!
# Streaming SHA-256

The hasher with its 64-byte buffer. `none` stands for undefined behaviour: a copy or a read
outside an array, or a loop that does not end within the given number of iterations.
-/

namespace EdgeMind

open Framework

abbrev Word32 := BitVec 32

def kK : List Word32 := [
  0x428a2f98, 0x71374491, 0xb5c0fbcf, 0xe9b5dba5, 0x3956c25b, 0x59f111f1, 0x923f82a4, 0xab1c5ed5,
  0xd807aa98, 0x12835b01, 0x243185be, 0x550c7dc3, 0x72be5d74, 0x80deb1fe, 0x9bdc06a7, 0xc19bf174,
  0xe49b69c1, 0xefbe4786, 0x0fc19dc6, 0x240ca1cc, 0x2de92c6f, 0x4a7484aa, 0x5cb0a9dc, 0x76f988da,
  0x983e5152, 0xa831c66d, 0xb00327c8, 0xbf597fc7, 0xc6e00bf3, 0xd5a79147, 0x06ca6351, 0x14292967,
  0x27b70a85, 0x2e1b2138, 0x4d2c6dfc, 0x53380d13, 0x650a7354, 0x766a0abb, 0x81c2c92e, 0x92722c85,
  0xa2bfe8a1, 0xa81a664b, 0xc24b8b70, 0xc76c51a3, 0xd192e819, 0xd6990624, 0xf40e3585, 0x106aa070,
  0x19a4c116, 0x1e376c08, 0x2748774c, 0x34b0bcb5, 0x391c0cb3, 0x4ed8aa4a, 0x5b9cca4f, 0x682e6ff3,
  0x748f82ee, 0x78a5636f, 0x84c87814, 0x8cc70208, 0x90befffa, 0xa4506ceb, 0xbef9a3f7, 0xc67178f2]

def rotr (x : Word32) (n : Nat) : Word32 := (x >>> n) ||| (x <<< (32 - n))

/-- `w[i]` for `i < 16`, assembled from four bytes of the block. -/
def blockWord (block : Bytes) (i : Nat) : Word32 :=
  (BitVec.ofNat 32 (block.getD (i * 4) 0).toNat <<< 24) |||
    (BitVec.ofNat 32 (block.getD (i * 4 + 1) 0).toNat <<< 16) |||
    (BitVec.ofNat 32 (block.getD (i * 4 + 2) 0).toNat <<< 8) |||
    BitVec.ofNat 32 (block.getD (i * 4 + 3) 0).toNat

/-- One iteration of the loop that extends `w` to 64 words. -/
def extendW (w : List Word32) (i : Nat) : List Word32 :=
  let w15 := w.getD (i - 15) 0
  let w2 := w.getD (i - 2) 0
  let s0 := rotr w15 7 ^^^ rotr w15 18 ^^^ (w15 >>> 3)
  let s1 := rotr w2 17 ^^^ rotr w2 19 ^^^ (w2 >>> 10)
  w ++ [w.getD (i - 16) 0 + s0 + w.getD (i - 7) 0 + s1]

def messageWords (block : Bytes) : List Word32 :=
  (List.range' 16 48).foldl extendW ((List.range 16).map (blockWord block))

/-- One iteration of the round loop on the variables `a` to `h`. -/
def roundStep (w : List Word32) (v : Fips180.HashValue) (i : Nat) : Fips180.HashValue :=
  let S1 := rotr v.e 6 ^^^ rotr v.e 11 ^^^ rotr v.e 25
  let ch := (v.e &&& v.f) ^^^ (~~~v.e &&& v.g)
  let temp1 := v.h + S1 + ch + kK.getD i 0 + w.getD i 0
  let S0 := rotr v.a 2 ^^^ rotr v.a 13 ^^^ rotr v.a 22
  let maj := (v.a &&& v.b) ^^^ (v.a &&& v.c) ^^^ (v.b &&& v.c)
  let temp2 := S0 + maj
  { h := v.g, g := v.f, f := v.e, e := v.d + temp1,
    d := v.c, c := v.b, b := v.a, a := temp1 + temp2 }

def processBlock (state : Fips180.HashValue) (block : Bytes) : Fips180.HashValue :=
  let v := (List.range 64).foldl (roundStep (messageWords block)) state
  ⟨state.a + v.a, state.b + v.b, state.c + v.c, state.d + v.d,
    state.e + v.e, state.f + v.f, state.g + v.g, state.h + v.h⟩

/-- `memcpy (dst + i) src`, defined when the copy stays inside `dst`. -/
def memcpy (dst : Bytes) (i : Nat) (src : Bytes) : Option Bytes :=
  if i + src.length ≤ dst.length then some (dst.take i ++ src ++ dst.drop (i + src.length))
  else none

/-- The `n` bytes at `data + i`, defined when they lie inside `data`. -/
def readAt (data : Bytes) (i n : Nat) : Option Bytes :=
  if i + n ≤ data.length then some ((data.drop i).take n) else none

structure Sha256 where
  state : Fips180.HashValue
  bitLen : UInt64
  buffer : Bytes
  bufferLen : Nat
deriving DecidableEq

namespace Sha256

def new : Sha256 where
  state := ⟨0x6a09e667, 0xbb67ae85, 0x3c6ef372, 0xa54ff53a,
    0x510e527f, 0x9b05688c, 0x1f83d9ab, 0x5be0cd19⟩
  bitLen := 0
  buffer := List.replicate 64 0
  bufferLen := 0

/-- The loop over the whole blocks of `data` from `offset` on. -/
def wholeBlocks : Nat → Bytes → Nat → Fips180.HashValue → Option (Fips180.HashValue × Nat)
  | 0, _, _, _ => none
  | fuel + 1, data, offset, state =>
      if offset + 64 ≤ data.length then do
        let block ← readAt data offset 64
        wholeBlocks fuel data (offset + 64) (processBlock state block)
      else some (state, offset)

/-- Top up a partly filled buffer; returns the hasher and the number of bytes taken. -/
def topUp (h : Sha256) (data : Bytes) : Option (Sha256 × Nat) :=
  if 0 < h.bufferLen then do
    let need := 64 - h.bufferLen
    let take := if data.length < need then data.length else need
    let buffer ← memcpy h.buffer h.bufferLen (← readAt data 0 take)
    let bufferLen := h.bufferLen + take
    if bufferLen = 64 then
      return ({ h with state := processBlock h.state buffer, buffer, bufferLen := 0 }, take)
    else return ({ h with buffer, bufferLen }, take)
  else some (h, 0)

def update (h : Sha256) (data : Bytes) : Option Sha256 := do
  let (h, offset) ← topUp { h with bitLen := h.bitLen + UInt64.ofNat data.length * 8 } data
  let (state, offset) ← wholeBlocks (data.length / 64 + 1) data offset h.state
  if offset < data.length then
    let remaining := data.length - offset
    let buffer ← memcpy h.buffer 0 (← readAt data offset remaining)
    return { h with state, buffer, bufferLen := remaining }
  else return { h with state }

/-- `while (buffer_len_ != 56)`: one zero byte at a time, the bit length restored each time. -/
def padZeros : Nat → UInt64 → Sha256 → Option Sha256
  | 0, _, _ => none
  | fuel + 1, originalBitLen, h =>
      if h.bufferLen ≠ 56 then do
        let h ← h.update [0x00]
        padZeros fuel originalBitLen { h with bitLen := originalBitLen }
      else some h

def lenBytes (bitLen : UInt64) : Bytes :=
  (List.range 8).map fun i => (bitLen >>> UInt64.ofNat (56 - 8 * i)).toUInt8

def kHex : Bytes := text "0123456789abcdef"

/-- The two digits of byte `j` of a state word. -/
def hexOfWord (w : Word32) (j : Nat) : Bytes :=
  let byte := UInt8.ofNat (w >>> (24 - 8 * j)).toNat
  [kHex.getD (byte >>> 4).toNat 0, kHex.getD (byte &&& 0x0F).toNat 0]

def finalizeHex (h : Sha256) : Option Bytes := do
  let originalBitLen := h.bitLen
  let h ← h.update [0x80]
  let h ← padZeros 64 originalBitLen { h with bitLen := originalBitLen }
  let buffer ← memcpy h.buffer h.bufferLen (lenBytes originalBitLen)
  let state := processBlock h.state buffer
  return state.words.flatMap fun w => (List.range 4).flatMap (hexOfWord w)

end Sha256

/-- Size of the read buffer of `compute_model_identity`. -/
def chunkBytes : Nat := 1024 * 1024

/-- The read loop: full chunks are hashed until a short read sets the end-of-file flag. -/
def hashChunks : Nat → Bytes → Sha256 → Option Sha256
  | 0, _, _ => none
  | fuel + 1, unread, hasher => do
      let got := unread.take chunkBytes
      let hasher ← (if 0 < got.length then hasher.update got else some hasher)
      if got.length < chunkBytes then return hasher
      else hashChunks fuel (unread.drop chunkBytes) hasher

/-- `none` is undefined behaviour, as in the hasher. -/
def computeModelIdentity (fs : FileSystem) (path : Path) : Option ModelIdentity :=
  match (fs path).open with
  | none => some {}
  | some content => do
      let hasher ← hashChunks (content.length / chunkBytes + 1) content Sha256.new
      let hex ← hasher.finalizeHex
      return { computed := true, sha256Hex := hex }

end EdgeMind
