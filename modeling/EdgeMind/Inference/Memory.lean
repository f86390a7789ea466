import EdgeMind.Framework.Decimal

/-!
# Memory admission

Estimates of the memory a loaded model needs, and the budget policy that admits or rejects them.
An estimate that cannot be established is absent, never a number.
-/

namespace EdgeMind

open Framework

structure ModelHyperparams where
  nLayer : Int32 := 0
  nEmbd : Int32 := 0
  nHead : Int32 := 0
  nHeadKv : Int32 := 0
  nCtxTrain : Int32 := 0
deriving DecidableEq

structure MemoryEstimate where
  valid : Bool := true
  weightsBytes : UInt64 := 0
  weightsBytesIsObserved : Bool := false
  kvCacheBytes : UInt64 := 0
  computeBufferBytes : UInt64 := 0
  runtimeOverheadBytes : UInt64 := 0
deriving DecidableEq

/-- The sum of the four parts, saturating as soon as a partial sum wraps. -/
def MemoryEstimate.totalBytes (e : MemoryEstimate) : UInt64 :=
  let rec add : UInt64 → List UInt64 → UInt64
    | sum, [] => sum
    | sum, p :: ps =>
        let next := sum + p
        if next < sum then UInt64.ofNat (2 ^ 64 - 1) else add next ps
  add 0 [e.weightsBytes, e.kvCacheBytes, e.computeBufferBytes, e.runtimeOverheadBytes]

structure MemoryDecision where
  safe : Bool := false
  estimate : MemoryEstimate := {}
  budgetBytes : UInt64 := 0
  safetyReserveBytes : UInt64 := 0
  diagnostic : Bytes := []
deriving DecidableEq

namespace MemoryEstimator

def computeBufferMultiplier : Int32 := 4

def maxSaneLayers : Int32 := 2048

def maxSaneEmbd : Int32 := 1048576

def maxSaneHeads : Int32 := 4096

def maxSaneCtx : Int32 := 16777216

def maxSaneBytesPerElement : Int32 := 8

/-- Multiply unless the product leaves 64 bits. -/
def checkedMul (a b : UInt64) : Option UInt64 :=
  if a = 0 ∨ b = 0 then some 0
  else if a > UInt64.ofNat (2 ^ 64 - 1) / b then none
  else some (a * b)

def hyperparamsInSaneRange (hp : ModelHyperparams) : Bool :=
  if hp.nLayer ≤ 0 ∨ hp.nLayer > maxSaneLayers then false
  else if hp.nEmbd ≤ 0 ∨ hp.nEmbd > maxSaneEmbd then false
  else if hp.nHead ≤ 0 ∨ hp.nHead > maxSaneHeads then false
  else if hp.nHeadKv ≤ 0 ∨ hp.nHeadKv > maxSaneHeads then false
  else if hp.nHeadKv > hp.nHead then false
  else true

/-- `static_cast<uint64_t>` of a 32-bit integer. -/
def toU64 (x : Int32) : UInt64 := x.toInt64.toUInt64

def estimateKvCacheBytes (hp : ModelHyperparams) (nCtx : Int32) (bytesPerElement : Int32) :
    Option UInt64 := do
  guard (hyperparamsInSaneRange hp)
  guard (¬(nCtx ≤ 0 ∨ nCtx > maxSaneCtx))
  guard (¬(bytesPerElement ≤ 0 ∨ bytesPerElement > maxSaneBytesPerElement))
  let embdXHeadkv ← checkedMul (toU64 hp.nEmbd) (toU64 hp.nHeadKv)
  let nEmbdGqa := embdXHeadkv / toU64 hp.nHead
  [toU64 hp.nLayer, toU64 nCtx, nEmbdGqa, toU64 bytesPerElement].foldlM checkedMul 2

def estimateComputeBufferBytes (hp : ModelHyperparams) (nBatch : Int32) : Option UInt64 := do
  guard (hyperparamsInSaneRange hp)
  guard (¬(nBatch ≤ 0 ∨ nBatch > maxSaneCtx))
  [toU64 nBatch, toU64 hp.nEmbd, 4, toU64 computeBufferMultiplier].foldlM checkedMul 1

end MemoryEstimator

/-- Division rounded to the nearest integer, ties to even. -/
def divNearestEven (a b : Nat) : Nat :=
  let q := a / b
  let r := a % b
  if 2 * r < b then q else if b < 2 * r then q + 1 else q + q % 2

/-- The integer value of `static_cast<double>` on 64 bits: 53 significant bits. -/
def toDouble (n : Nat) : Nat :=
  let shift := n.log2 + 1 - 53
  divNearestEven n (2 ^ shift) * 2 ^ shift

/-- `to_mb`, printed with one digit after the point; the division by `2^20` is exact. -/
def mbText (bytes : UInt64) : Bytes :=
  let tenths := divNearestEven (10 * toDouble bytes.toNat) (2 ^ 20)
  decimal (tenths / 10) ++ text "." ++ decimal (tenths % 10)

namespace MemoryBudgetPolicy

def mbLine (label : Bytes) (bytes : UInt64) : Bytes := label ++ mbText bytes ++ text " MB\n"

def formatDiagnostic (d : MemoryDecision) : Bytes :=
  if ¬d.estimate.valid then
    text "STATUS: UNSAFE\n\n" ++
    text "Memory estimate could not be established safely because required\n" ++
    text "model hyperparameters were invalid or unavailable.\n\n" ++
    text "Recommended action:\n" ++
    text "Verify that the loaded GGUF model is compatible with the supported\n" ++
    text "llama.cpp API.\n"
  else
    mbLine (text "Model weights" ++
      if d.estimate.weightsBytesIsObserved then text " (observed): " else text " (estimate): ")
      d.estimate.weightsBytes ++
    mbLine (text "KV cache estimate:             ") d.estimate.kvCacheBytes ++
    mbLine (text "Compute buffer estimate:       ") d.estimate.computeBufferBytes ++
    mbLine (text "Runtime overhead estimate:     ") d.estimate.runtimeOverheadBytes ++
    text "\n" ++
    mbLine (text "Estimated total:               ") d.estimate.totalBytes ++
    mbLine (text "Safety reserve:                ") d.safetyReserveBytes ++
    mbLine (text "Memory budget:                 ") d.budgetBytes ++
    text "\n" ++
    if d.safe then text "STATUS: SAFE\n"
    else
      text "STATUS: UNSAFE\n" ++
      text "The selected model/context configuration exceeds the configured\n" ++
      text "memory budget (after the safety reserve).\n\n" ++
      text "Recommended action:\n" ++
      text "Reduce --context, or increase --memory-budget if this device genuinely\n" ++
      text "has more RAM available than the current budget assumes.\n"

def evaluate (estimate : MemoryEstimate) (budgetBytes safetyReserveBytes : UInt64) :
    MemoryDecision :=
  let usableCeiling :=
    if safetyReserveBytes < budgetBytes then budgetBytes - safetyReserveBytes else 0
  let decision : MemoryDecision := {
    safe := if ¬estimate.valid then false
      else usableCeiling > 0 && estimate.totalBytes ≤ usableCeiling
    estimate, budgetBytes, safetyReserveBytes }
  { decision with diagnostic := formatDiagnostic decision }

end MemoryBudgetPolicy

end EdgeMind
