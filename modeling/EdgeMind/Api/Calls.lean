import EdgeMind.Api.EdgeMindApi
import EdgeMind.Core.EngineCalls

/-!
# The calls of the C interface

What a client does with a runtime that it was handed: generations with a token callback, resets, and
reports that are copied into a buffer of the client. Every call takes a null pointer too.
-/

namespace EdgeMind

open Framework

namespace Runtime

/-- The pieces that a generation passes to its callback. -/
def pieces (r : Runtime) (w : World) (prompt : Bytes) (input : GenerateInput) : List Bytes :=
  if r.Admits w input then (r.engine.generate prompt input.llama).pieces else []

end Runtime

namespace Api

/-- The callback decides whether the generation goes on; without one it does. -/
def withCallback (input : GenerateInput) (onToken : Option (Nat → Bool)) : GenerateInput :=
  { input with llama := { input.llama with
      step := fun i => { input.llama.step i with
        keepGoing := match onToken with
          | none => true
          | some answer => answer i } } }

/-- A C string; the null pointer is read as the empty one. -/
def promptText (prompt : Option Bytes) : Bytes := stringOr prompt []

structure GenerateOutcome where
  runtime : Option Runtime
  world : World
  status : Status
  pieces : List Bytes

/-- `syj_edgemind_generate`: `onToken` is what the callback returns for each piece. -/
def generate (runtime : Option Runtime) (w : World) (prompt : Option Bytes) (input : GenerateInput)
    (onToken : Option (Nat → Bool)) : GenerateOutcome :=
  match runtime with
  | none => { runtime := none, world := w, status := .errorNotLoaded, pieces := [] }
  | some r =>
      let input := withCallback input onToken
      let result := r.generate w (promptText prompt) input
      { runtime := some result.runtime
        world := result.world
        status := toCStatus result.runtime.lastError
        pieces := (r.pieces w (promptText prompt) input).map cString }

/-- `syj_edgemind_get_model_info`: what is filled in where it returns 0. -/
def getModelInfo (runtime : Option Runtime) (llama : LlamaInfo) : Option InferenceEngine.ModelInfo :=
  match runtime with
  | none => none
  | some r =>
      if ¬r.isReady then none
      else
        let info := r.modelInfo llama
        some { info with description := (cString info.description).take 255 }

/-- A report that is copied out: its size, and what is written to the buffer. -/
def copyReport (report : Option Bytes) (bufSize : Nat) : Nat × Bytes :=
  match report with
  | none => (0, copyOut [] bufSize)
  | some report => (report.length, copyOut report bufSize)

/-- `syj_edgemind_get_memory_report` -/
def getMemoryReport (runtime : Option Runtime) (bufSize : Nat) : Nat × Bytes :=
  copyReport (runtime.map Runtime.memoryReport) bufSize

/-- `syj_edgemind_get_verification_report` -/
def getVerificationReport (runtime : Option Runtime) (bufSize : Nat) : Nat × Bytes :=
  copyReport (runtime.map Runtime.verificationReport) bufSize

/-- `syj_edgemind_get_context_report` -/
def getContextReport (runtime : Option Runtime) (bufSize : Nat) : Nat × Bytes :=
  copyReport (runtime.map Runtime.contextReport) bufSize

end Api

end EdgeMind
