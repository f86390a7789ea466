import EdgeMind.Framework.Sizing
import EdgeMind.Inference.Engine

/-!
# The tokenizer

The wrapper around the vocabulary and the chat template of a model. Its buffers are sized by the library
itself, in three ways; as long as 32 bits can count what is written, a generation works on all tokens of its
prompt and hands out whole pieces.
-/

namespace EdgeMind

open Framework

/-- The functions of the library on the vocabulary of a model; a text is passed with its length. -/
structure LlamaVocab where
  tokenize : Bytes → Int32 → Bool → Bool → Filler Token
  tokenToPiece : Token → Bool → Filler UInt8
  isEog : Token → Bool

structure ChatMessage where
  role : Bytes
  content : Bytes
deriving DecidableEq

/-- The library reads both as C strings. -/
def ChatMessage.native (m : ChatMessage) : ChatMessage where
  role := m.role.takeWhile (· ≠ 0)
  content := m.content.takeWhile (· ≠ 0)

/-- The chat template of a model, if it has one, and the function of the library that applies it. -/
structure LlamaChat where
  template : Option Bytes
  applyTemplate : Bytes → List ChatMessage → Bool → Filler UInt8

namespace Tokenizer

/-- The tokens are counted by a call without a buffer, and then written to one of that size. -/
def tokenize (vocab : Option LlamaVocab) (text : Bytes) (addSpecial parseSpecial : Bool) :
    Option (List Token) :=
  match vocab with
  | none => none
  | some vocab => probed (vocab.tokenize text (Int32.ofNat text.length) addSpecial parseSpecial)

def tokenToPiece (vocab : Option LlamaVocab) (token : Token) (special : Bool) : Bytes :=
  match vocab with
  | none => []
  | some vocab => retried 128 (vocab.tokenToPiece token special)

/-- Without a vocabulary every token ends the generation. -/
def isEog (vocab : Option LlamaVocab) (token : Token) : Bool :=
  match vocab with
  | none => true
  | some vocab => vocab.isEog token

def applyChatTemplate (model : Option LlamaChat) (messages : List ChatMessage)
    (addAssistantPrefix : Bool) : Option Bytes :=
  match model with
  | none => none
  | some model =>
      if messages = [] then none
      else
        match model.template with
        | none => none
        | some template =>
            grown 2048
              (model.applyTemplate template (messages.map ChatMessage.native) addAssistantPrefix)

end Tokenizer

end EdgeMind
