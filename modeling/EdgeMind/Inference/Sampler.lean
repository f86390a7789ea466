import EdgeMind.Inference.Rounds
import EdgeMind.Inference.Tokenizer

/-!
# A generation and the library

The calls of a generation to the vocabulary, the chat template, the sampler chain and the decoder, in the
order in which they are made. The engine's own account of a generation is what is left of them without the
sampler, and each of them finds the library in a state that it needs: a chain is set up before it samples
and freed once, logits are there when they are sampled, and what is decoded next is what was sampled.
-/

namespace EdgeMind

open Framework

structure SamplingParams where
  temperature : CFloat := .finite (11744051 / 16777216)
  topP : CFloat := .finite (15099494 / 16777216)
  topK : Int32 := 40
  seed : UInt32 := 0xFFFFFFFF

inductive SamplerStage
  | topK (k : Int32)
  | topP (p : CFloat) (minKeep : Nat)
  | temp (t : CFloat)
  | dist (seed : UInt32)
deriving DecidableEq

/-- What the constructor of the sampler adds to its chain. -/
def SamplingParams.stages (params : SamplingParams) : List SamplerStage :=
  (if params.topK > 0 then [.topK params.topK] else []) ++
    (if params.topP.lt (.finite 1) then [.topP params.topP 1] else []) ++
    [.temp params.temperature, .dist params.seed]

/-- What the library, and the callback, contribute to a generation; the token of each round is the choice
of the chain. -/
structure LlamaSession where
  vocab : Option LlamaVocab
  chat : Option LlamaChat
  promptDecodeOk : Bool
  /-- `llama_sampler_chain_init` -/
  chain : Option Handle
  sampled : Nat → Token
  keepGoing : Nat → Bool
  decodeOk : Nat → Bool

/-- The answers that the engine gets through the tokenizer and the sampler. -/
def LlamaSession.answers (s : LlamaSession) : LlamaGenerate where
  chatTemplate prompt := Tokenizer.applyChatTemplate s.chat [⟨text "user", prompt⟩] true
  tokenize text addSpecial := Tokenizer.tokenize s.vocab text addSpecial true
  promptDecodeOk := s.promptDecodeOk
  samplerValid := s.chain.isSome
  step i := {
    isEog := Tokenizer.isEog s.vocab (s.sampled i)
    piece := Tokenizer.tokenToPiece s.vocab (s.sampled i) false
    keepGoing := s.keepGoing i
    decodeOk := s.decodeOk i }

/-- What the functions of the library stand for. -/
structure Meaning where
  tokens : Bytes → Bool → Bool → List Token
  piece : Token → Bool → Bytes
  /-- The text of the template, if there is one that can be applied. -/
  formatted : List ChatMessage → Bool → Option Bytes

/-- The tokens of a prompt: of the text of the template, or of the prompt itself. -/
def Meaning.promptTokens (meaning : Meaning) (prompt : Bytes) : List Token :=
  match meaning.formatted [ChatMessage.native ⟨text "user", prompt⟩] true with
  | some formatted => meaning.tokens formatted false true
  | none => meaning.tokens prompt true true

/-- The functions of the library return what they stand for in the way that is documented, as far as 32 bits
can count it. -/
structure LlamaSession.Means (s : LlamaSession) (meaning : Meaning) : Prop where
  vocab : ∃ vocab, s.vocab = some vocab ∧
    (∀ text addSpecial parseSpecial, Counted text →
      Counted (meaning.tokens text addSpecial parseSpecial) →
      Negating (vocab.tokenize text (count text) addSpecial parseSpecial)
        (meaning.tokens text addSpecial parseSpecial)) ∧
    ∀ token special, Counted (meaning.piece token special) →
      Negating (vocab.tokenToPiece token special) (meaning.piece token special)
  chat : ∃ chat, s.chat = some chat ∧
    match chat.template with
    | some template => ∀ messages addAssistant,
        (∀ formatted, meaning.formatted messages addAssistant = some formatted →
          Counted formatted) →
        TellsOrFails (chat.applyTemplate template messages addAssistant)
          (meaning.formatted messages addAssistant)
    | none => ∀ messages addAssistant, meaning.formatted messages addAssistant = none

/-- 32 bits can count the texts, the tokens and the pieces of a generation. -/
structure LlamaSession.Fits (s : LlamaSession) (meaning : Meaning) (prompt : Bytes) : Prop where
  raw : Counted prompt
  formatted : ∀ formatted, meaning.formatted [ChatMessage.native ⟨text "user", prompt⟩] true =
    some formatted → Counted formatted
  tokens : Counted (meaning.promptTokens prompt)
  pieces : ∀ i, Counted (meaning.piece (s.sampled i) false)

namespace LlamaSession.Means

variable {s : LlamaSession} {meaning : Meaning} {prompt : Bytes}

theorem chatTemplate (h : s.Means meaning) (hfits : s.Fits meaning prompt) :
    s.answers.chatTemplate prompt =
      meaning.formatted [ChatMessage.native ⟨text "user", prompt⟩] true := by
  obtain ⟨chat, hchat, htemplate⟩ := h.chat
  change Tokenizer.applyChatTemplate s.chat _ _ = _
  rw [hchat, Tokenizer.applyChatTemplate]
  rw [if_neg (List.cons_ne_nil _ _), List.map_singleton]
  cases hsome : chat.template with
  | none =>
      rw [hsome] at htemplate
      exact (htemplate _ _).symm
  | some template =>
      rw [hsome] at htemplate
      exact grown_eq (htemplate _ _ hfits.formatted) hfits.formatted 2048

theorem tokenize (h : s.Means meaning) {text : Bytes} {addSpecial : Bool} (htext : Counted text)
    (htokens : Counted (meaning.tokens text addSpecial true)) :
    s.answers.tokenize text addSpecial = some (meaning.tokens text addSpecial true) := by
  obtain ⟨vocab, hvocab, hnegating, -⟩ := h.vocab
  change Tokenizer.tokenize s.vocab text addSpecial true = _
  rw [hvocab]
  exact probed_eq (hnegating _ _ _ htext htokens) htokens

theorem piece (h : s.Means meaning) {i : Nat}
    (hpiece : Counted (meaning.piece (s.sampled i) false)) :
    (s.answers.step i).piece = meaning.piece (s.sampled i) false := by
  obtain ⟨vocab, hvocab, -, hnegating⟩ := h.vocab
  change Tokenizer.tokenToPiece s.vocab (s.sampled i) false = _
  rw [hvocab]
  exact retried_eq (hnegating _ _ hpiece) hpiece (by decide : 0 ≤ (128 : Int32).toInt)

theorem promptTokens (h : s.Means meaning) (hfits : s.Fits meaning prompt) :
    InferenceEngine.promptTokens s.answers prompt = some (meaning.promptTokens prompt) := by
  have htokens := hfits.tokens
  unfold Meaning.promptTokens at htokens
  unfold InferenceEngine.promptTokens Meaning.promptTokens
  rw [h.chatTemplate hfits]
  cases hformatted : meaning.formatted [ChatMessage.native ⟨text "user", prompt⟩] true with
  | some formatted =>
      rw [hformatted] at htokens
      exact h.tokenize (hfits.formatted formatted hformatted) htokens
  | none =>
      rw [hformatted] at htokens
      exact h.tokenize hfits.raw htokens

end LlamaSession.Means

namespace InferenceEngine

end InferenceEngine

/-- A call to the library, with what it returns. -/
inductive SamplingCall
  | chainInit (chain : Option Handle)
  | chainAdd (chain : Handle) (stage : SamplerStage)
  | decode (ctx : Handle) (tokens : List Token) (ok : Bool)
  | sample (chain ctx : Handle) (idx : Int32) (token : Token)
  | accept (chain : Handle) (token : Token)
  | free (chain : Handle)
deriving DecidableEq

namespace SamplingCall

/-- What the engine's own account keeps of a call. -/
def llama? : SamplingCall → Option LlamaCall
  | .decode ctx tokens ok =>
      some (.decode ctx (InferenceEngine.batchSize tokens).toNatClampNeg ok)
  | _ => none

end SamplingCall

namespace InferenceEngine

/-- The chain that is live, with its stages; the batch whose logits are there; the token that has been
sampled and not accepted, and the one that has been accepted and not decoded. -/
structure LibraryState where
  chain : Option (Handle × List SamplerStage) := none
  logits : Option (Handle × List Token) := none
  sampled : Option Token := none
  accepted : Option Token := none
deriving DecidableEq

/-- What the library needs for a call, and what it then comes to. -/
def LibraryState.next (params : SamplingParams) (s : LibraryState) :
    SamplingCall → Option LibraryState
  | .chainInit chain =>
      if s.chain = none then some { s with chain := chain.map fun chain => (chain, []) } else none
  | .chainAdd chain stage =>
      match s.chain with
      | none => none
      | some (live, stages) =>
          if live = chain then some { s with chain := some (live, stages ++ [stage]) } else none
  | .decode ctx tokens ok =>
      -- The context goes on with the token that was accepted.
      if s.sampled = none ∧ s.accepted.all (tokens = [·]) then
        some { s with logits := if ok then some (ctx, tokens) else none, accepted := none }
      else none
  | .sample chain ctx idx token =>
      match s.logits with
      | none => none
      | some (decoded, tokens) =>
          -- Only the last token of a batch has logits.
          if s.chain = some (chain, params.stages) ∧ decoded = ctx ∧ idx = batchSize tokens - 1 ∧
              s.sampled = none then
            some { s with logits := none, sampled := some token }
          else none
  | .accept chain token =>
      if s.chain = some (chain, params.stages) ∧ s.sampled = some token then
        some { s with sampled := none, accepted := some token }
      else none
  | .free chain =>
      if s.chain.map Prod.fst = some chain ∧ s.sampled = none then some { s with chain := none }
      else none

end InferenceEngine

end EdgeMind
