import EdgeMind.Inference.Batches

/-!
# The rounds of a generation

A generation goes round as long as the token is no end of generation, the callback and the context take it
and it can be decoded. It ends at the first token of which this fails, or after the last that is allowed.
-/

namespace EdgeMind

open Framework

namespace InferenceEngine

/-- The context manager after some tokens, one after the other. -/
def consumed (m : ContextManager) : Nat → ContextManager
  | 0 => m
  | n + 1 => (consumed m n).consume 1

theorem consumed_succ (m : ContextManager) (n : Nat) :
    consumed m (n + 1) = consumed (m.consume 1) n := by
  induction n with
  | zero => rfl
  | succ n ih => exact congrArg (ContextManager.consume · 1) ih

inductive StopReason
  | maxTokens
  | endOfGeneration
  | callback
  | contextFull
  | decodeFailed
deriving DecidableEq

namespace StopReason

def emits : StopReason → Bool
  | .maxTokens | .endOfGeneration => false
  | .callback | .contextFull | .decodeFailed => true

def error : StopReason → EngineError
  | .decodeFailed => .decodeFailed
  | _ => .none

end StopReason

/-- Why a generation ends at a token, if it does. -/
def stopsAt (step : LlamaStep) (m : ContextManager) : Option StopReason :=
  if step.isEog then some .endOfGeneration
  else if ¬step.keepGoing then some .callback
  else if ¬m.canAccept 1 then some .contextFull
  else if ¬step.decodeOk then some .decodeFailed
  else none

/-- After `n` rounds the generation ends for the reason. -/
structure Rounds (llama : LlamaGenerate) (m : ContextManager) (maxTokens n : Nat)
    (reason : StopReason) : Prop where
  goes : ∀ i < n, stopsAt (llama.step i) (consumed m i) = none
  ends : n = maxTokens ∧ reason = .maxTokens ∨
    n < maxTokens ∧ stopsAt (llama.step n) (consumed m n) = some reason

/-- What a generation of so many rounds has done. -/
def ranFor (llama : LlamaGenerate) (ctx : Handle) (m : ContextManager) (n : Nat)
    (reason : StopReason) : ContextManager × EngineError × List LlamaCall × List Bytes :=
  (consumed m n, reason.error,
    List.replicate n (.decode ctx 1 true) ++
      (if reason = .decodeFailed then [.decode ctx 1 false] else []),
    (List.range (n + if reason.emits then 1 else 0)).map fun i => (llama.step i).piece)

theorem Rounds.unique {llama : LlamaGenerate} {m : ContextManager} {maxTokens n n' : Nat}
    {reason reason' : StopReason} (h : Rounds llama m maxTokens n reason)
    (h' : Rounds llama m maxTokens n' reason') : n = n' ∧ reason = reason' := by
  have hle {n n' : Nat} {reason reason' : StopReason} (h : Rounds llama m maxTokens n reason)
      (h' : Rounds llama m maxTokens n' reason') : n ≤ n' := by
    by_contra hlt
    have hgoes := h.goes n' (by omega)
    rcases h'.ends with ⟨hn', -⟩ | ⟨-, hstops⟩
    · rcases h.ends with ⟨hn, -⟩ | ⟨hn, -⟩ <;> omega
    · rw [hgoes] at hstops
      cases hstops
  obtain rfl : n = n' := le_antisymm (hle h h') (hle h' h)
  refine ⟨rfl, ?_⟩
  rcases h.ends with ⟨hn, hreason⟩ | ⟨hn, hstops⟩
  · rcases h'.ends with ⟨-, hreason'⟩ | ⟨hn', -⟩
    · rw [hreason, hreason']
    · omega
  · rcases h'.ends with ⟨hn', -⟩ | ⟨-, hstops'⟩
    · omega
    · exact Option.some.inj (hstops.symm.trans hstops')

/-- The answers of the library from the next iteration on. -/
def nextSteps (llama : LlamaGenerate) : LlamaGenerate := { llama with step := fun i => llama.step (i + 1) }

theorem generateLoop_next (llama : LlamaGenerate) (ctx : Handle) (fuel i : Nat)
    (m : ContextManager) :
    generateLoop (nextSteps llama) ctx fuel i m = generateLoop llama ctx fuel (i + 1) m := by
  induction fuel generalizing i m with
  | zero => rfl
  | succ fuel ih =>
      unfold generateLoop
      rw [ih]
      rfl

theorem ranFor_succ (llama : LlamaGenerate) (ctx : Handle) (m : ContextManager) (n : Nat)
    (reason : StopReason) :
    let rest := ranFor (nextSteps llama) ctx (m.consume 1) n reason
    ranFor llama ctx m (n + 1) reason =
      (rest.1, rest.2.1, .decode ctx 1 true :: rest.2.2.1, (llama.step 0).piece :: rest.2.2.2) := by
  dsimp only [ranFor]
  rw [consumed_succ, List.replicate_succ, List.cons_append, Nat.add_right_comm,
    List.range_succ_eq_map, List.map_cons, List.map_map]
  rfl

theorem generateLoop_go {llama : LlamaGenerate} {i : Nat} {m : ContextManager}
    (h : stopsAt (llama.step i) m = none) (ctx : Handle) (fuel : Nat) :
    let rest := generateLoop llama ctx fuel (i + 1) (m.consume 1)
    generateLoop llama ctx (fuel + 1) i m =
      (rest.1, rest.2.1, .decode ctx 1 true :: rest.2.2.1, (llama.step i).piece :: rest.2.2.2) := by
  unfold stopsAt at h
  dsimp only
  rw [generateLoop]
  split_ifs at h ⊢
  rfl

theorem generateLoop_stop {llama : LlamaGenerate} {m : ContextManager} {reason : StopReason}
    (h : stopsAt (llama.step 0) m = some reason) (ctx : Handle) (fuel : Nat) :
    generateLoop llama ctx (fuel + 1) 0 m = ranFor llama ctx m 0 reason := by
  unfold stopsAt at h
  rw [generateLoop]
  split_ifs at h ⊢ <;> cases h <;> rfl

theorem generateLoop_rounds (llama : LlamaGenerate) (ctx : Handle) (fuel : Nat)
    (m : ContextManager) :
    ∃ n reason, Rounds llama m fuel n reason ∧
      generateLoop llama ctx fuel 0 m = ranFor llama ctx m n reason := by
  induction fuel generalizing llama m with
  | zero => exact ⟨0, .maxTokens, ⟨fun _ hi => absurd hi (Nat.not_lt_zero _), .inl ⟨rfl, rfl⟩⟩, rfl⟩
  | succ fuel ih =>
      cases hstops : stopsAt (llama.step 0) m with
      | some reason =>
          exact ⟨0, reason, ⟨fun _ hi => absurd hi (Nat.not_lt_zero _),
            .inr ⟨Nat.succ_pos fuel, hstops⟩⟩, generateLoop_stop hstops ctx fuel⟩
      | none =>
          obtain ⟨n, reason, hrounds, hloop⟩ := ih (nextSteps llama) (m.consume 1)
          rw [generateLoop_next] at hloop
          refine ⟨n + 1, reason, ⟨fun i hi => ?_, ?_⟩, ?_⟩
          · cases i with
            | zero => exact hstops
            | succ i =>
                rw [consumed_succ]
                exact hrounds.goes i (by omega)
          · rw [consumed_succ]
            exact hrounds.ends.imp (fun h => ⟨by rw [h.1], h.2⟩) fun h => ⟨by omega, h.2⟩
          · rw [generateLoop_go hstops, ranFor_succ, ← hloop]

theorem Rounds.generateLoop {llama : LlamaGenerate} {m : ContextManager} {maxTokens n : Nat}
    {reason : StopReason} (h : Rounds llama m maxTokens n reason) (ctx : Handle) :
    generateLoop llama ctx maxTokens 0 m = ranFor llama ctx m n reason := by
  obtain ⟨n', reason', h', hloop⟩ := generateLoop_rounds llama ctx maxTokens m
  obtain ⟨rfl, rfl⟩ := h.unique h'
  exact hloop

/-- The engine has a model, the context and its manager. -/
structure LoadedWith (e : InferenceEngine) (ctx : Handle) (m : ContextManager) : Prop where
  model : e.model.isSome = true
  ctx : e.ctx = some ctx
  manager : e.contextManager = some m

/-- The tokens of the prompt, at least one, and room for them in the context. -/
structure Accepts (m : ContextManager) (llama : LlamaGenerate) (prompt : Bytes)
    (tokens : List Token) : Prop where
  tokenized : promptTokens llama prompt = some tokens
  nonempty : tokens ≠ []
  room : m.canAccept (batchSize tokens) = true

def promptCall (ctx : Handle) (tokens : List Token) (ok : Bool) : LlamaCall :=
  .decode ctx (batchSize tokens).toNatClampNeg ok

/-- A generation that stops before its first round. -/
def stopped (e : InferenceEngine) (error : EngineError) (calls : List LlamaCall) : GenerateResult where
  engine := e
  error := error
  calls := calls
  pieces := []

/-- What a generation of an engine may come to: it does not get past its prompt, or it goes round. -/
inductive Generated (e : InferenceEngine) (prompt : Bytes) (llama : LlamaGenerate) :
    GenerateResult → Prop
  | unloaded (h : e.model = none ∨ e.ctx = none ∨ e.contextManager = none) :
      Generated e prompt llama (stopped e .contextCreateFailed [])
  | untokenized {ctx : Handle} {m : ContextManager} (h : e.LoadedWith ctx m)
      (htokens : (promptTokens llama prompt).getD [] = []) :
      Generated e prompt llama (stopped e .tokenizeFailed [])
  | tooLong {ctx : Handle} {m : ContextManager} (h : e.LoadedWith ctx m) {tokens : List Token}
      (htokens : promptTokens llama prompt = some tokens) (hnonempty : tokens ≠ [])
      (hroom : ¬m.canAccept (batchSize tokens) = true) :
      Generated e prompt llama (stopped e .none [])
  | undecoded {ctx : Handle} {m : ContextManager} (h : e.LoadedWith ctx m) {tokens : List Token}
      (haccepts : Accepts m llama prompt tokens) (hdecode : ¬llama.promptDecodeOk = true) :
      Generated e prompt llama (stopped e .decodeFailed [promptCall ctx tokens false])
  | unsampled {ctx : Handle} {m : ContextManager} (h : e.LoadedWith ctx m) {tokens : List Token}
      (haccepts : Accepts m llama prompt tokens) (hdecode : llama.promptDecodeOk = true)
      (hsampler : ¬llama.samplerValid = true) :
      Generated e prompt llama (stopped
        { e with contextManager := some (m.consume (batchSize tokens)) } .decodeFailed
        [promptCall ctx tokens true])
  | ran {ctx : Handle} {m : ContextManager} (h : e.LoadedWith ctx m) {tokens : List Token}
      (haccepts : Accepts m llama prompt tokens) (hdecode : llama.promptDecodeOk = true)
      (hsampler : llama.samplerValid = true) {n : Nat} {reason : StopReason}
      (hrounds : Rounds llama (m.consume (batchSize tokens)) e.config.maxTokens.toNatClampNeg n reason)
      {ran : ContextManager × EngineError × List LlamaCall × List Bytes}
      (hran : ran = ranFor llama ctx (m.consume (batchSize tokens)) n reason) :
      Generated e prompt llama {
        engine := { e with contextManager := some ran.1 }
        error := ran.2.1
        calls := promptCall ctx tokens true :: ran.2.2.1
        pieces := ran.2.2.2 }

theorem generate_unloaded {e : InferenceEngine} (prompt : Bytes) (llama : LlamaGenerate)
    (h : e.model = none ∨ e.ctx = none ∨ e.contextManager = none) :
    e.generate prompt llama = stopped e .contextCreateFailed [] := by
  unfold generate
  split
  · next hmodel hctx hm =>
      rw [hmodel, hctx, hm] at h
      simp at h
  · rfl

theorem generate_loaded {e : InferenceEngine} {ctx : Handle} {m : ContextManager}
    (h : e.LoadedWith ctx m) (prompt : Bytes) (llama : LlamaGenerate) :
    e.generate prompt llama =
      match promptTokens llama prompt with
      | none => stopped e .tokenizeFailed []
      | some tokens =>
          let e' := { e with contextManager := some (m.consume (batchSize tokens)) }
          let ran := generateLoop llama ctx e.config.maxTokens.toNatClampNeg 0
            (m.consume (batchSize tokens))
          if tokens = [] then stopped e .tokenizeFailed []
          else if ¬m.canAccept (batchSize tokens) then stopped e .none []
          else if ¬llama.promptDecodeOk then stopped e .decodeFailed [promptCall ctx tokens false]
          else if ¬llama.samplerValid then
            stopped e' .decodeFailed [promptCall ctx tokens true]
          else {
            engine := { e with contextManager := some ran.1 }
            error := ran.2.1
            calls := promptCall ctx tokens true :: ran.2.2.1
            pieces := ran.2.2.2 } := by
  obtain ⟨model, hmodel⟩ := Option.isSome_iff_exists.mp h.model
  unfold generate
  rw [hmodel, h.ctx, h.manager]
  rfl

theorem generate_generated (e : InferenceEngine) (prompt : Bytes) (llama : LlamaGenerate) :
    Generated e prompt llama (e.generate prompt llama) := by
  by_cases hunloaded : e.model = none ∨ e.ctx = none ∨ e.contextManager = none
  · rw [generate_unloaded prompt llama hunloaded]
    exact .unloaded hunloaded
  simp only [not_or, Option.ne_none_iff_exists'] at hunloaded
  obtain ⟨⟨model, hmodel⟩, ⟨ctx, hctx⟩, ⟨m, hm⟩⟩ := hunloaded
  have h : e.LoadedWith ctx m := ⟨by rw [hmodel]; rfl, hctx, hm⟩
  rw [generate_loaded h]
  cases htokenized : promptTokens llama prompt with
  | none => exact .untokenized h (by rw [htokenized]; rfl)
  | some tokens =>
      dsimp only
      split
      · next hempty => exact .untokenized h (by rw [htokenized]; exact hempty)
      · next hnonempty =>
          split
          · next hroom => exact .tooLong h htokenized hnonempty hroom
          · next hroom =>
              have haccepts : Accepts m llama prompt tokens :=
                ⟨htokenized, hnonempty, not_not.mp hroom⟩
              split
              · next hdecode => exact .undecoded h haccepts hdecode
              · next hdecode =>
                  split
                  · next hsampler => exact .unsampled h haccepts (not_not.mp hdecode) hsampler
                  · next hsampler =>
                      obtain ⟨n, reason, hrounds, hloop⟩ := generateLoop_rounds llama ctx
                        e.config.maxTokens.toNatClampNeg (m.consume (batchSize tokens))
                      exact .ran h haccepts (not_not.mp hdecode) (not_not.mp hsampler) hrounds hloop

/-- A generation comes to one of these and to no other. -/
theorem generate_exact (e : InferenceEngine) (prompt : Bytes) (llama : LlamaGenerate)
    (result : GenerateResult) :
    Generated e prompt llama result ↔ result = e.generate prompt llama := by
  constructor
  · intro h
    cases h with
    | unloaded h => exact (generate_unloaded prompt llama h).symm
    | untokenized h htokens =>
        rw [generate_loaded h]
        cases htokenized : promptTokens llama prompt with
        | none => rfl
        | some tokens =>
            rw [htokenized] at htokens
            exact (if_pos htokens).symm
    | tooLong h htokens hnonempty hroom =>
        rw [generate_loaded h, htokens]
        dsimp only
        rw [if_neg hnonempty, if_pos hroom]
    | undecoded h haccepts hdecode =>
        rw [generate_loaded h, haccepts.tokenized]
        dsimp only
        rw [if_neg haccepts.nonempty, if_neg (not_not_intro haccepts.room), if_pos hdecode]
    | unsampled h haccepts hdecode hsampler =>
        rw [generate_loaded h, haccepts.tokenized]
        dsimp only
        rw [if_neg haccepts.nonempty, if_neg (not_not_intro haccepts.room),
          if_neg (not_not_intro hdecode), if_pos hsampler]
    | ran h haccepts hdecode hsampler hrounds hran =>
        rw [generate_loaded h, haccepts.tokenized]
        dsimp only
        rw [if_neg haccepts.nonempty, if_neg (not_not_intro haccepts.room),
          if_neg (not_not_intro hdecode), if_neg (not_not_intro hsampler), hrounds.generateLoop, hran]
  · rintro rfl
    exact generate_generated e prompt llama

theorem keepGoing_of_stopsAt {step : LlamaStep} {m : ContextManager} (h : stopsAt step m = none) :
    step.keepGoing = true := by
  unfold stopsAt at h
  split_ifs at h with _ hkeep
  exact hkeep

theorem pieces_kept {e : InferenceEngine} {prompt : Bytes} {llama : LlamaGenerate} {i : Nat}
    (h : i + 1 < (e.generate prompt llama).pieces.length) : (llama.step i).keepGoing = true := by
  have hgenerated := generate_generated e prompt llama
  generalize e.generate prompt llama = result at hgenerated h
  cases hgenerated with
  | ran _ _ _ _ hrounds hran =>
      subst hran
      dsimp only [ranFor] at h
      rw [List.length_map, List.length_range] at h
      refine keepGoing_of_stopsAt (hrounds.goes i ?_)
      split at h <;> omega
  | _ => exact absurd h (Nat.not_lt_zero _)

end InferenceEngine

end EdgeMind
