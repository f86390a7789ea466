import EdgeMind.Core.Charges
import EdgeMind.Dashboard.Accounting
import EdgeMind.Dashboard.Stream
import EdgeMind.Inference.Rounds

/-!
# What is streamed and what is charged

A generation is charged the pieces that its callback got. The client of the stream sees an event for each
of them, except the last where it has gone by then.
-/

namespace EdgeMind

open Framework UsageAccounting UsageManager UsageRun

namespace Dashboard

def isTokenEvent (event : Bytes) : Bool := (text "data: \x7b\"token\":").isPrefixOf event

def Reply.tokens : Reply → Nat
  | .stream events => events.countP isTokenEvent
  | _ => 0

namespace DashboardServer

theorem isTokenEvent_tokenEvent (piece : Bytes) : isTokenEvent (tokenEvent piece) = true := by
  rw [isTokenEvent, tokenEvent, List.append_assoc, List.isPrefixOf_iff_prefix]
  exact List.prefix_append _ _

theorem isTokenEvent_doneEvent (status : Bytes) : isTokenEvent (doneEvent status) = false := rfl

/-- The callback writes an event for each of its calls, except the last where the sink is not writable
any more. -/
theorem tokenEvents_length {calls : List TokenCall}
    (h : ∀ call ∈ calls.dropLast, call.writableBefore = true ∧ call.writableAfter = true) :
    (tokenEvents calls).1.length ≤ calls.length ∧
      calls.length ≤ (tokenEvents calls).1.length + 1 := by
  induction calls with
  | nil => exact ⟨le_rfl, Nat.zero_le _⟩
  | cons call calls ih =>
      cases calls with
      | nil =>
          unfold tokenEvents
          split_ifs <;> simp [tokenEvents]
      | cons next calls =>
          rw [List.dropLast_cons_cons, List.forall_mem_cons] at h
          obtain ⟨hle, hge⟩ := ih h.2
          rw [tokenEvents, if_neg (not_not_intro h.1.1), if_pos h.1.2]
          exact ⟨Nat.succ_le_succ hle, Nat.succ_le_succ hge⟩

theorem generateEvents_tokens (answer : GenerateAnswer) :
    Reply.tokens (.stream (generateEvents answer)) = (tokenEvents answer.calls).1.length := by
  have htokens : (tokenEvents answer.calls).1.countP isTokenEvent =
      (tokenEvents answer.calls).1.length := by
    rw [List.countP_eq_length, (tokenEvents_take answer.calls).1]
    intro event hevent
    obtain ⟨call, -, rfl⟩ := List.mem_map.mp hevent
    exact isTokenEvent_tokenEvent call.piece
  unfold generateEvents
  dsimp only [Reply.tokens]
  split
  · rw [List.countP_append, htokens, List.countP_singleton, isTokenEvent_doneEvent]
    rfl
  · exact htokens

end DashboardServer

namespace System

/-- The client of a stream reads on to its end. -/
def Stays (e : Surroundings) : Prop := ∀ i, e.writable i = (true, true)

/-- What is charged for what a reply shows: as many tokens, or one more if the client has gone. -/
structure Fair (e : Surroundings) (reply : Reply) (charge : Int × Nat) : Prop where
  time : charge.1 = e.generate.recordNow
  shown : reply.tokens ≤ charge.2
  gone : charge.2 ≤ reply.tokens + 1
  stays : Stays e → charge.2 = reply.tokens

theorem fair_nothing {e : Surroundings} {reply : Reply} (h : reply.tokens = 0) :
    Fair e reply (e.generate.recordNow, 0) where
  time := rfl
  shown := h.le
  gone := Nat.zero_le _
  stays _ := h.symm

theorem pieces_writable {r : Runtime} {w : World} {prompt : Bytes} {e : Surroundings} {i : Nat}
    (h : i + 1 < (r.pieces w prompt (Api.withCallback e.generate (some (onToken e)))).length) :
    (e.writable i).1 = true ∧ (e.writable i).2 = true := by
  unfold Runtime.pieces at h
  split at h
  · have hkept : onToken e i = true := InferenceEngine.pieces_kept h
    exact Bool.and_eq_true_iff.mp hkept
  · exact absurd h (Nat.not_lt_zero _)

theorem answer_calls {s : System} {r : Runtime} (hruntime : s.server.runtime = some r)
    (e : Surroundings) (body : Bytes) :
    (s.answer e body).calls = ((r.pieces s.world (Api.promptText (some (promptIn body)))
        (Api.withCallback e.generate (some (onToken e)))).map Api.cString).mapIdx fun i piece =>
      ⟨piece, (e.writable i).1, (e.writable i).2⟩ := by
  rw [answer, outcome, hruntime]
  rfl

/-- Every call of the callback but the last has found the sink writable, before it and behind it. -/
theorem answer_kept {s : System} {r : Runtime} (hruntime : s.server.runtime = some r)
    (e : Surroundings) (body : Bytes) : ∀ call ∈ (s.answer e body).calls.dropLast,
      call.writableBefore = true ∧ call.writableAfter = true := by
  have hcalls := answer_calls hruntime e body
  intro call hcall
  obtain ⟨i, hi, rfl⟩ := List.mem_iff_getElem.mp hcall
  rw [List.length_dropLast, hcalls, List.length_mapIdx, List.length_map] at hi
  simp only [List.getElem_dropLast, hcalls, List.getElem_mapIdx]
  exact @pieces_writable r s.world (Api.promptText (some (promptIn body))) e i (by omega)

theorem answer_stays {e : Surroundings} (h : Stays e) (s : System) (body : Bytes) :
    ∀ call ∈ (s.answer e body).calls, call.writableBefore = true ∧ call.writableAfter = true := by
  intro call hcall
  obtain ⟨i, hi, rfl⟩ := List.mem_iff_getElem.mp hcall
  simp only [answer, List.getElem_mapIdx, h i, and_self]

theorem pieces_fair {s : System} {r : Runtime} (hruntime : s.server.runtime = some r)
    (e : Surroundings) (body : Bytes) :
    Fair e (.stream (DashboardServer.generateEvents (s.answer e body)))
      (e.generate.recordNow, (r.pieces s.world (Api.promptText (some (promptIn body)))
        (Api.withCallback e.generate (some (onToken e)))).length) := by
  have hcalls := answer_calls hruntime e body
  generalize r.pieces s.world _ _ = pieces at hcalls ⊢
  have hlength : (s.answer e body).calls.length = pieces.length := by
    rw [hcalls, List.length_mapIdx, List.length_map]
  obtain ⟨hle, hge⟩ := DashboardServer.tokenEvents_length (answer_kept hruntime e body)
  rw [hlength, ← DashboardServer.generateEvents_tokens] at hle hge
  refine ⟨rfl, hle, hge, fun hstays => ?_⟩
  rw [DashboardServer.generateEvents_tokens,
    (DashboardServer.tokenEvents_take _).2 (answer_stays hstays s body), hlength]

/-- The charges so far, of the usage state of the server. -/
structure Billed (modelRegistryPath : Bytes) (s : System) (charges : List (Int × Nat)) : Prop where
  metered : Metered modelRegistryPath s
  charged : Clocked s.points →
    Charges (startConfig modelRegistryPath) s.world.usage s.points charges

section Steps

variable {modelRegistryPath : Bytes} {s : System} {charges : List (Int × Nat)} {e : Surroundings}

theorem charged_iff {config config' : RuntimeConfig} (h : Api.SameAccount config config')
    (usage : FileSystem) (points : List UsagePoint) (charges : List (Int × Nat)) :
    Charges config usage points charges ↔ Charges config' usage points charges := by
  rw [Charges, h.path]

theorem Billed.nothing (h : Billed modelRegistryPath s charges) (time : Int) :
    Billed modelRegistryPath s (charges ++ [(time, 0)]) where
  metered := h.metered
  charged hclocked := (h.charged hclocked).nothing time

theorem created_charged (h : Billed modelRegistryPath s charges) (hsaves : Saves e)
    {candidate : RuntimeConfigState} (hsettled : Settled modelRegistryPath candidate)
    (fresh : Option Runtime) (status : Api.Status) :
    let after := perform e s (.create candidate.config fresh status)
    Clocked after.points →
      Charges (startConfig modelRegistryPath) after.world.usage after.points charges := by
  have haccount := hsettled.account
  intro after
  have hpoints : after.points = s.points ++ (({} : Runtime).load s.world
      (Api.toCppConfig (some candidate.config)) e.load).effects.filterMap Effect.point? :=
    List.filterMap_append
  change Clocked after.points → Charges _ (({} : Runtime).load s.world
    (Api.toCppConfig (some candidate.config)) e.load).world.usage after.points charges
  rw [hpoints]
  by_cases hvalid : validateConfig (Api.toCppConfig (some candidate.config)) = []
  · rw [← charged_iff haccount]
    exact load_charged hvalid
      (fun hclocked => (haccount.tracks _ _).mpr (h.metered.tracked hclocked))
      (fun hclocked => (charged_iff haccount _ _ _).mpr (h.charged hclocked)) {}
      hsaves.loadAdmission hsaves.loadSession
  · obtain ⟨-, hkept, heffects⟩ := Api.load_invalid (r := {}) hvalid s.world e.load
    rw [heffects, hkept, List.filterMap_nil, List.append_nil]
    exact h.charged

theorem quiet_billed (h : Billed modelRegistryPath s charges) (hsaves : Saves e)
    {request : ClientRequest} (hrequest : ∀ body, request ≠ .generate body) :
    Billed modelRegistryPath (s.step (request, e)).1 charges where
  metered := h.metered.step (request, e) hsaves
  charged := by
    have hcase := s.step_case (request, e)
    generalize (s.step (request, e)).1 = after at hcase ⊢
    cases hcase with
    | kept _ => exact h.charged
    | unloaded _ => exact h.charged
    | called hserves hruntime =>
        cases hserves with
        | reset =>
            have hpoints : ∀ r hasMemory, (s.callRuntime r (.resetContext hasMemory)).points =
                s.points := by
              intro r hasMemory
              rw [points, callRuntime, List.filterMap_append]
              exact points_llama _ _
            rw [hpoints]
            exact h.charged
        | generate body _ _ => exact absurd rfl (hrequest body)
    | @created _ _ hrequested fresh status _ =>
        have hunloaded : Billed modelRegistryPath s.unloaded charges :=
          ⟨h.metered.unloaded, h.charged⟩
        exact created_charged hunloaded hsaves (requested_settled h.metered.settled hrequested)
          fresh status

theorem quiet_reply {request : ClientRequest} (hrequest : ∀ body, request ≠ .generate body) :
    (s.step (request, e)).2.tokens = 0 := by
  cases request with
  | generate body => exact absurd rfl (hrequest body)
  | lifecycle request =>
      change (s.server.lifecycle request _).reply.tokens = 0
      unfold DashboardServer.lifecycle
      cases request with
      | load body =>
          dsimp only
          split <;> rfl
      | reload =>
          dsimp only
          split <;> rfl
      | unload => rfl
  | reset =>
      change s.server.reset.reply.tokens = 0
      unfold DashboardServer.reset
      split <;> rfl
  | _ => rfl

theorem generate_billed (h : Billed modelRegistryPath s charges) (hsaves : Saves e) {r : Runtime}
    (hruntime : s.server.runtime = some r) (prompt : Bytes) :
    let input := Api.withCallback e.generate (some (onToken e))
    Billed modelRegistryPath (s.callRuntime r (.generate prompt input))
      (charges ++ [(e.generate.recordNow, (r.pieces s.world prompt input).length)]) := by
  intro input
  refine ⟨h.metered.called hruntime ⟨hsaves.generateAdmission, hsaves.generateRecord⟩, ?_⟩
  have hpoints : (s.callRuntime r (.generate prompt input)).points =
      s.points ++ (r.generate s.world prompt input).effects.filterMap Effect.point? :=
    List.filterMap_append
  by_cases hready : r.ready = true
  · obtain ⟨config, hconfig, haccount, hconfigured⟩ := h.metered.keeps r hruntime hready
    rw [hpoints, ← charged_iff haccount]
    exact generate_charged hconfig hconfigured
      (fun hclocked => (haccount.tracks _ _).mpr (h.metered.tracked hclocked))
      (fun hclocked => (charged_iff haccount _ _ _).mpr (h.charged hclocked)) prompt
      hsaves.generateAdmission hsaves.generateRecord
  · obtain ⟨-, hworld, heffects⟩ := Api.generate_unready hready s.world prompt input
    have hpieces : r.pieces s.world prompt input = [] :=
      if_neg fun hadmits => hready (Bool.and_eq_true_iff.mp hadmits.1).1
    rw [hpoints, heffects, hpieces, List.filterMap_nil, List.append_nil]
    change Clocked s.points → Charges _ (r.generate s.world prompt input).world.usage s.points _
    rw [hworld]
    exact (h.nothing e.generate.recordNow).charged

theorem step_billed (h : Billed modelRegistryPath s charges) (i : ClientRequest × Surroundings)
    (hsaves : Saves i.2) :
    ∃ charge, Fair i.2 (s.step i).2 charge ∧
      Billed modelRegistryPath (s.step i).1 (charges ++ [charge]) := by
  obtain ⟨request, e⟩ := i
  by_cases hrequest : ∃ body, request = .generate body
  · obtain ⟨body, rfl⟩ := hrequest
    have hcase := s.server.generate_case body (s.answer e body)
    change ∃ charge, Fair e (s.server.generate body (s.answer e body)).reply charge ∧
      Billed modelRegistryPath ((s.server.generate body (s.answer e body)).calls.foldl (perform e)
        { s with server := (s.server.generate body (s.answer e body)).server }) _
    generalize s.server.generate body (s.answer e body) = result at hcase ⊢
    cases hcase with
    | refused reply hreply =>
        refine ⟨_, fair_nothing ?_, h.nothing _⟩
        rcases hreply with ⟨status, message, rfl⟩ | ⟨-, rfl⟩ <;> rfl
    | called prompt hprompt r hruntime =>
        have hpromptIn : promptIn body = prompt := by
          rw [promptIn, hprompt]
          rfl
        have hfair := pieces_fair hruntime e body
        rw [hpromptIn] at hfair
        exact ⟨_, hfair, generate_billed h hsaves hruntime _⟩
  · have hquiet : ∀ body, request ≠ .generate body := fun body heq => hrequest ⟨body, heq⟩
    exact ⟨_, fair_nothing (quiet_reply hquiet), (quiet_billed h hsaves hquiet).nothing _⟩

end Steps

theorem run_billed {modelRegistryPath : Bytes} {s : System} {charges : List (Int × Nat)}
    (h : Billed modelRegistryPath s charges) {requests : List (ClientRequest × Surroundings)}
    (hsaves : ∀ i ∈ requests, Saves i.2) :
    ∃ more, List.Forall₂ (fun entry charge => Fair entry.input.2 entry.output charge)
        (trace step s requests) more ∧
      Billed modelRegistryPath (final step s requests) (charges ++ more) := by
  induction requests generalizing s charges with
  | nil =>
      refine ⟨[], .nil, ?_⟩
      rw [List.append_nil]
      exact h
  | cons i requests ih =>
      rw [List.forall_mem_cons] at hsaves
      obtain ⟨charge, hfair, hbilled⟩ := step_billed h i hsaves.1
      obtain ⟨more, hmore, hafter⟩ := ih hbilled hsaves.2
      rw [List.append_assoc] at hafter
      exact ⟨charge :: more, .cons hfair hmore, hafter⟩

/-- Over any run from an absent usage state, the token counter is the sum of what was charged since the
start of the period, up to the largest sane counter. Every reply is charged the tokens that it shows, and at
most one more where the client of the stream has gone. -/
theorem dashboard_charges (modelRegistryPath : Bytes) (world : World)
    (habsent : world.usage (startConfig modelRegistryPath).usageStatePath = .absent)
    (requests : List (ClientRequest × Surroundings)) (hsaves : ∀ i ∈ requests, Saves i.2)
    (hclocked : Clocked (final step (start modelRegistryPath world) requests).points) :
    ∃ charges, List.Forall₂ (fun entry charge => Fair entry.input.2 entry.output charge)
        (trace step (start modelRegistryPath world) requests) charges ∧
      ∀ state, UsageStateStore.load (final step (start modelRegistryPath world) requests).world.usage
          (startConfig modelRegistryPath).usageStatePath = (.ok, state) →
        state.tokensUsedThisPeriod =
          min (chargedSince state.periodStartUnix charges : Int) UsageState.maxSaneCounter := by
  obtain ⟨charges, hfair, hbilled⟩ := run_billed
    ⟨.start habsent, fun _ => charged_nil habsent⟩ hsaves
  exact ⟨charges, hfair, (hbilled.charged hclocked).stored⟩

/-- Three tokens, then the end of generation. -/
def streamedGenerate : GenerateInput := { sampleGenerate with
  llama := { sampleGenerate.llama with
    tokenize := fun _ _ => some [1]
    step := fun i => { isEog := i = 3, piece := text "a", keepGoing := true, decodeOk := true } } }

theorem dashboard_charges_streamed :
    let requests := sampleRequests { sampleSurroundings with generate := streamedGenerate }
    let trace := trace step (start [] Runtime.sampleWorld) requests
    (∃ charges, List.Forall₂ (fun entry charge => Fair entry.input.2 entry.output charge)
        trace charges ∧
      ∀ state, UsageStateStore.load
          (final step (start [] Runtime.sampleWorld) requests).world.usage
          (startConfig []).usageStatePath = (.ok, state) →
        state.tokensUsedThisPeriod =
          min (chargedSince state.periodStartUnix charges : Int) UsageState.maxSaneCounter) ∧
      trace.map (fun entry => entry.output.tokens) = [0, 3, 0, 3, 0] := by
  intro requests trace
  have hnows : (final step (start [] Runtime.sampleWorld) requests).points.map UsagePoint.now =
      List.replicate 8 1000 := by decide +kernel
  refine ⟨dashboard_charges [] Runtime.sampleWorld rfl requests
    (sampleRequests_saves ⟨rfl, rfl, rfl, rfl⟩) ?_, by decide +kernel⟩
  rw [clocked_iff, hnows]
  decide

end System

end Dashboard

end EdgeMind
