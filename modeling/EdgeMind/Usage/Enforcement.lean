import EdgeMind.Framework.Run
import EdgeMind.Usage.Manager

/-!
# Enforcement over a history of transactions

The transactions on one state file, in order, under one policy and a clock that does not run
backwards. Each kind of transaction keeps the accounting: the counters are those of the current
period, enabled limits are kept, and a period is at least as long as the policy says.
-/

namespace EdgeMind

open Framework UsageAccounting

inductive UsageTransaction
  | checkAdmission
  | sessionStart
  | recordGeneration
deriving DecidableEq

/-- A transaction with its clock reading and the usage files after it. -/
structure UsagePoint where
  transaction : UsageTransaction
  now : Int
  usage : FileSystem

def recordedSince (start : Int) (points : List UsagePoint) : Nat :=
  points.countP fun p => p.transaction = .recordGeneration ∧ start ≤ p.now

/-- Clock readings within the sane range that do not decrease. -/
structure Clocked (points : List UsagePoint) : Prop where
  sorted : points.Pairwise fun p q => p.now ≤ q.now
  range : ∀ p ∈ points, 1 ≤ p.now ∧ p.now ≤ UsageState.maxSaneTimestamp

theorem clocked_iff (points : List UsagePoint) :
    Clocked points ↔ (points.map UsagePoint.now).Pairwise (· ≤ ·) ∧
      ∀ now ∈ points.map UsagePoint.now, 1 ≤ now ∧ now ≤ UsageState.maxSaneTimestamp := by
  rw [List.pairwise_map, List.forall_mem_map]
  exact ⟨fun h => ⟨h.sorted, h.range⟩, fun h => ⟨h.1, h.2⟩⟩

theorem Clocked.left {points more : List UsagePoint} (h : Clocked (points ++ more)) :
    Clocked points where
  sorted := (List.pairwise_append.mp h.sorted).1
  range p hp := h.range p (List.mem_append_left more hp)

theorem Clocked.last {points : List UsagePoint} {p : UsagePoint} (h : Clocked (points ++ [p])) :
    (∀ q ∈ points, q.now ≤ p.now) ∧ 1 ≤ p.now ∧ p.now ≤ UsageState.maxSaneTimestamp :=
  ⟨fun q hq => (List.pairwise_append.mp h.sorted).2.2 q hq p (List.mem_singleton_self p),
    h.range p (List.mem_append_right points (List.mem_singleton_self p))⟩

namespace UsageManager

/-- The state of a period, and what has been recorded in it so far. -/
structure Accounted (policy : UsagePolicy) (maxTokens : Int) (points : List UsagePoint)
    (state : UsageState) : Prop where
  valid : UsageStateStore.Valid state
  positive : 0 < state.periodStartUnix
  started : ∃ p ∈ points, p.now = state.periodStartUnix
  running : ∀ p ∈ points, p.transaction = .recordGeneration →
    p.now < state.periodStartUnix + policy.resetPeriodSeconds
  count : state.messagesUsedThisPeriod =
    min (recordedSince state.periodStartUnix points : Int) UsageState.maxSaneCounter
  messages : 0 < policy.dailyMessageLimit →
    state.messagesUsedThisPeriod ≤ policy.dailyMessageLimit
  tokens : 0 < policy.dailyTokenLimit →
    state.tokensUsedThisPeriod ≤ policy.dailyTokenLimit - 1 + maxTokens

/-- The period start of the next state: the same, or a whole period later. -/
def NextPeriod (policy : UsagePolicy) (state next : UsageState) : Prop :=
  next.periodStartUnix = state.periodStartUnix ∨
    state.periodStartUnix + policy.resetPeriodSeconds ≤ next.periodStartUnix

theorem recordedSince_concat (start : Int) (points : List UsagePoint) (p : UsagePoint) :
    recordedSince start (points ++ [p]) = recordedSince start points +
      if p.transaction = .recordGeneration ∧ start ≤ p.now then 1 else 0 := by
  simp [recordedSince, List.countP_append, List.countP_singleton]

section Transactions

variable {policy : UsagePolicy} {maxTokens : Int} {points : List UsagePoint} {state : UsageState}
  {now : Int} {usage : FileSystem}

theorem Accounted.recordedSince_late (h : Accounted policy maxTokens points state)
    (hlate : state.periodStartUnix + policy.resetPeriodSeconds ≤ now) :
    recordedSince now points = 0 := by
  rw [recordedSince, List.countP_eq_zero]
  intro p hp
  rw [decide_eq_true_iff, not_and, not_le]
  intro hrecord
  exact (h.running p hp hrecord).trans_le hlate

theorem Accounted.current (h : Accounted policy maxTokens points state)
    (hclock : ∀ p ∈ points, p.now ≤ now) :
    (currentState policy state now = state ∧
        now < state.periodStartUnix + policy.resetPeriodSeconds) ∨
      (currentState policy state now = rollOverPeriod state now ∧
        state.periodStartUnix + policy.resetPeriodSeconds ≤ now) := by
  obtain ⟨p, hp, hstart⟩ := h.started
  have hle := hclock p hp
  have hpos := h.positive
  have hperiod := periodHasRolledOver_iff policy state now
  by_cases hrolled : periodHasRolledOver policy state now = true
  · right
    rw [hperiod] at hrolled
    exact ⟨currentState_rolled (hperiod.mpr hrolled), by omega⟩
  · left
    rw [hperiod] at hrolled
    exact ⟨by rw [currentState, if_neg (hperiod.not.mpr hrolled)], by omega⟩

/-- A transaction that records nothing keeps the accounting of a state that differs only in its
session. -/
theorem Accounted.concat (h : Accounted policy maxTokens points state) {p : UsagePoint}
    (hp : p.transaction ≠ .recordGeneration) : Accounted policy maxTokens (points ++ [p]) state where
  valid := h.valid
  positive := h.positive
  started := by
    obtain ⟨q, hq, hstart⟩ := h.started
    exact ⟨q, List.mem_append_left _ hq, hstart⟩
  running q hq hrecord := by
    rcases List.mem_append.mp hq with hq | hq
    · exact h.running q hq hrecord
    · rw [List.mem_singleton] at hq
      subst hq
      exact absurd hrecord hp
  count := by
    rw [recordedSince_concat, if_neg (fun h => hp h.1), Nat.add_zero]
    exact h.count
  messages := h.messages
  tokens := h.tokens

theorem Accounted.session (h : Accounted policy maxTokens points state)
    (hnow : 1 ≤ now ∧ now ≤ UsageState.maxSaneTimestamp) :
    Accounted policy maxTokens points { state with sessionStartUnix := now } where
  valid := { h.valid with
    sessionStart_nonneg := by dsimp only; omega
    sessionStart_le := hnow.2 }
  positive := h.positive
  started := h.started
  running := h.running
  count := h.count
  messages := h.messages
  tokens := h.tokens

theorem accounted_rollOver (hvalid : UsageStateStore.Valid state)
    (hnow : 1 ≤ now ∧ now ≤ UsageState.maxSaneTimestamp) (hreset : 0 < policy.resetPeriodSeconds)
    (hmax : 0 ≤ maxTokens) (hrecorded : recordedSince now points = 0)
    (hclock : ∀ p ∈ points, p.now ≤ now) (hp : ∃ p ∈ points, p.now = now) :
    Accounted policy maxTokens points (rollOverPeriod state now) where
  valid := (rollOverPeriod_valid_iff hvalid now).mpr ⟨by omega, hnow.2⟩
  positive := by
    change 0 < now
    omega
  started := hp
  running q hq _ := by
    have := hclock q hq
    change q.now < now + _
    omega
  count := by
    change 0 = min (recordedSince now points : Int) _
    rw [hrecorded]
    rfl
  messages hpos := hpos.le
  tokens hpos := by
    change 0 ≤ _
    omega

theorem Accounted.checkAdmission (h : Accounted policy maxTokens points state)
    (hclock : ∀ p ∈ points, p.now ≤ now) (hnow : 1 ≤ now ∧ now ≤ UsageState.maxSaneTimestamp)
    (hreset : 0 < policy.resetPeriodSeconds) (hmax : 0 ≤ maxTokens) :
    Accounted policy maxTokens (points ++ [⟨.checkAdmission, now, usage⟩])
        (currentState policy state now) ∧
      NextPeriod policy state (currentState policy state now) := by
  have hconcat := h.concat (p := ⟨.checkAdmission, now, usage⟩) nofun
  rcases h.current hclock with ⟨hsame, -⟩ | ⟨hrolled, hlate⟩
  · rw [hsame]
    exact ⟨hconcat, .inl rfl⟩
  · rw [hrolled]
    refine ⟨accounted_rollOver h.valid hnow hreset hmax (hconcat.recordedSince_late hlate) ?_
      ⟨_, List.mem_append_right _ (List.mem_singleton_self _), rfl⟩, .inr hlate⟩
    intro p hp
    rcases List.mem_append.mp hp with hp | hp
    · exact hclock p hp
    · rw [List.mem_singleton.mp hp]

theorem accounted_first (hnow : 1 ≤ now ∧ now ≤ UsageState.maxSaneTimestamp)
    (hreset : 0 < policy.resetPeriodSeconds) (hmax : 0 ≤ maxTokens) :
    Accounted policy maxTokens [⟨.checkAdmission, now, usage⟩] (currentState policy {} now) := by
  have hrolled : periodHasRolledOver policy {} now = true :=
    (periodHasRolledOver_iff policy {} now).mpr (.inl le_rfl)
  rw [currentState_rolled hrolled]
  refine accounted_rollOver UsageStateStore.valid_default hnow hreset hmax rfl ?_
    ⟨_, List.mem_singleton_self _, rfl⟩
  intro p hp
  rw [List.mem_singleton.mp hp]

private theorem saturating_succ (k c : Int) : min (min k c + 1) c = min (k + 1) c := by
  omega

theorem accounted_addGeneration {tokensGenerated : Int} (hvalid : UsageStateStore.Valid state)
    (hpositive : 0 < state.periodStartUnix)
    (hstarted : ∃ p ∈ points ++ [⟨.recordGeneration, now, usage⟩], p.now = state.periodStartUnix)
    (hperiod : state.periodStartUnix ≤ now ∧
      now < state.periodStartUnix + policy.resetPeriodSeconds)
    (hrunning : ∀ p ∈ points, p.transaction = .recordGeneration →
      p.now < state.periodStartUnix + policy.resetPeriodSeconds)
    (hcount : state.messagesUsedThisPeriod =
      min (recordedSince state.periodStartUnix points : Int) UsageState.maxSaneCounter)
    (htokens : 0 ≤ tokensGenerated ∧ tokensGenerated ≤ maxTokens)
    (hmessages : ¬LimitReached policy.dailyMessageLimit state.messagesUsedThisPeriod)
    (htoken : ¬LimitReached policy.dailyTokenLimit state.tokensUsedThisPeriod) :
    Accounted policy maxTokens (points ++ [⟨.recordGeneration, now, usage⟩])
      (addGeneration state tokensGenerated) := by
  unfold LimitReached at hmessages htoken
  have hnext := addGeneration_valid hvalid htokens.1
  rw [addGeneration_eq hvalid htokens.1] at hnext ⊢
  refine {
    valid := hnext
    positive := hpositive
    started := hstarted
    running := fun q hq hrecord => ?_
    count := ?_
    messages := fun hlimit => ?_
    tokens := fun hlimit => ?_ }
  · rcases List.mem_append.mp hq with hq | hq
    · exact hrunning q hq hrecord
    · rw [List.mem_singleton.mp hq]
      exact hperiod.2
  · dsimp only
    rw [recordedSince_concat, if_pos ⟨rfl, hperiod.1⟩, hcount, saturating_succ, Nat.cast_succ]
  · dsimp only
    omega
  · dsimp only
    omega

/-- Recording a generation that was admitted keeps the accounting, also where the period rolls
over between the check and the record. -/
theorem Accounted.recordGeneration (h : Accounted policy maxTokens points state)
    (hclock : ∀ p ∈ points, p.now ≤ now) (hnow : 1 ≤ now ∧ now ≤ UsageState.maxSaneTimestamp)
    (hreset : 0 < policy.resetPeriodSeconds) {tokensGenerated : Int}
    (htokens : 0 ≤ tokensGenerated ∧ tokensGenerated ≤ maxTokens)
    (hmessages : ¬LimitReached policy.dailyMessageLimit state.messagesUsedThisPeriod)
    (htoken : ¬LimitReached policy.dailyTokenLimit state.tokensUsedThisPeriod) :
    Accounted policy maxTokens (points ++ [⟨.recordGeneration, now, usage⟩])
        (addGeneration (currentState policy state now) tokensGenerated) ∧
      NextPeriod policy state (addGeneration (currentState policy state now) tokensGenerated) := by
  rcases h.current hclock with ⟨hsame, hrunning⟩ | ⟨hrolled, hlate⟩
  · obtain ⟨p, hp, hstart⟩ := h.started
    have hle := hclock p hp
    rw [hsame]
    refine ⟨accounted_addGeneration h.valid h.positive ⟨p, List.mem_append_left _ hp, hstart⟩
      ⟨by omega, hrunning⟩ h.running h.count htokens hmessages htoken, .inl ?_⟩
    rw [addGeneration_eq h.valid htokens.1]
  · have hvalid : UsageStateStore.Valid (rollOverPeriod state now) :=
      (rollOverPeriod_valid_iff h.valid now).mpr ⟨by omega, hnow.2⟩
    rw [hrolled]
    -- The counters of the new period are zero, so no limit that is enabled is reached.
    refine ⟨accounted_addGeneration hvalid ?_
      ⟨_, List.mem_append_right _ (List.mem_singleton_self _), rfl⟩ ⟨le_rfl, ?_⟩ (fun q hq _ => ?_)
      ?_ htokens (fun hlimit => ?_) (fun hlimit => ?_), .inr ?_⟩
    · dsimp only [rollOverPeriod]
      omega
    · dsimp only [rollOverPeriod]
      omega
    · have := hclock q hq
      dsimp only [rollOverPeriod]
      omega
    · dsimp only [rollOverPeriod]
      rw [h.recordedSince_late hlate]
      rfl
    · exact absurd hlimit.1 (not_lt.mpr hlimit.2)
    · exact absurd hlimit.1 (not_lt.mpr hlimit.2)
    · rw [addGeneration_eq hvalid htokens.1]
      exact hlate

end Transactions

/-- After a transaction the file holds an accounted state, in the same period as before it or at
least a whole period later. -/
def Enforced (statePath : Path) (policy : UsagePolicy) (maxTokens : Int) (past : List UsagePoint)
    (p : UsagePoint) : Prop :=
  ∃ state, UsageStateStore.load p.usage statePath = (.ok, state) ∧
    Accounted policy maxTokens (past ++ [p]) state ∧
    ∀ q ∈ past.getLast?, NextPeriod policy (UsageStateStore.load q.usage statePath).2 state

/-- The usage files after a history of transactions that began without a state file. -/
structure Tracked (statePath : Path) (policy : UsagePolicy) (maxTokens : Int) (usage : FileSystem)
    (points : List UsagePoint) : Prop where
  last : ∀ q ∈ points.getLast?, q.usage = usage
  stored : points = [] ∧ UsageStateStore.load usage statePath = (.notFound, {}) ∨
    ∃ state, UsageStateStore.load usage statePath = (.ok, state) ∧
      Accounted policy maxTokens points state
  every : AtEvery (Enforced statePath policy maxTokens) points

section Files

variable {statePath : Path} {policy : UsagePolicy} {maxTokens : Int} {usage : FileSystem}
  {points : List UsagePoint} {now : Int}

theorem tracked_nil (h : usage statePath = .absent) :
    Tracked statePath policy maxTokens usage [] where
  last := nofun
  stored := by
    left
    refine ⟨rfl, ?_⟩
    rw [UsageStateStore.load, h]
    rfl
  every := atEvery_nil _

theorem Tracked.concat (h : Tracked statePath policy maxTokens usage points) {p : UsagePoint}
    {state : UsageState} (hload : UsageStateStore.load p.usage statePath = (.ok, state))
    (haccounted : Accounted policy maxTokens (points ++ [p]) state)
    (hnext : points ≠ [] →
      NextPeriod policy (UsageStateStore.load usage statePath).2 state) :
    Tracked statePath policy maxTokens p.usage (points ++ [p]) where
  last q hq := by
    rw [List.getLast?_concat, Option.mem_some_iff] at hq
    rw [hq]
  stored := .inr ⟨state, hload, haccounted⟩
  every := by
    refine atEvery_concat h.every ⟨state, hload, haccounted, fun q hq => ?_⟩
    rw [h.last q hq]
    apply hnext
    intro h
    subst h
    cases hq

def checkPoint (usage : FileSystem) (statePath : Path) (policy : UsagePolicy) (now : Int) :
    UsagePoint :=
  ⟨.checkAdmission, now, (checkAdmission usage statePath policy now .ok).1⟩

def sessionPoint (usage : FileSystem) (statePath : Path) (now : Int) : UsagePoint :=
  ⟨.sessionStart, now, (sessionStart usage statePath now .ok).1⟩

def recordPoint (usage : FileSystem) (statePath : Path) (policy : UsagePolicy)
    (tokensGenerated : Int) (now : Int) : UsagePoint :=
  ⟨.recordGeneration, now, (recordGeneration usage statePath policy tokensGenerated now .ok).1⟩

theorem checkPoint_load {state : UsageState} {result : UsageStateLoadResult}
    (hload : UsageStateStore.load usage statePath = (result, state))
    (hresult : result = .ok ∨ periodHasRolledOver policy state now = true ∧ result = .notFound)
    (hnow : 1 ≤ now ∧ now ≤ UsageState.maxSaneTimestamp) :
    UsageStateStore.load (checkPoint usage statePath policy now).usage statePath =
      (.ok, currentState policy state now) := by
  have hstored := checkAdmission_stored usage statePath policy now .ok
  rw [hload] at hstored
  have hreadable : result ≠ .corrupted := by
    rcases hresult with rfl | ⟨-, rfl⟩ <;> nofun
  unfold checkPoint
  dsimp only
  rw [hstored]
  by_cases hrolled : periodHasRolledOver policy state now = true
  · rw [if_pos ⟨hreadable, hrolled, rfl, by omega, hnow.2⟩, currentState_rolled hrolled]
  · rw [if_neg (fun h => hrolled h.2.1), currentState, if_neg hrolled,
      hresult.resolve_right fun h => hrolled h.1]

theorem Tracked.check (h : Tracked statePath policy maxTokens usage points)
    (hclocked : Clocked (points ++ [checkPoint usage statePath policy now]))
    (hreset : 0 < policy.resetPeriodSeconds) (hmax : 0 ≤ maxTokens) :
    Tracked statePath policy maxTokens (checkPoint usage statePath policy now).usage
        (points ++ [checkPoint usage statePath policy now]) ∧
      ∃ state, UsageStateStore.load (checkPoint usage statePath policy now).usage statePath =
          (.ok, state) ∧
        (checkAdmission usage statePath policy now .ok).2 = evaluate policy state now := by
  obtain ⟨hclock, hnow⟩ : (∀ q ∈ points, q.now ≤ now) ∧
      1 ≤ now ∧ now ≤ UsageState.maxSaneTimestamp := hclocked.last
  rcases h.stored with ⟨rfl, hload⟩ | ⟨state, hload, haccounted⟩
  · have hrolled : periodHasRolledOver policy {} now = true :=
      (periodHasRolledOver_iff policy {} now).mpr (.inl le_rfl)
    have hafter := checkPoint_load hload (.inr ⟨hrolled, rfl⟩) hnow
    refine ⟨h.concat hafter (accounted_first hnow hreset hmax) (absurd rfl), _, hafter, ?_⟩
    rw [checkAdmission_decision, hload, if_neg nofun]
  · have hafter : UsageStateStore.load (checkPoint usage statePath policy now).usage statePath =
        (.ok, currentState policy state now) := checkPoint_load hload (.inl rfl) hnow
    obtain ⟨hcurrent, hnext⟩ : Accounted policy maxTokens
        (points ++ [checkPoint usage statePath policy now]) (currentState policy state now) ∧
          NextPeriod policy state (currentState policy state now) :=
      haccounted.checkAdmission hclock hnow hreset hmax
    refine ⟨h.concat hafter hcurrent fun _ => by rw [hload]; exact hnext, _, hafter, ?_⟩
    rw [checkAdmission_decision, hload, if_neg nofun]

theorem Tracked.session (h : Tracked statePath policy maxTokens usage points)
    (hclocked : Clocked (points ++ [sessionPoint usage statePath now]))
    (hpoints : points ≠ []) :
    Tracked statePath policy maxTokens (sessionPoint usage statePath now).usage
      (points ++ [sessionPoint usage statePath now]) := by
  have hnow : 1 ≤ now ∧ now ≤ UsageState.maxSaneTimestamp := hclocked.last.2
  obtain ⟨state, hload, haccounted⟩ := h.stored.resolve_left fun h => hpoints h.1
  have hsession := (haccounted.session hnow).concat (p := sessionPoint usage statePath now) nofun
  refine h.concat ?_ hsession fun _ => by rw [hload]; exact .inl rfl
  unfold sessionPoint sessionStart
  dsimp only
  rw [hload, if_neg nofun]
  exact UsageStateStore.load_save
    ((UsageStateStore.save_eq_true_iff _ _ _ _).mpr ⟨rfl, hsession.valid⟩)

theorem Tracked.record (h : Tracked statePath policy maxTokens usage points)
    {tokensGenerated : Int}
    (hclocked : Clocked (points ++ [recordPoint usage statePath policy tokensGenerated now]))
    (hreset : 0 < policy.resetPeriodSeconds) {state : UsageState} {time : Int}
    (hload : UsageStateStore.load usage statePath = (.ok, state))
    (hadmitted : (evaluate policy state time).allowed = true)
    (htokens : 0 ≤ tokensGenerated ∧ tokensGenerated ≤ maxTokens) :
    Tracked statePath policy maxTokens
      (recordPoint usage statePath policy tokensGenerated now).usage
      (points ++ [recordPoint usage statePath policy tokensGenerated now]) := by
  obtain ⟨hclock, hnow⟩ : (∀ q ∈ points, q.now ≤ now) ∧
      1 ≤ now ∧ now ≤ UsageState.maxSaneTimestamp := hclocked.last
  obtain ⟨-, hmessages, htoken⟩ := (evaluate_allowed_iff _ _ _).mp hadmitted
  rcases h.stored with ⟨-, habsent⟩ | ⟨stored, hstored, haccounted⟩
  · rw [hload] at habsent
    cases habsent
  · rw [hload] at hstored
    cases hstored
    obtain ⟨hrecorded, hnext⟩ : Accounted policy maxTokens
        (points ++ [recordPoint usage statePath policy tokensGenerated now])
        (addGeneration (currentState policy state now) tokensGenerated) ∧
          NextPeriod policy state (addGeneration (currentState policy state now) tokensGenerated) :=
      haccounted.recordGeneration hclock hnow hreset htokens hmessages htoken
    refine h.concat ?_ hrecorded fun _ => by rw [hload]; exact hnext
    unfold recordPoint recordGeneration
    dsimp only
    rw [if_neg (by omega), hload, if_neg nofun]
    exact UsageStateStore.load_save
      ((UsageStateStore.save_eq_true_iff _ _ _ _).mpr ⟨rfl, hrecorded.valid⟩)

end Files

end UsageManager

end EdgeMind
