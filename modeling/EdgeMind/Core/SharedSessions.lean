import EdgeMind.Core.LostRecords
import EdgeMind.Framework.SharedQuota

/-!
# Sessions that share a state file

Several runtimes, each in a process of its own, can be given the same state file. Each transaction on
the file is a turn of one of them, and the turns of different sessions come in any order: between the
admission check of a generation and its record, other generations are admitted on the same counters.
-/

namespace EdgeMind

open Framework UsageAccounting UsageManager

/-- A transaction of a session: the admission check of a load or a generation; behind one that allows,
the session start of a load or the record of a generation; or the session ends without either. -/
inductive SharedTurn (ι : Type)
  | check (i : ι) (now : Int) (outcome : SaveOutcome)
  | session (i : ι) (now : Int) (outcome : SaveOutcome)
  | record (i : ι) (tokens : Nat) (now : Int) (outcome : SaveOutcome)
  | leave (i : ι)
deriving DecidableEq

/-- A new period that a check finds can be saved. -/
def SharedTurn.Saves {ι : Type} : SharedTurn ι → Prop
  | .check _ now outcome => outcome = .ok ∧ 0 ≤ now ∧ now ≤ UsageState.maxSaneTimestamp
  | _ => True

/-- A session uses up all but one message, and then all sessions are admitted before any of them
records. -/
def SharedTurn.crowd {ι : Type} (limit : Nat) (i : ι) (l : List ι) : List (SharedTurn ι) :=
  [.check i 1000 .ok, .leave i] ++
    (List.replicate (limit - 1) [.check i 1000 .ok, .record i 0 1000 .ok]).flatten ++
    (l.map fun i => .check i 1000 .ok) ++ (l.map fun i => .record i 0 1000 .ok)

theorem SharedTurn.crowd_saves {ι : Type} (limit : Nat) (i : ι) (l : List ι) :
    ∀ turn ∈ crowd limit i l, turn.Saves := by
  have hnow : (0 : Int) ≤ 1000 ∧ (1000 : Int) ≤ UsageState.maxSaneTimestamp := by decide
  intro turn h
  simp only [crowd, List.mem_append, List.mem_cons, List.not_mem_nil, or_false, List.mem_flatten,
    List.mem_replicate, List.mem_map] at h
  rcases h with (((rfl | rfl) | ⟨_, ⟨-, rfl⟩, hmem⟩) | ⟨j, -, rfl⟩) | ⟨j, -, rfl⟩
  · exact ⟨rfl, hnow⟩
  · trivial
  · simp only [List.mem_cons, List.not_mem_nil, or_false] at hmem
    rcases hmem with rfl | rfl
    · exact ⟨rfl, hnow⟩
    · trivial
  · exact ⟨rfl, hnow⟩
  · trivial

/-- The usage files, and the sessions that were allowed to go on. -/
structure SharedUsage (ι : Type) where
  usage : FileSystem
  admitted : Finset ι := ∅

namespace SharedUsage

variable {ι : Type} [DecidableEq ι]

section Steps

variable (statePath : Path) (policy : UsagePolicy) (maxTokens : Nat)

def step (s : SharedUsage ι) : SharedTurn ι → Option (SharedUsage ι)
  | .check i now outcome =>
      if i ∈ s.admitted then none
      else
        let (usage, decision) := checkAdmission s.usage statePath policy now outcome
        some ⟨usage, if decision.allowed then insert i s.admitted else s.admitted⟩
  | .session i now outcome =>
      if i ∈ s.admitted then
        some ⟨(sessionStart s.usage statePath now outcome).1, s.admitted.erase i⟩
      else none
  | .record i tokens now outcome =>
      if i ∈ s.admitted ∧ tokens ≤ maxTokens then
        some ⟨(recordGeneration s.usage statePath policy tokens now outcome).1, s.admitted.erase i⟩
      else none
  | .leave i => if i ∈ s.admitted then some ⟨s.usage, s.admitted.erase i⟩ else none

def run (s : SharedUsage ι) (turns : List (SharedTurn ι)) : Option (SharedUsage ι) :=
  turns.foldlM (step statePath policy maxTokens) s

def stored (s : SharedUsage ι) : UsageState := (UsageStateStore.load s.usage statePath).2

end Steps

section Calls

variable {config : RuntimeConfig} {s : SharedUsage ι} {i : ι}

/-- A call of a runtime is a run of turns of its session, between two moments at which the session is
not admitted. -/
def Turned (config : RuntimeConfig) (s : SharedUsage ι) (usage : FileSystem) : Prop :=
  ∃ turns, run config.usageStatePath (toUsagePolicy config) config.maxTokens.toNatClampNeg s turns =
    some { s with usage }

private theorem checked_turns (hi : i ∉ s.admitted) {now : Int} {outcome : SaveOutcome}
    (hdenied : ¬(checkAdmission s.usage config.usageStatePath (toUsagePolicy config) now
      outcome).2.allowed = true) :
    Turned config s (checkAdmission s.usage config.usageStatePath (toUsagePolicy config) now
      outcome).1 := by
  refine ⟨[.check i now outcome], ?_⟩
  simp only [run, List.foldlM_cons, List.foldlM_nil, bind_pure, step, if_neg hi]
  rw [if_neg hdenied]

private theorem admitted_turns (hi : i ∉ s.admitted) {now : Int} {outcome : SaveOutcome}
    (hallowed : (checkAdmission s.usage config.usageStatePath (toUsagePolicy config) now
      outcome).2.allowed = true) (turn : SharedTurn ι) {usage : FileSystem}
    (hturn : step config.usageStatePath (toUsagePolicy config) config.maxTokens.toNatClampNeg
      ⟨(checkAdmission s.usage config.usageStatePath (toUsagePolicy config) now outcome).1,
        insert i s.admitted⟩ turn = some ⟨usage, (insert i s.admitted).erase i⟩) :
    Turned config s usage := by
  refine ⟨[.check i now outcome, turn], ?_⟩
  simp only [run, List.foldlM_cons, List.foldlM_nil, bind_pure, step, if_neg hi]
  rw [if_pos hallowed]
  change (step _ _ _ _ turn) = _
  rw [hturn, Finset.erase_insert hi]

theorem load_turned (hi : i ∉ s.admitted) (r : Runtime) (w : World) (husage : w.usage = s.usage)
    (input : LoadInput) : Turned config s (r.load w config input).world.usage := by
  have hsession (hquota : (Runtime.quotaStage w config input).2.allowed = true) :
      Turned config s (Runtime.sessionStage w config input) := by
    unfold Runtime.sessionStage
    unfold Runtime.quotaStage at hquota ⊢
    rw [husage] at hquota ⊢
    exact admitted_turns hi hquota (.session i input.sessionNow input.sessionSave)
      (if_pos (Finset.mem_insert_self i s.admitted))
  have hcase := Runtime.load_case r w config input
  generalize r.load w config input = result at hcase
  cases hcase with
  | invalid => exact ⟨[], by rw [husage]; rfl⟩
  | denied _ hquota =>
      unfold Runtime.quotaStage at hquota ⊢
      rw [husage] at hquota ⊢
      exact checked_turns hi hquota
  | unresolved _ hquota => exact hsession hquota
  | rejected _ hquota => exact hsession hquota
  | engine _ hquota =>
      unfold Runtime.loadEngine
      dsimp only
      split <;> exact hsession hquota

theorem generate_turned (hi : i ∉ s.admitted) {r : Runtime} (hr : UsageRun.Configured config r)
    (w : World) (husage : w.usage = s.usage) (prompt : Bytes) (input : GenerateInput) :
    Turned config s (r.generate w prompt input).world.usage := by
  have hready (h : r.isReady = true) := hr (Bool.and_eq_true_iff.mp h).1
  have hcase := Runtime.generate_transactions (fun h => (hready h).2.1) w prompt input
  dsimp only at hcase
  rw [husage] at hcase
  rcases hcase with ⟨-, -, hsame⟩ | ⟨h, hdenied, -, hafter⟩ | ⟨h, hallowed, -, hafter⟩
  · rw [hsame]
    exact ⟨[], rfl⟩
  · rw [hafter]
    rw [(hready h).1] at hdenied ⊢
    exact checked_turns hi hdenied
  · rw [hafter]
    rw [(hready h).1] at hallowed ⊢
    have htokens := (r.engine.generate_frame prompt input.llama).2.2
    rw [(hready h).2.2] at htokens
    exact admitted_turns hi hallowed (.record i (r.engine.generate prompt input.llama).pieces.length
      input.recordNow input.recordSave) (if_pos ⟨Finset.mem_insert_self i s.admitted, htokens⟩)

end Calls

variable {statePath : Path} {policy : UsagePolicy} {maxTokens : Nat}

section Leads

variable {count : UsageState → Int} {limit cost : Int} {s s' : SharedUsage ι} {i : ι} {now : Int}
  {outcome : SaveOutcome}

end Leads

/-- The state of a period that began at 1000, after a number of generations. -/
def counted (n : Nat) : UsageState := { periodStartUnix := 1000, messagesUsedThisPeriod := n }

/-- A limit on messages and no other. -/
def messagePolicy (limit : Nat) : UsagePolicy := { dailyMessageLimit := limit }

section Reached

variable {limit n : Nat} {s : SharedUsage ι} {i : ι}

theorem counted_valid (h : (n : Int) ≤ UsageState.maxSaneCounter) :
    UsageStateStore.Valid (counted n) :=
  { UsageStateStore.valid_default with
    periodStart_nonneg := show (0 : Int) ≤ 1000 by decide
    periodStart_le := show (1000 : Int) ≤ UsageState.maxSaneTimestamp by decide
    messages_nonneg := Int.natCast_nonneg n
    messages_le := h }

theorem counted_current (limit n : Nat) :
    currentState (messagePolicy limit) (counted n) 1000 = counted n := rfl

def Holds (statePath : Path) (n : Nat) (s : SharedUsage ι) : Prop :=
  UsageStateStore.load s.usage statePath = (.ok, counted n)

theorem check_counted (h : Holds statePath n s) (hn : n < limit) (hi : i ∉ s.admitted) :
    step statePath (messagePolicy limit) maxTokens s (.check i 1000 .ok) =
      some { s with admitted := insert i s.admitted } := by
  have hallowed : (evaluate (messagePolicy limit) (counted n) 1000).allowed = true := by
    rw [evaluate_allowed_iff]
    refine ⟨fun htime => (lt_irrefl (0 : Int) htime.1).elim, fun hlimit => ?_,
      fun hlimit => (lt_irrefl (0 : Int) hlimit.1).elim⟩
    have hle : (limit : Int) ≤ n := hlimit.2
    omega
  have hrolled : ¬periodHasRolledOver (messagePolicy limit) (counted n) 1000 = true :=
    Bool.false_ne_true
  unfold step checkAdmission
  dsimp only
  rw [if_neg hi, h]
  dsimp only
  rw [if_neg nofun]
  dsimp only
  rw [if_neg hrolled, counted_current, if_pos hallowed]

theorem record_counted (h : Holds statePath n s) (hn : (n : Int) < UsageState.maxSaneCounter)
    (hi : i ∈ s.admitted) :
    ∃ s', step statePath (messagePolicy limit) maxTokens s (.record i 0 1000 .ok) = some s' ∧
      Holds statePath (n + 1) s' ∧ s'.admitted = s.admitted.erase i := by
  refine ⟨_, if_pos ⟨hi, Nat.zero_le _⟩, ?_, rfl⟩
  have hreturns := (recordGeneration_returns_iff s.usage statePath (messagePolicy limit) 0 1000
    .ok).mpr ⟨by rw [h]; nofun, rfl, fun _ => by decide⟩
  have hstored := (recordGeneration_load s.usage statePath (messagePolicy limit) 0 1000 .ok).1
    hreturns
  refine hstored.trans (congrArg (Prod.mk _) ?_)
  rw [h]
  dsimp only
  rw [counted_current, addGeneration_eq (counted_valid hn.le) le_rfl]
  change UsageState.mk 1 1000 (min ((n : Int) + 1) UsageState.maxSaneCounter)
    (min (0 + 0) UsageState.maxSaneCounter) 0 = UsageState.mk 1 1000 ((n + 1 : Nat) : Int) 0 0
  rw [min_eq_left hn, Nat.cast_succ]
  rfl

theorem generation_counted (h : Holds statePath n s) (hn : n < limit)
    (hsane : (n : Int) < UsageState.maxSaneCounter) (hi : i ∉ s.admitted) :
    ∃ s', run statePath (messagePolicy limit) maxTokens s
        [.check i 1000 .ok, .record i 0 1000 .ok] = some s' ∧
      Holds statePath (n + 1) s' ∧ s'.admitted = s.admitted := by
  obtain ⟨s', hrecord, hholds, hadmitted⟩ := @record_counted _ _ statePath maxTokens limit n
    { s with admitted := insert i s.admitted } i h hsane (Finset.mem_insert_self i s.admitted)
  refine ⟨s', ?_, hholds, hadmitted.trans (Finset.erase_insert hi)⟩
  simp only [run, List.foldlM_cons, List.foldlM_nil, bind_pure]
  rw [check_counted h hn hi]
  exact hrecord

theorem run_append (s : SharedUsage ι) (turns more : List (SharedTurn ι)) :
    run statePath policy maxTokens s (turns ++ more) =
      (run statePath policy maxTokens s turns).bind fun s' =>
        run statePath policy maxTokens s' more := by
  rw [run, List.foldlM_append]
  rfl

theorem generations_counted (h : Holds statePath 0 s) (hi : i ∉ s.admitted) (hn : n ≤ limit)
    (hsane : (n : Int) ≤ UsageState.maxSaneCounter) :
    ∃ s', run statePath (messagePolicy limit) maxTokens s
        (List.replicate n [.check i 1000 .ok, .record i 0 1000 .ok]).flatten = some s' ∧
      Holds statePath n s' ∧ s'.admitted = s.admitted := by
  induction n with
  | zero => exact ⟨s, rfl, h, rfl⟩
  | succ n ih =>
      rw [Nat.cast_succ] at hsane
      obtain ⟨s₁, hrun, hholds, hadmitted⟩ := ih (by omega) (by omega)
      rw [← hadmitted] at hi
      obtain ⟨s₂, hlast, hholds₂, hadmitted₂⟩ := @generation_counted _ _ statePath maxTokens limit n
        s₁ i hholds (by omega) (by omega) hi
      refine ⟨s₂, ?_, hholds₂, hadmitted₂.trans hadmitted⟩
      rw [List.replicate_succ', List.flatten_append, List.flatten_singleton, run_append, hrun]
      exact hlast

theorem checks_counted (h : Holds statePath n s) (hn : n < limit) {l : List ι} (hl : l.Nodup)
    (hnew : ∀ i ∈ l, i ∉ s.admitted) :
    run statePath (messagePolicy limit) maxTokens s (l.map fun i => .check i 1000 .ok) =
      some { s with admitted := s.admitted ∪ l.toFinset } := by
  induction l generalizing s with
  | nil => simp [run]
  | cons i l ih =>
      obtain ⟨hi, hl⟩ := List.nodup_cons.mp hl
      rw [List.forall_mem_cons] at hnew
      have hrest : ∀ j ∈ l, j ∉ insert i s.admitted := by
        intro j hj hmem
        rcases Finset.mem_insert.mp hmem with rfl | hmem
        · exact hi hj
        · exact hnew.2 j hj hmem
      have hrun := @ih { s with admitted := insert i s.admitted } h hl hrest
      rw [List.map_cons, run, List.foldlM_cons, check_counted h hn hnew.1]
      refine hrun.trans (congrArg (fun a => some (SharedUsage.mk s.usage a)) ?_)
      rw [List.toFinset_cons, Finset.union_insert, Finset.insert_union]

theorem records_counted (h : Holds statePath n s) {l : List ι} (hl : l.Nodup)
    (hsane : (n + l.length : Int) ≤ UsageState.maxSaneCounter) (hall : ∀ i ∈ l, i ∈ s.admitted) :
    ∃ s', run statePath (messagePolicy limit) maxTokens s
        (l.map fun i => .record i 0 1000 .ok) = some s' ∧ Holds statePath (n + l.length) s' := by
  induction l generalizing s n with
  | nil => exact ⟨s, rfl, h⟩
  | cons i l ih =>
      obtain ⟨hi, hl⟩ := List.nodup_cons.mp hl
      rw [List.forall_mem_cons] at hall
      rw [List.length_cons, Nat.cast_succ] at hsane
      obtain ⟨s₁, hrecord, hholds, hadmitted⟩ := @record_counted _ _ statePath maxTokens limit n s i h
        (by omega) hall.1
      have hrest : ∀ j ∈ l, j ∈ s₁.admitted := by
        intro j hj
        rw [hadmitted]
        exact Finset.mem_erase.mpr ⟨fun heq => hi (heq ▸ hj), hall.2 j hj⟩
      obtain ⟨s₂, hrun, hholds₂⟩ := ih hholds hl (by rw [Nat.cast_succ]; omega) hrest
      refine ⟨s₂, ?_, ?_⟩
      · rw [List.map_cons, run, List.foldlM_cons, hrecord]
        exact hrun
      · rw [List.length_cons, ← Nat.succ_add_eq_add_succ]
        exact hholds₂

theorem first_counted {usage : FileSystem} (habsent : usage statePath = .absent) (limit : Nat)
    (i : ι) :
    ∃ s', run statePath (messagePolicy limit) maxTokens ⟨usage, ∅⟩ [.check i 1000 .ok, .leave i] =
        some s' ∧ Holds statePath 0 s' ∧ s'.admitted = ∅ := by
  have hload : UsageStateStore.load usage statePath = (.notFound, {}) := by
    rw [UsageStateStore.load, habsent]
    rfl
  have hreadable : UsageStateLoadResult.notFound ≠ .corrupted := by decide
  have hstored := checkAdmission_stored usage statePath (messagePolicy limit) 1000 .ok
  have hdecision := checkAdmission_decision usage statePath (messagePolicy limit) 1000 .ok
  rw [hload, if_neg hreadable] at hdecision
  rw [hload, if_pos ⟨hreadable, rfl, rfl, by decide, by decide⟩] at hstored
  have hallowed : (checkAdmission usage statePath (messagePolicy limit) 1000 .ok).2.allowed =
      true := by
    rw [hdecision]
    exact allowed_of_rolled (.inl le_rfl) rfl
  refine ⟨⟨(checkAdmission usage statePath (messagePolicy limit) 1000 .ok).1, ∅⟩, ?_, hstored, rfl⟩
  simp only [run, List.foldlM_cons, List.foldlM_nil, bind_pure, step]
  rw [if_neg (Finset.notMem_empty i), if_pos hallowed]
  change (if i ∈ insert i ∅ then _ else _) = _
  rw [if_pos (Finset.mem_insert_self i ∅), Finset.erase_insert (Finset.notMem_empty i)]

/-- All sessions of a shared state file can be admitted on a counter that is one below the limit. -/
theorem shared_quota_reached [Fintype ι] [Nonempty ι] (statePath : Path) (maxTokens : Nat)
    {usage : FileSystem} (habsent : usage statePath = .absent) (hlimit : 0 < limit)
    (hsane : (limit - 1 + Fintype.card ι : Int) ≤ UsageState.maxSaneCounter) :
    ∃ turns s', (∀ turn ∈ turns, SharedTurn.Saves turn) ∧
      run statePath (messagePolicy limit) maxTokens (⟨usage, ∅⟩ : SharedUsage ι) turns = some s' ∧
      (s'.stored statePath).messagesUsedThisPeriod = limit - 1 + Fintype.card ι := by
  obtain ⟨i⟩ := ‹Nonempty ι›
  obtain ⟨s₁, hfirst, hholds₁, hadmitted₁⟩ :=
    @first_counted _ _ statePath maxTokens usage habsent limit i
  obtain ⟨s₂, hgenerations, hholds₂, hadmitted₂⟩ :=
    @generations_counted _ _ statePath maxTokens limit (limit - 1) s₁ i hholds₁
      (by rw [hadmitted₁]; exact Finset.notMem_empty i) (by omega) (by omega)
  rw [hadmitted₁] at hadmitted₂
  have hlength : (Finset.univ : Finset ι).toList.length = Fintype.card ι := by
    rw [Finset.length_toList, Finset.card_univ]
  have hchecks := @checks_counted _ _ statePath maxTokens limit (limit - 1) s₂ hholds₂ (by omega)
    Finset.univ.toList (Finset.nodup_toList _)
    (fun j _ => by rw [hadmitted₂]; exact Finset.notMem_empty j)
  obtain ⟨s₃, hrecords, hholds₃⟩ := @records_counted _ _ statePath maxTokens limit (limit - 1)
    { s₂ with admitted := s₂.admitted ∪ Finset.univ.toList.toFinset } hholds₂
    Finset.univ.toList (Finset.nodup_toList _) (by rw [hlength]; omega)
    (fun j hj => Finset.mem_union_right _ (List.mem_toFinset.mpr hj))
  refine ⟨SharedTurn.crowd limit i Finset.univ.toList, s₃, SharedTurn.crowd_saves _ _ _, ?_, ?_⟩
  · rw [SharedTurn.crowd, run_append, run_append, run_append, hfirst]
    change ((run _ _ _ s₁ _).bind _).bind _ = _
    rw [hgenerations]
    change (run _ _ _ s₂ _).bind _ = _
    rw [hchecks]
    exact hrecords
  · rw [stored, hholds₃, hlength]
    change ((limit - 1 + Fintype.card ι : Nat) : Int) = _
    rw [Nat.cast_add, Nat.cast_sub (by omega)]
    rfl

theorem shared_quota_reached_two : ∃ turns s', (∀ turn ∈ turns, SharedTurn.Saves turn) ∧
    run [] (messagePolicy 1) 0 (⟨UsageRun.absentUsage, ∅⟩ : SharedUsage Bool) turns = some s' ∧
      (s'.stored []).messagesUsedThisPeriod = ((1 : Nat) : Int) - 1 + Fintype.card Bool :=
  shared_quota_reached [] 0 rfl Nat.one_pos (by decide)

end Reached

end SharedUsage

end EdgeMind
