import EdgeMind.Core.UsageRuns

/-!
# Records that are lost

A generation is recorded after the engine has run, and what the record returns is not looked at. The
generations of one runtime are counted here beside the state file, whatever becomes of its saves:
the quota holds exactly as long as no generation is let through in the period of a lost record.
-/

namespace EdgeMind

open Framework UsageAccounting UsageManager

namespace UsageManager

/-- The stored state, rolled over if need be, denies a generation. -/
def Exhausted (policy : UsagePolicy) (state : UsageState) (now : Int) : Prop :=
  TimeExhausted policy state now ∨ LimitReached policy.dailyMessageLimit state.messagesUsedThisPeriod ∨
    LimitReached policy.dailyTokenLimit state.tokensUsedThisPeriod

theorem evaluate_allowed_iff_not_exhausted (policy : UsagePolicy) (state : UsageState) (now : Int) :
    (evaluate policy state now).allowed = true ↔ ¬Exhausted policy state now := by
  rw [evaluate_allowed_iff, Exhausted, not_or, not_or]

theorem checkAdmission_allowed_iff (fs : FileSystem) (statePath : Path) (policy : UsagePolicy)
    (now : Int) (outcome : SaveOutcome) :
    (checkAdmission fs statePath policy now outcome).2.allowed = true ↔
      (UsageStateStore.load fs statePath).1 ≠ .corrupted ∧
        ¬Exhausted policy (currentState policy (UsageStateStore.load fs statePath).2 now) now := by
  rw [checkAdmission_decision]
  split
  · next hload => simp [hload, corruptedDecision]
  · next hload => simp [hload, evaluate_allowed_iff_not_exhausted]

/-- The file after a record: that of the new state where it returned `true`, else the one that was
there. -/
theorem recordGeneration_file (fs : FileSystem) (statePath : Path) (policy : UsagePolicy)
    (tokens : Int) (now : Int) (outcome : SaveOutcome) :
    let record := recordGeneration fs statePath policy tokens now outcome
    let recorded :=
      addGeneration (currentState policy (UsageStateStore.load fs statePath).2 now) tokens
    (record.2 = true → record.1 statePath = .file (UsageStateStore.stateText recorded) true ∧
      UsageStateStore.Valid recorded) ∧
    (record.2 = false → record.1 statePath = fs statePath) := by
  intro record recorded
  have hrecord : record = recordGeneration fs statePath policy tokens now outcome := rfl
  unfold recordGeneration at hrecord
  dsimp only at hrecord
  split at hrecord
  · rw [hrecord]
    exact ⟨nofun, fun _ => rfl⟩
  · split at hrecord
    · rw [hrecord]
      exact ⟨nofun, fun _ => rfl⟩
    · rw [hrecord]
      exact ⟨fun h => ⟨UsageStateStore.save_file h,
        ((UsageStateStore.save_eq_true_iff _ _ _ _).mp h).2⟩, UsageStateStore.save_failed⟩

theorem recordGeneration_load (fs : FileSystem) (statePath : Path) (policy : UsagePolicy)
    (tokens : Int) (now : Int) (outcome : SaveOutcome) :
    let record := recordGeneration fs statePath policy tokens now outcome
    (record.2 = true → UsageStateStore.load record.1 statePath =
      (.ok, addGeneration (currentState policy (UsageStateStore.load fs statePath).2 now) tokens)) ∧
    (record.2 = false → UsageStateStore.load record.1 statePath =
      UsageStateStore.load fs statePath) := by
  obtain ⟨hsaved, hfailed⟩ := recordGeneration_file fs statePath policy tokens now outcome
  exact ⟨fun h => UsageStateStore.load_stateText (hsaved h).2 (hsaved h).1,
    fun h => UsageStateStore.load_congr (hfailed h)⟩

/-- The save of a record succeeds, and the start of a new period can be stored. -/
def RecordSaved (policy : UsagePolicy) (state : UsageState) (now : Int) (outcome : SaveOutcome) :
    Prop :=
  outcome = .ok ∧ (periodHasRolledOver policy state now = true →
    0 ≤ now ∧ now ≤ UsageState.maxSaneTimestamp)

instance (policy : UsagePolicy) (state : UsageState) (now : Int) (outcome : SaveOutcome) :
    Decidable (RecordSaved policy state now outcome) :=
  inferInstanceAs (Decidable (_ ∧ (_ → _)))

theorem recordGeneration_returns_iff (fs : FileSystem) (statePath : Path) (policy : UsagePolicy)
    (tokens : Nat) (now : Int) (outcome : SaveOutcome) :
    (recordGeneration fs statePath policy tokens now outcome).2 = true ↔
      (UsageStateStore.load fs statePath).1 ≠ .corrupted ∧
        RecordSaved policy (UsageStateStore.load fs statePath).2 now outcome := by
  have hvalid := generation_valid_iff policy (UsageStateStore.load_valid fs statePath)
    (Int.natCast_nonneg tokens) now
  unfold recordGeneration RecordSaved
  rw [if_neg (Int.not_lt.mpr (Int.natCast_nonneg tokens))]
  dsimp only
  split
  · next hload => simp [hload]
  · next hload => rw [UsageStateStore.save_eq_true_iff, hvalid, and_iff_right hload]

end UsageManager

/-- The record of a generation, which follows every run of the engine. -/
def Effect.isRecord : Effect → Bool
  | .recordGeneration _ _ => true
  | _ => false

/-- A generation call, in the surroundings in which it comes. -/
structure GenerateCall where
  world : World
  prompt : Bytes
  input : GenerateInput

/-- A runtime and the usage files. Beside them stand the start of the period of the last record, if
that returned `false`, and the generations that have reached the engine in the current period. The other
two fields are read off the outcomes of the saves and the clock: `unsaved` is the start of the period of
the last record, if that could not be saved, and `stale` tells that the last period which an admission
check has begun could not. -/
structure MeteredRun where
  runtime : Runtime
  usage : FileSystem
  lost : Option Int := none
  reached : Nat := 0
  unsaved : Option Int := none
  stale : Bool := false

namespace MeteredRun

variable (config : RuntimeConfig)

def stored (s : MeteredRun) : UsageState :=
  (UsageStateStore.load s.usage config.usageStatePath).2

/-- The current period is over: that of the lost record, or else the stored one. -/
def periodOver (s : MeteredRun) (now : Int) : Bool :=
  periodHasRolledOver (toUsagePolicy config)
    { periodStartUnix := s.lost.getD (s.stored config).periodStartUnix } now

def unsavedOver (s : MeteredRun) (now : Int) : Bool :=
  s.unsaved.all fun start => periodHasRolledOver (toUsagePolicy config) { periodStartUnix := start } now

def observe (s : MeteredRun) (now : Int) : MeteredRun :=
  let s' := if s.periodOver config now then { s with lost := none, reached := 0 } else s
  { s' with unsaved := if s.unsavedOver config now then none else s.unsaved }

def checked (s : MeteredRun) (input : GenerateInput) : MeteredRun :=
  let policy := toUsagePolicy config
  { s.observe config input.admissionNow with
    usage := (checkAdmission s.usage config.usageStatePath policy input.admissionNow
      input.admissionSave).1
    stale := if periodHasRolledOver policy (s.stored config) input.admissionNow then
        !decide (RolloverSaved policy (s.stored config) input.admissionNow input.admissionSave)
      else s.stale }

def recorded (s : MeteredRun) (tokens : Nat) (input : GenerateInput) : MeteredRun :=
  let record := recordGeneration s.usage config.usageStatePath (toUsagePolicy config) tokens
    input.recordNow input.recordSave
  let period := (currentState (toUsagePolicy config) (s.stored config) input.recordNow).periodStartUnix
  { s with
    usage := record.1
    lost := if record.2 then none else some period
    unsaved := if RecordSaved (toUsagePolicy config) (s.stored config) input.recordNow
      input.recordSave then none else some period
    reached := (s.observe config input.recordNow).reached + 1 }

/-- One call, and whether it has reached the engine. -/
def step (s : MeteredRun) (c : GenerateCall) : MeteredRun × Bool :=
  let result := s.runtime.generate { c.world with usage := s.usage } c.prompt c.input
  let tokens := (s.runtime.engine.generate c.prompt c.input.llama).pieces.length
  let reachesEngine := result.effects.any Effect.isRecord
  let s' := if ¬s.runtime.isReady then s
    else if reachesEngine then (s.checked config c.input).recorded config tokens c.input
    else s.checked config c.input
  ({ s' with runtime := result.runtime, usage := result.world.usage }, reachesEngine)

variable {config}

/-- What a call does: nothing while the runtime is not ready, the admission check where that refuses,
and otherwise the check and the record. -/
theorem step_case {s : MeteredRun} (hr : UsageRun.Configured config s.runtime) (c : GenerateCall) :
    let allowed := (checkAdmission s.usage config.usageStatePath (toUsagePolicy config)
      c.input.admissionNow c.input.admissionSave).2.allowed
    ∃ runtime,
      (¬s.runtime.isReady = true ∧ step config s c = ({ s with runtime }, false)) ∨
      (s.runtime.isReady = true ∧ ¬allowed = true ∧
        step config s c = ({ s.checked config c.input with runtime }, false)) ∨
      s.runtime.isReady = true ∧ allowed = true ∧ ∃ tokens,
        step config s c =
          ({ (s.checked config c.input).recorded config tokens c.input with runtime }, true) := by
  intro allowed
  refine ⟨(s.runtime.generate { c.world with usage := s.usage } c.prompt c.input).runtime, ?_⟩
  have hready (h : s.runtime.isReady = true) := hr (Bool.and_eq_true_iff.mp h).1
  have hcase := Runtime.generate_transactions (fun h => (hready h).2.1)
    { c.world with usage := s.usage } c.prompt c.input
  dsimp only at hcase
  unfold step
  dsimp only
  rcases hcase with ⟨hno, heffects, husage⟩ | ⟨h, hallowed, heffects, husage⟩ |
    ⟨h, hallowed, heffects, husage⟩
  · rw [heffects, husage, if_pos hno]
    exact .inl ⟨hno, rfl⟩
  · rw [(hready h).1] at hallowed heffects husage
    rw [heffects, husage, if_neg (not_not_intro h)]
    exact .inr (.inl ⟨h, hallowed, rfl⟩)
  · rw [(hready h).1] at hallowed heffects husage
    have hreaches : (s.runtime.generate { c.world with usage := s.usage } c.prompt
        c.input).effects.any Effect.isRecord = true := by
      rw [heffects, List.any_append]
      exact Bool.or_true _
    rw [hreaches, husage, if_neg (not_not_intro h), if_pos rfl]
    exact .inr (.inr ⟨h, hallowed, _, rfl⟩)

/-- A counter of the stored state has reached its limit. -/
def Full (config : RuntimeConfig) (s : MeteredRun) : Prop :=
  LimitReached (toUsagePolicy config).dailyMessageLimit (s.stored config).messagesUsedThisPeriod ∨
    LimitReached (toUsagePolicy config).dailyTokenLimit (s.stored config).tokensUsedThisPeriod

/-- `start` is the session start in the usage file. -/
structure Inv (config : RuntimeConfig) (start : Int) (s : MeteredRun) : Prop where
  configured : UsageRun.Configured config s.runtime
  valid : s.runtime.ready = true → validateConfig config = []
  intact : s.lost.isSome = true → (UsageStateStore.load s.usage config.usageStatePath).1 ≠ .corrupted
  unsaved : s.unsaved = s.lost
  session : (s.stored config).sessionStartUnix = start
  notFull : s.lost.isSome = true → s.stale = false → ¬Full config s

theorem recorded_intact {s : MeteredRun}
    (h : (UsageStateStore.load s.usage config.usageStatePath).1 ≠ .corrupted) (tokens : Nat)
    (input : GenerateInput) :
    (UsageStateStore.load (s.recorded config tokens input).usage config.usageStatePath).1 ≠
      .corrupted := by
  obtain ⟨hsaved, hlost⟩ := recordGeneration_load s.usage config.usageStatePath
    (toUsagePolicy config) tokens input.recordNow input.recordSave
  cases hrecord : (recordGeneration s.usage config.usageStatePath (toUsagePolicy config) tokens
      input.recordNow input.recordSave).2 with
  | true =>
      change (UsageStateStore.load (recordGeneration _ _ _ _ _ _).1 _).1 ≠ _
      rw [hsaved hrecord]
      nofun
  | false =>
      change (UsageStateStore.load (recordGeneration _ _ _ _ _ _).1 _).1 ≠ _
      rw [hlost hrecord]
      exact h

theorem checked_intact {s : MeteredRun}
    (h : (UsageStateStore.load s.usage config.usageStatePath).1 ≠ .corrupted)
    (input : GenerateInput) :
    (UsageStateStore.load (s.checked config input).usage config.usageStatePath).1 ≠
      .corrupted := by
  change (UsageStateStore.load (checkAdmission _ _ _ _ _).1 _).1 ≠ _
  rw [checkAdmission_stored]
  split
  · nofun
  · exact h

theorem checked_case (s : MeteredRun) (input : GenerateInput) :
    (s.periodOver config input.admissionNow = true ∧ (s.checked config input).lost = none ∧
      (s.checked config input).reached = 0) ∨
    (s.periodOver config input.admissionNow = false ∧ (s.checked config input).lost = s.lost ∧
      (s.checked config input).reached = s.reached) := by
  unfold checked observe
  split
  · next hover => exact .inl ⟨hover, rfl, rfl⟩
  · next hover => exact .inr ⟨Bool.eq_false_iff.mpr hover, rfl, rfl⟩

theorem checked_lost {s : MeteredRun} {input : GenerateInput}
    (h : (s.checked config input).lost.isSome = true) : s.lost.isSome = true := by
  obtain ⟨-, hlost, -⟩ | ⟨-, hlost, -⟩ := @checked_case config s input
  · rw [hlost] at h
    cases h
  · rw [← hlost]
    exact h

theorem observe_unsaved {s : MeteredRun} (h : s.unsaved = s.lost) (now : Int) :
    (s.observe config now).unsaved = (s.observe config now).lost := by
  have hlost : (s.observe config now).lost = if s.periodOver config now then none else s.lost := by
    unfold observe
    dsimp only
    split <;> rfl
  have hunsaved : (s.observe config now).unsaved =
      if s.unsavedOver config now then none else s.unsaved := rfl
  rw [hlost, hunsaved, h]
  cases hcase : s.lost with
  | none => simp
  | some start =>
      have hover : s.unsavedOver config now = s.periodOver config now := by
        rw [unsavedOver, periodOver, h, hcase]
        rfl
      rw [hover]

theorem recorded_unsaved {s : MeteredRun}
    (h : (UsageStateStore.load s.usage config.usageStatePath).1 ≠ .corrupted) (tokens : Nat)
    (input : GenerateInput) :
    (s.recorded config tokens input).unsaved = (s.recorded config tokens input).lost := by
  have hreturns := recordGeneration_returns_iff s.usage config.usageStatePath (toUsagePolicy config)
    tokens input.recordNow input.recordSave
  rw [and_iff_right h] at hreturns
  unfold recorded
  dsimp only
  rw [if_congr hreturns rfl rfl]
  rfl

/-- What an admission check leaves stored: the new period where that could be saved, else what was. -/
theorem checked_stored_case {s : MeteredRun}
    (h : (UsageStateStore.load s.usage config.usageStatePath).1 ≠ .corrupted) (input : GenerateInput) :
    let rolled := periodHasRolledOver (toUsagePolicy config) (s.stored config) input.admissionNow
    rolled = true ∧ (s.checked config input).stored config =
        rollOverPeriod (s.stored config) input.admissionNow ∨
      rolled = true ∧ (s.checked config input).stored config = s.stored config ∧
        (s.checked config input).stale = true ∨
      rolled = false ∧ (s.checked config input).stored config = s.stored config ∧
        (s.checked config input).stale = s.stale := by
  intro rolled
  have hstored : (s.checked config input).stored config = _ := congrArg Prod.snd
    (checkAdmission_stored s.usage config.usageStatePath (toUsagePolicy config) input.admissionNow
      input.admissionSave)
  have hstale : (s.checked config input).stale = if rolled then
      !decide (RolloverSaved (toUsagePolicy config) (s.stored config) input.admissionNow
        input.admissionSave)
      else s.stale := rfl
  by_cases hsaved : RolloverSaved (toUsagePolicy config) (s.stored config) input.admissionNow
      input.admissionSave
  · rw [if_pos ⟨h, hsaved⟩] at hstored
    exact .inl ⟨hsaved.1, hstored⟩
  · rw [if_neg fun hboth => hsaved hboth.2] at hstored
    cases hrolled : rolled with
    | true =>
        rw [hrolled, if_pos rfl, decide_eq_false hsaved] at hstale
        exact .inr (.inl ⟨rfl, hstored, hstale⟩)
    | false =>
        rw [hrolled, if_neg Bool.false_ne_true] at hstale
        exact .inr (.inr ⟨rfl, hstored, hstale⟩)

theorem checked_session (s : MeteredRun) (input : GenerateInput) :
    ((s.checked config input).stored config).sessionStartUnix =
      (s.stored config).sessionStartUnix := by
  have hstored : (s.checked config input).stored config = _ := congrArg Prod.snd
    (checkAdmission_stored s.usage config.usageStatePath (toUsagePolicy config) input.admissionNow
      input.admissionSave)
  rw [hstored]
  split <;> rfl

theorem recorded_stored (s : MeteredRun) (tokens : Nat) (input : GenerateInput) :
    ((s.recorded config tokens input).lost = none → (s.recorded config tokens input).stored config =
      addGeneration (currentState (toUsagePolicy config) (s.stored config) input.recordNow) tokens) ∧
    ((s.recorded config tokens input).lost.isSome = true →
      (s.recorded config tokens input).stored config = s.stored config) := by
  obtain ⟨hsaved, hlost⟩ := recordGeneration_load s.usage config.usageStatePath
    (toUsagePolicy config) tokens input.recordNow input.recordSave
  cases hrecord : (recordGeneration s.usage config.usageStatePath (toUsagePolicy config) tokens
      input.recordNow input.recordSave).2 with
  | true =>
      have hnone : (s.recorded config tokens input).lost = none := if_pos hrecord
      rw [hnone]
      exact ⟨fun _ => congrArg Prod.snd (hsaved hrecord), nofun⟩
  | false =>
      have hsome : (s.recorded config tokens input).lost = some _ :=
        if_neg (Bool.eq_false_iff.mp hrecord)
      rw [hsome]
      exact ⟨nofun, fun _ => congrArg Prod.snd (hlost hrecord)⟩

theorem recorded_session (s : MeteredRun) (tokens : Nat) (input : GenerateInput) :
    ((s.recorded config tokens input).stored config).sessionStartUnix =
      (s.stored config).sessionStartUnix := by
  obtain ⟨hsaved, hlost⟩ := @recorded_stored config s tokens input
  cases hrecord : (s.recorded config tokens input).lost with
  | none => rw [hsaved hrecord, addGeneration_sessionStart, currentState_sessionStart]
  | some start => rw [hlost (by rw [hrecord]; rfl)]

/-- Only a period that could not be saved leaves counters at their limit behind an admission check. -/
theorem checked_notFull {s : MeteredRun} {input : GenerateInput}
    (h : (UsageStateStore.load s.usage config.usageStatePath).1 ≠ .corrupted)
    (hbefore : periodHasRolledOver (toUsagePolicy config) (s.stored config) input.admissionNow = false →
      s.stale = false → ¬Full config s) (hstale : (s.checked config input).stale = false) :
    ¬Full config (s.checked config input) := by
  unfold Full
  rcases checked_stored_case h input with ⟨-, hstored⟩ | ⟨-, -, htrue⟩ | ⟨hrolled, hstored, hsame⟩
  · rw [hstored]
    simp only [LimitReached, rollOverPeriod]
    omega
  · rw [hstale] at htrue
    cases htrue
  · rw [hstored]
    exact hbefore hrolled (hsame ▸ hstale)

theorem notFull_of_allowed {s : MeteredRun} {input : GenerateInput}
    (h : ¬Exhausted (toUsagePolicy config)
      (currentState (toUsagePolicy config) (s.stored config) input.admissionNow) input.admissionNow)
    (hrolled : periodHasRolledOver (toUsagePolicy config) (s.stored config) input.admissionNow = false) :
    ¬Full config s := by
  rw [currentState, if_neg (Bool.eq_false_iff.mp hrolled)] at h
  exact fun hfull => h (.inr hfull)

theorem checked_runtime (s : MeteredRun) (input : GenerateInput) :
    (s.checked config input).runtime = s.runtime := by
  unfold checked observe
  dsimp only
  split <;> rfl

theorem Inv.checked {start : Int} {s : MeteredRun} (h : Inv config start s) (input : GenerateInput)
    (hload : (s.checked config input).lost.isSome = true →
      (UsageStateStore.load s.usage config.usageStatePath).1 ≠ .corrupted) :
    Inv config start (s.checked config input) where
  configured := checked_runtime s input ▸ h.configured
  valid := checked_runtime s input ▸ h.valid
  intact := fun hlost => checked_intact (hload hlost) input
  unsaved := observe_unsaved h.unsaved input.admissionNow
  session := (checked_session s input).trans h.session
  notFull := fun hlost hstale =>
    checked_notFull (hload hlost) (fun _ => h.notFull (checked_lost hlost)) hstale

theorem Inv.step {start : Int} {s : MeteredRun} (h : Inv config start s) (c : GenerateCall) :
    Inv config start (step config s c).1 := by
  have hruntime := s.runtime.generate_runtime { c.world with usage := s.usage } c.prompt c.input
  obtain ⟨engine, lastError, hruntime, -, -⟩ := hruntime
  have hstep : (MeteredRun.step config s c).1.runtime =
      (s.runtime.generate { c.world with usage := s.usage } c.prompt c.input).runtime := rfl
  have hconfigured := UsageRun.generate_configured h.configured
    { c.world with usage := s.usage } c.prompt c.input
  rw [← hstep] at hconfigured
  have hvalid : (MeteredRun.step config s c).1.runtime.ready = true → validateConfig config = [] := by
    rw [hstep, hruntime]
    exact h.valid
  obtain ⟨runtime, ⟨-, hcase⟩ | ⟨-, -, hcase⟩ | ⟨-, hallowed, tokens, hcase⟩⟩ :=
    step_case h.configured c
  · rw [hcase] at hconfigured hvalid ⊢
    exact { h with configured := hconfigured, valid := hvalid }
  · have hchecked := h.checked c.input fun hlost => h.intact (checked_lost hlost)
    rw [hcase] at hconfigured hvalid ⊢
    exact { hchecked with configured := hconfigured, valid := hvalid }
  · obtain ⟨hload, hadmitted⟩ := (checkAdmission_allowed_iff _ _ _ _ _).mp hallowed
    have hintact := checked_intact hload c.input
    rw [hcase] at hconfigured hvalid ⊢
    exact {
      configured := hconfigured
      valid := hvalid
      intact := fun _ => recorded_intact hintact tokens c.input
      unsaved := recorded_unsaved hintact tokens c.input
      session := (recorded_session _ tokens c.input).trans ((checked_session s c.input).trans h.session)
      notFull := by
        intro hlost hstale
        have hnotFull := checked_notFull hload
          (fun hrolled _ => notFull_of_allowed hadmitted hrolled) hstale
        unfold Full at hnotFull ⊢
        rwa [← (recorded_stored _ tokens c.input).2 hlost] at hnotFull }

/-- The limit is kept, and as long as no record is lost the file has counted every generation. -/
structure Counted (config : RuntimeConfig) (s : MeteredRun) : Prop where
  limit : (s.reached : Int) ≤ (toUsagePolicy config).dailyMessageLimit
  stored : s.lost = none → s.reached ≤ (s.stored config).messagesUsedThisPeriod

theorem stored_nonneg (config : RuntimeConfig) (s : MeteredRun) :
    0 ≤ (s.stored config).messagesUsedThisPeriod :=
  (UsageStateStore.load_valid _ _).messages_nonneg

theorem periodOver_stored {s : MeteredRun} (h : s.lost = none) (now : Int) :
    s.periodOver config now = periodHasRolledOver (toUsagePolicy config) (s.stored config) now := by
  rw [periodOver, h]
  rfl

theorem checked_stored {s : MeteredRun} {input : GenerateInput}
    (h : periodHasRolledOver (toUsagePolicy config) (s.stored config) input.admissionNow = false) :
    (s.checked config input).stored config = s.stored config := by
  change (UsageStateStore.load (checkAdmission _ _ _ _ _).1 _).2 = _
  rw [checkAdmission_stored, if_neg]
  · rfl
  · intro hsaved
    rw [stored] at h
    rw [hsaved.2.1] at h
    cases h

theorem Counted.checked {s : MeteredRun} (h : Counted config s)
    (hlimit : 0 < (toUsagePolicy config).dailyMessageLimit) (input : GenerateInput) :
    Counted config (s.checked config input) := by
  obtain ⟨-, -, hreached⟩ | ⟨hover, hlost, hreached⟩ := @checked_case config s input
  · constructor
    · rw [hreached]
      exact hlimit.le
    · intro _
      rw [hreached]
      exact stored_nonneg config (s.checked config input)
  · refine ⟨hreached ▸ h.limit, fun hnone => ?_⟩
    rw [hlost] at hnone
    rw [periodOver_stored hnone] at hover
    rw [hreached, checked_stored hover]
    exact h.stored hnone

theorem Counted.recorded {s : MeteredRun} (h : Counted config s) (hlost : s.lost = none)
    (hbelow : (s.reached : Int) < (toUsagePolicy config).dailyMessageLimit)
    (hlimit : (toUsagePolicy config).dailyMessageLimit ≤ UsageState.maxSaneCounter) (tokens : Nat)
    (input : GenerateInput) : Counted config (s.recorded config tokens input) := by
  have hstored := h.stored hlost
  have hover : s.periodOver config input.recordNow = _ := periodOver_stored hlost input.recordNow
  have hreached : (s.recorded config tokens input).reached =
      if periodHasRolledOver (toUsagePolicy config) (s.stored config) input.recordNow then 1
      else s.reached + 1 := by
    change (s.observe config input.recordNow).reached + 1 = _
    rw [observe, hover]
    split <;> rfl
  constructor
  · rw [hreached]
    split <;> omega
  · intro hnone
    rw [hreached, (recorded_stored s tokens input).1 hnone, addGeneration_messages, currentState]
    split
    · have hfirst : (0 : Int) < UsageState.maxSaneCounter := by decide
      rw [rollOverPeriod, if_pos hfirst]
      rfl
    · split <;> omega

/-- A call in the period of a lost record does not reach the engine. -/
def FailsClosed (config : RuntimeConfig) (s : MeteredRun) (c : GenerateCall) : Prop :=
  s.lost.isSome = true → s.periodOver config c.input.admissionNow = false →
    (step config s c).2 = false

def WithinLimit (config : RuntimeConfig) (s : MeteredRun) : Prop :=
  0 < config.dailyMessageLimit → (s.reached : Int) ≤ config.dailyMessageLimit.toInt

/-- A call in the period of a lost record finds the stored state exhausted. -/
def ExhaustedIfLost (config : RuntimeConfig) (s : MeteredRun) (c : GenerateCall) : Prop :=
  s.runtime.isReady = true → s.lost.isSome = true →
    s.periodOver config c.input.admissionNow = false →
    Exhausted (toUsagePolicy config)
      (currentState (toUsagePolicy config) (s.stored config) c.input.admissionNow)
      c.input.admissionNow

/-- The time of a session that began at `start` is used up. -/
def SessionOver (config : RuntimeConfig) (start now : Int) : Prop :=
  0 < config.sessionTimeLimitSeconds.toInt ∧ 0 < start ∧
    start + config.sessionTimeLimitSeconds.toInt ≤ now

/-- A call of a ready runtime comes in the period of a record that could not be saved only once the
session is over, or with the clock back in a stored period whose successor could not be saved and whose
counters have reached a limit. -/
def Covered (config : RuntimeConfig) (start : Int) (s : MeteredRun) (c : GenerateCall) : Prop :=
  s.runtime.isReady = true → s.unsaved.isSome = true →
    s.unsavedOver config c.input.admissionNow = false →
    SessionOver config start c.input.admissionNow ∨
      s.stale = true ∧ Full config s ∧
        periodHasRolledOver (toUsagePolicy config) (s.stored config) c.input.admissionNow = false

theorem failsClosed_iff {start : Int} {s : MeteredRun} (h : Inv config start s) (c : GenerateCall) :
    FailsClosed config s c ↔ ExhaustedIfLost config s c := by
  unfold FailsClosed ExhaustedIfLost
  obtain ⟨runtime, ⟨hready, hcase⟩ | ⟨hready, hallowed, hcase⟩ | ⟨hready, hallowed, tokens, hcase⟩⟩ :=
    step_case h.configured c
  · simp [hcase, hready]
  · rw [checkAdmission_allowed_iff, not_and, not_not] at hallowed
    rw [hcase]
    exact ⟨fun _ _ hlost _ => hallowed (h.intact hlost), fun _ _ _ => rfl⟩
  · rw [checkAdmission_allowed_iff] at hallowed
    rw [hcase]
    constructor
    · intro hclosed _ hlost hover
      cases hclosed hlost hover
    · intro hexhausted hlost hover
      exact absurd (hexhausted hready hlost hover) hallowed.2

/-- While a record is lost, only the session time denies, or counters that belong to a period which an
admission check has left without saving the next one. -/
theorem exhausted_iff {start : Int} {s : MeteredRun} (h : Inv config start s)
    (hlost : s.lost.isSome = true) (now : Int) :
    Exhausted (toUsagePolicy config) (currentState (toUsagePolicy config) (s.stored config) now) now ↔
      SessionOver config start now ∨ s.stale = true ∧ Full config s ∧
        periodHasRolledOver (toUsagePolicy config) (s.stored config) now = false := by
  have htime : TimeExhausted (toUsagePolicy config)
      (currentState (toUsagePolicy config) (s.stored config) now) now ↔
        SessionOver config start now := by
    rw [TimeExhausted, currentState_sessionStart, h.session]
    simp only [SessionOver, toUsagePolicy]
    omega
  unfold Exhausted
  rw [htime]
  refine or_congr_right ?_
  cases hrolled : periodHasRolledOver (toUsagePolicy config) (s.stored config) now with
  | true =>
      rw [currentState_rolled hrolled]
      simp only [LimitReached, rollOverPeriod, Bool.true_eq_false, and_false, iff_false]
      omega
  | false =>
      rw [currentState, if_neg (Bool.eq_false_iff.mp hrolled)]
      constructor
      · intro hfull
        refine ⟨?_, hfull, rfl⟩
        by_contra hstale
        exact h.notFull hlost (Bool.eq_false_iff.mpr hstale) hfull
      · exact fun hstale => hstale.2.1

theorem unsavedOver_eq {s : MeteredRun} (h : s.unsaved = s.lost) (hlost : s.lost.isSome = true)
    (now : Int) : s.unsavedOver config now = s.periodOver config now := by
  obtain ⟨start, hstart⟩ := Option.isSome_iff_exists.mp hlost
  rw [unsavedOver, periodOver, h, hstart]
  rfl

theorem covered_iff {start : Int} {s : MeteredRun} (h : Inv config start s) (c : GenerateCall) :
    ExhaustedIfLost config s c ↔ Covered config start s c := by
  unfold ExhaustedIfLost Covered
  rw [h.unsaved]
  refine forall_congr' fun _ => forall_congr' fun hlost => ?_
  rw [unsavedOver_eq h.unsaved hlost, exhausted_iff h hlost]

theorem Counted.admitted {s : MeteredRun} (h : Counted config s)
    (hlimit : 0 < (toUsagePolicy config).dailyMessageLimit) {input : GenerateInput}
    (hnone : s.periodOver config input.admissionNow = false → s.lost = none)
    (hadmitted : ¬Exhausted (toUsagePolicy config)
      (currentState (toUsagePolicy config) (s.stored config) input.admissionNow)
      input.admissionNow) :
    (s.checked config input).lost = none ∧
      ((s.checked config input).reached : Int) < (toUsagePolicy config).dailyMessageLimit := by
  obtain ⟨-, hlost, hreached⟩ | ⟨hover, hlost, hreached⟩ := @checked_case config s input
  · rw [hlost, hreached]
    exact ⟨rfl, hlimit⟩
  · have hnone := hnone hover
    rw [periodOver_stored hnone] at hover
    rw [currentState, if_neg (Bool.eq_false_iff.mp hover)] at hadmitted
    rw [Exhausted, not_or, not_or, LimitReached] at hadmitted
    have hstored := h.stored hnone
    rw [hlost, hreached]
    refine ⟨hnone, ?_⟩
    omega

theorem Counted.step {start : Int} {s : MeteredRun} (h : Counted config s) (hinv : Inv config start s)
    (hlimit : 0 < (toUsagePolicy config).dailyMessageLimit) {c : GenerateCall}
    (hexhausted : ExhaustedIfLost config s c) : Counted config (step config s c).1 := by
  have hchecked := h.checked hlimit c.input
  obtain ⟨runtime, ⟨-, hcase⟩ | ⟨-, -, hcase⟩ | ⟨hready, hallowed, tokens, hcase⟩⟩ :=
    step_case hinv.configured c
  · rw [hcase]
    exact ⟨h.limit, h.stored⟩
  · rw [hcase]
    exact ⟨hchecked.limit, hchecked.stored⟩
  · rw [hcase]
    have hadmitted := ((checkAdmission_allowed_iff _ _ _ _ _).mp hallowed).2
    have hnone (hover : s.periodOver config c.input.admissionNow = false) : s.lost = none := by
      by_contra hlost
      exact hadmitted (hexhausted hready (Option.isSome_iff_ne_none.mpr hlost) hover)
    obtain ⟨hlost, hbelow⟩ := h.admitted hlimit hnone hadmitted
    have hvalid := validConfig_of_validateConfig (hinv.valid (Bool.and_eq_true_iff.mp hready).1)
    have hrecorded := hchecked.recorded hlost hbelow hvalid.messages_le tokens c.input
    exact ⟨hrecorded.limit, hrecorded.stored⟩

theorem inv_start (r : Runtime) (w : World) (config : RuntimeConfig) (input : LoadInput)
    (usage : FileSystem) :
    Inv config (UsageStateStore.load usage config.usageStatePath).2.sessionStartUnix
      { runtime := (r.load w config input).runtime, usage } where
  configured := UsageRun.load_configured r w config input
  valid := by
    intro hready
    have hcase := Runtime.load_case r w config input
    generalize r.load w config input = result at hcase hready
    cases hcase with
    | engine hconfig => exact hconfig
    | _ => cases hready
  intact := nofun
  unsaved := rfl
  session := rfl
  notFull := nofun

/-- Over every run of generations after a load, whatever the usage file holds and whichever saves
fail: the calls in the period of a lost record are all refused, and the generations of a period keep
the message limit, exactly if every such call comes when the session time is used up, or with the clock
back in a full period whose successor could not be saved. -/
theorem failsClosed_withinLimit_iff (r : Runtime) (w : World) (config : RuntimeConfig)
    (input : LoadInput) (usage : FileSystem) (calls : List GenerateCall) :
    let start := (UsageStateStore.load usage config.usageStatePath).2.sessionStartUnix
    let run := trace (step config) { runtime := (r.load w config input).runtime, usage } calls
    (∀ e ∈ run, FailsClosed config e.before e.input ∧
        WithinLimit config (step config e.before e.input).1) ↔
      ∀ e ∈ run, Covered config start e.before e.input := by
  intro start run
  have hinv := @trace_invariant _ _ _ (step config) (Inv config start) (fun _ _ => True)
    (fun s c _ h => h.step c) _ (inv_start r w config input usage) calls (fun _ _ => trivial)
  constructor
  · intro h e he
    exact (covered_iff (hinv e he).1 e.input).mp
      ((failsClosed_iff (hinv e he).1 e.input).mp (h e he).1)
  · intro h
    have hexhausted : ∀ e ∈ run, ExhaustedIfLost config e.before e.input :=
      fun e he => (covered_iff (hinv e he).1 e.input).mpr (h e he)
    intro e he
    refine ⟨(failsClosed_iff (hinv e he).1 e.input).mpr (hexhausted e he), fun hlimit => ?_⟩
    have hpos : 0 < (toUsagePolicy config).dailyMessageLimit := Int64.lt_iff_toInt_lt.mp hlimit
    have hcounted := @trace_invariant _ _ _ (step config)
      (fun s => Inv config start s ∧ Counted config s) (ExhaustedIfLost config)
      (fun s c hc hs => ⟨hs.1.step c, hs.2.step hs.1 hpos hc⟩) _
      ⟨inv_start r w config input usage, ⟨hpos.le, fun _ => stored_nonneg _ _⟩⟩ calls hexhausted e he
    exact (hcounted.1.2.step hcounted.1.1 hpos (hexhausted e he)).limit

def unsavedCall : GenerateCall where
  world := Runtime.sampleWorld
  prompt := []
  input := { UsageRun.sampleGenerate with
    admissionSave := .writeFails 0
    recordSave := .writeFails 0 }

/-- After a load, with a usage file that cannot be written. -/
def unsavedStart : MeteredRun where
  runtime := (({} : Runtime).load Runtime.sampleWorld UsageRun.meteredConfig
    Runtime.sampleInput).runtime
  usage := UsageRun.absentUsage

/-- Two generations at one time under a limit of one message both reach the engine. -/
theorem failsClosed_unsaved :
    let run := trace (step UsageRun.meteredConfig) unsavedStart [unsavedCall, unsavedCall]
    run.map Entry.output = [true, true] ∧
      (final (step UsageRun.meteredConfig) unsavedStart [unsavedCall, unsavedCall]).reached = 2 ∧
      (∃ e ∈ run, ¬FailsClosed UsageRun.meteredConfig e.before e.input) ∧
      ∃ e ∈ run, ¬WithinLimit UsageRun.meteredConfig
        (step UsageRun.meteredConfig e.before e.input).1 := by
  let second := (step UsageRun.meteredConfig unsavedStart unsavedCall).1
  have hreaches : (step UsageRun.meteredConfig second unsavedCall).2 = true := by decide +kernel
  have hreached : (step UsageRun.meteredConfig second unsavedCall).1.reached = 2 := by
    decide +kernel
  have hmem : ⟨second, unsavedCall, true⟩ ∈
      trace (step UsageRun.meteredConfig) unsavedStart [unsavedCall, unsavedCall] := by
    rw [← hreaches]
    exact List.mem_cons_of_mem _ List.mem_cons_self
  refine ⟨by decide +kernel, hreached, ⟨_, hmem, fun hclosed => ?_⟩, ⟨_, hmem, fun hwithin => ?_⟩⟩
  · have hdenied := hclosed (by decide +kernel) (by decide +kernel)
    dsimp only at hdenied
    rw [hreaches] at hdenied
    cases hdenied
  · have hle := hwithin (by decide)
    dsimp only at hle
    rw [hreached] at hle
    exact absurd hle (by decide)

end MeteredRun

end EdgeMind
