import EdgeMind.Core.Pipeline
import EdgeMind.Usage.Enforcement

/-!
# Quota enforcement over runs

The calls of one runtime under one configuration, on usage files that only its own transactions
write. Every call is a sequence of transactions on the state file, so the accounting that each
transaction keeps holds after every transaction of every run.
-/

namespace EdgeMind

open Framework UsageAccounting UsageManager

def Effect.point? : Effect → Option UsagePoint
  | .checkAdmission now usage => some ⟨.checkAdmission, now, usage⟩
  | .sessionStart now usage => some ⟨.sessionStart, now, usage⟩
  | .recordGeneration now usage => some ⟨.recordGeneration, now, usage⟩
  | _ => none

/-- A runtime, the usage files, and the transactions on them so far. -/
structure UsageRun where
  runtime : Runtime := {}
  usage : FileSystem
  points : List UsagePoint := []

namespace UsageRun

/-- One call; the model and registry files are those of the given surroundings. -/
def step (s : UsageRun) (wc : World × Runtime.Call) : UsageRun × List Effect :=
  let result := s.runtime.call { wc.1 with usage := s.usage } wc.2
  ({ runtime := result.runtime
     usage := result.world.usage
     points := s.points ++ result.effects.filterMap Effect.point? }, result.effects)

/-- A call under the configuration, with saves that succeed. -/
def Fixed (config : RuntimeConfig) : Runtime.Call → Prop
  | .load config' input => config' = config ∧ input.admissionSave = .ok ∧ input.sessionSave = .ok
  | .generate _ input => input.admissionSave = .ok ∧ input.recordSave = .ok
  | _ => True

/-- A ready runtime works under the configuration. -/
def Configured (config : RuntimeConfig) (r : Runtime) : Prop :=
  r.ready = true → toUsagePolicy r.config = toUsagePolicy config ∧
    r.usageManager = some config.usageStatePath ∧ r.engine.config.maxTokens = config.maxTokens

/-- The usage files are tracked under the configuration. -/
abbrev Tracks (config : RuntimeConfig) (usage : FileSystem) (points : List UsagePoint) : Prop :=
  Tracked config.usageStatePath (toUsagePolicy config) config.maxTokens.toInt usage points

structure Inv (config : RuntimeConfig) (s : UsageRun) : Prop where
  configured : Configured config s.runtime
  tracked : Clocked s.points → Tracks config s.usage s.points

theorem policy_pos {config : RuntimeConfig} (hconfig : validateConfig config = []) :
    0 < (toUsagePolicy config).resetPeriodSeconds ∧ 0 ≤ config.maxTokens.toInt := by
  have hvalid := validConfig_of_validateConfig hconfig
  have hreset := hvalid.policy.2.2.2
  have hmax : 0 < config.maxTokens.toInt := Int32.lt_iff_toInt_lt.mp hvalid.maxTokens_pos
  exact ⟨by omega, hmax.le⟩

private theorem checked_tracked {config : RuntimeConfig} (hconfig : validateConfig config = [])
    {usage after : FileSystem} {points more : List UsagePoint} (now : Int)
    (h : Clocked points → Tracks config usage points)
    (hmore : more = [] ∧ after = usage ∨
      more = [checkPoint usage config.usageStatePath (toUsagePolicy config) now] ∧
        after = (checkPoint usage config.usageStatePath (toUsagePolicy config) now).usage)
    (hclocked : Clocked (points ++ more)) : Tracks config after (points ++ more) := by
  obtain ⟨hreset, hmax⟩ := policy_pos hconfig
  rcases hmore with ⟨rfl, rfl⟩ | ⟨rfl, rfl⟩
  · rw [List.append_nil] at hclocked ⊢
    exact h hclocked
  · exact ((h hclocked.left).check hclocked hreset hmax).1

theorem load_points (r : Runtime) (w : World) (config : RuntimeConfig) {input : LoadInput}
    (hadmission : input.admissionSave = .ok) (hsession : input.sessionSave = .ok) :
    let check := checkPoint w.usage config.usageStatePath (toUsagePolicy config) input.admissionNow
    let session := sessionPoint check.usage config.usageStatePath input.sessionNow
    let result := r.load w config input
    result.effects.filterMap Effect.point? = [] ∧ result.world.usage = w.usage ∨
      result.effects.filterMap Effect.point? = [check] ∧ result.world.usage = check.usage ∨
      result.effects.filterMap Effect.point? = [check, session] ∧
        result.world.usage = session.usage := by
  intro check session result
  have hcheck : (Runtime.quotaStage w config input).1 = check.usage := by
    rw [Runtime.quotaStage, hadmission]
    rfl
  have hstart : Runtime.sessionStage w config input = session.usage := by
    rw [Runtime.sessionStage, hcheck, hsession]
    rfl
  have heffects : (Runtime.sessionEffects w config input).filterMap Effect.point? =
      [check, session] := by
    rw [Runtime.sessionEffects, hcheck, hstart]
    rfl
  have hcase : Runtime.LoadCase r w config input result := Runtime.load_case r w config input
  generalize result = result at hcase
  cases hcase with
  | invalid => exact .inl ⟨rfl, rfl⟩
  | denied =>
      refine .inr (.inl ⟨?_, hcheck⟩)
      rw [hcheck]
      rfl
  | unresolved => exact .inr (.inr ⟨heffects, hstart⟩)
  | rejected =>
      refine .inr (.inr ⟨?_, hstart⟩)
      rw [List.filterMap_append, heffects]
      rfl
  | engine =>
      refine .inr (.inr ⟨?_, ?_⟩)
      · rw [Runtime.loadEngine_effects, List.filterMap_append, List.filterMap_append, heffects]
        simp [Effect.point?]
      · unfold Runtime.loadEngine
        dsimp only
        split <;> exact hstart

theorem load_configured (r : Runtime) (w : World) (config : RuntimeConfig) (input : LoadInput) :
    Configured config (r.load w config input).runtime := by
  have hcase := Runtime.load_case r w config input
  generalize r.load w config input = result at hcase
  cases hcase with
  | engine =>
      unfold Runtime.loadEngine
      dsimp only
      split
      · exact nofun
      · next herror =>
          intro _
          refine ⟨rfl, rfl, ?_⟩
          dsimp only
          rw [(InferenceEngine.load_ok (not_not.mp herror)).2]
          rfl
  | _ => exact nofun

theorem load_tracked {config : RuntimeConfig} (hconfig : validateConfig config = []) {w : World}
    {points : List UsagePoint} (h : Clocked points → Tracks config w.usage points) (r : Runtime)
    {input : LoadInput} (hadmission : input.admissionSave = .ok) (hsession : input.sessionSave = .ok)
    (hclocked : Clocked (points ++ (r.load w config input).effects.filterMap Effect.point?)) :
    Tracks config (r.load w config input).world.usage
      (points ++ (r.load w config input).effects.filterMap Effect.point?) := by
  obtain ⟨hreset, hmax⟩ := policy_pos hconfig
  have hpoints := load_points r w config hadmission hsession
  dsimp only at hpoints
  rcases hpoints with hpoints | hpoints | ⟨hpoints, husage⟩
  · exact checked_tracked hconfig input.admissionNow h (.inl hpoints) hclocked
  · exact checked_tracked hconfig input.admissionNow h (.inr hpoints) hclocked
  · rw [hpoints, List.append_cons] at hclocked ⊢
    rw [husage]
    have hcheck := (h hclocked.left.left).check hclocked.left hreset hmax
    exact hcheck.1.session hclocked (List.append_ne_nil_of_right_ne_nil _ (List.cons_ne_nil _ _))

/-- The transactions of a generation: none where the runtime is not ready, the admission check
where that refuses, and otherwise the check and the record of at most as many tokens as
configured. -/
theorem generate_points {config : RuntimeConfig} {r : Runtime} (hr : Configured config r)
    (w : World) (prompt : Bytes) (input : GenerateInput) (hadmission : input.admissionSave = .ok)
    (hrecord : input.recordSave = .ok) :
    let check := checkPoint w.usage config.usageStatePath (toUsagePolicy config) input.admissionNow
    let allowed := (checkAdmission w.usage config.usageStatePath (toUsagePolicy config)
      input.admissionNow .ok).2.allowed
    let record (tokens : Nat) := recordPoint check.usage config.usageStatePath
      (toUsagePolicy config) tokens input.recordNow
    let result := r.generate w prompt input
    (¬r.isReady = true ∧ result.effects.filterMap Effect.point? = [] ∧
        result.world.usage = w.usage) ∨
      (¬allowed = true ∧ result.effects.filterMap Effect.point? = [check] ∧
        result.world.usage = check.usage) ∨
      ∃ tokens : Nat, tokens ≤ config.maxTokens.toNatClampNeg ∧ allowed = true ∧
        result.effects.filterMap Effect.point? = [check, record tokens] ∧
        result.world.usage = (record tokens).usage := by
  intro check allowed record result
  have hready (h : r.isReady = true) := hr (Bool.and_eq_true_iff.mp h).1
  have hcase := Runtime.generate_transactions (fun h => (hready h).2.1) w prompt input
  dsimp only at hcase
  rcases hcase with ⟨hno, heffects, husage⟩ | ⟨h, hallowed, heffects, husage⟩ |
    ⟨h, hallowed, heffects, husage⟩
  · exact .inl ⟨hno, by rw [heffects]; rfl, husage⟩
  · obtain ⟨hpolicy, -, -⟩ := hready h
    rw [hpolicy, hadmission] at hallowed heffects husage
    exact .inr (.inl ⟨hallowed, by rw [heffects]; rfl, husage⟩)
  · obtain ⟨hpolicy, -, hmax⟩ := hready h
    rw [hpolicy, hadmission] at hallowed
    rw [hpolicy, hadmission, hrecord] at heffects husage
    have hframe := (r.engine.generate_frame prompt input.llama).2.2
    rw [hmax] at hframe
    refine .inr (.inr ⟨_, hframe, hallowed, ?_, husage⟩)
    rw [heffects, List.filterMap_append, List.filterMap_append, Runtime.filterMap_llama fun _ => rfl]
    rfl

theorem generate_configured {config : RuntimeConfig} {r : Runtime} (hr : Configured config r)
    (w : World) (prompt : Bytes) (input : GenerateInput) :
    Configured config (r.generate w prompt input).runtime := by
  obtain ⟨engine, lastError, hruntime, -, hengine⟩ := r.generate_runtime w prompt input
  rw [hruntime]
  intro hready
  obtain ⟨hpolicy, hmanager, hmax⟩ := hr hready
  exact ⟨hpolicy, hmanager, hengine ▸ hmax⟩

theorem generate_tracked {config : RuntimeConfig} (hconfig : validateConfig config = [])
    {r : Runtime} (hr : Configured config r) {w : World} {points : List UsagePoint}
    (h : Clocked points → Tracks config w.usage points) (prompt : Bytes) {input : GenerateInput}
    (hadmission : input.admissionSave = .ok) (hrecord : input.recordSave = .ok)
    (hclocked : Clocked (points ++ (r.generate w prompt input).effects.filterMap Effect.point?)) :
    Tracks config (r.generate w prompt input).world.usage
      (points ++ (r.generate w prompt input).effects.filterMap Effect.point?) := by
  obtain ⟨hreset, hmax⟩ := policy_pos hconfig
  have hpoints := generate_points hr w prompt input hadmission hrecord
  dsimp only at hpoints
  rcases hpoints with ⟨-, hpoints⟩ | ⟨-, hpoints⟩ | ⟨tokens, htokens, hallowed, hpoints, husage⟩
  · exact checked_tracked hconfig input.admissionNow h (.inl hpoints) hclocked
  · exact checked_tracked hconfig input.admissionNow h (.inr hpoints) hclocked
  · rw [hpoints, List.append_cons] at hclocked ⊢
    rw [husage]
    obtain ⟨hcheck, state, hload, hdecision⟩ :=
      (h hclocked.left.left).check hclocked.left hreset hmax
    rw [hdecision] at hallowed
    refine hcheck.record hclocked hreset hload hallowed ⟨Int.natCast_nonneg _, ?_⟩
    rw [Int32.toNatClampNeg] at htokens
    omega

theorem points_llama (points : List UsagePoint) (effects : List LlamaCall) :
    points ++ (effects.map Effect.llama).filterMap Effect.point? = points := by
  rw [Runtime.filterMap_llama fun _ => rfl, List.append_nil]

theorem step_inv {config : RuntimeConfig} (hconfig : validateConfig config = []) (s : UsageRun)
    (wc : World × Runtime.Call) (hfixed : Fixed config wc.2) (h : Inv config s) :
    Inv config (step s wc).1 := by
  obtain ⟨w, call⟩ := wc
  cases call with
  | load config' input =>
      obtain ⟨rfl, hadmission, hsession⟩ := hfixed
      exact {
        configured := load_configured s.runtime _ config' input
        tracked := load_tracked hconfig (w := { w with usage := s.usage }) h.tracked s.runtime
          hadmission hsession }
  | unload =>
      have hpoints : (step s (w, .unload)).1.points = s.points := points_llama _ _
      refine ⟨nofun, fun hclocked => ?_⟩
      rw [hpoints] at hclocked ⊢
      exact h.tracked hclocked
  | generate prompt input =>
      obtain ⟨hadmission, hrecord⟩ := hfixed
      exact {
        configured := generate_configured h.configured _ prompt input
        tracked := generate_tracked hconfig h.configured (w := { w with usage := s.usage })
          h.tracked prompt hadmission hrecord }
  | resetContext hasMemory =>
      have hpoints : (step s (w, .resetContext hasMemory)).1.points = s.points := points_llama _ _
      refine ⟨h.configured, fun hclocked => ?_⟩
      rw [hpoints] at hclocked ⊢
      exact h.tracked hclocked

theorem run_inv {config : RuntimeConfig} (hconfig : validateConfig config = [])
    {usage : FileSystem} (habsent : usage config.usageStatePath = .absent)
    {calls : List (World × Runtime.Call)} (hcalls : ∀ wc ∈ calls, Fixed config wc.2) :
    Inv config (final step { usage } calls) :=
  final_invariant (Inv config) (fun wc => Fixed config wc.2)
    (fun s wc hfixed h => step_inv hconfig s wc hfixed h)
    ⟨fun hready => Bool.noConfusion hready, fun _ => tracked_nil habsent⟩ hcalls

/-- What holds after a transaction: the message counter is the number of generations recorded since
the start of the period, up to the largest sane counter, the enabled limits are kept but for the
tokens of one generation, and a new period begins no earlier than the last one ends. -/
def WithinQuota (config : RuntimeConfig) (past : List UsagePoint) (p : UsagePoint) : Prop :=
  ∃ state, UsageStateStore.load p.usage config.usageStatePath = (.ok, state) ∧
    state.messagesUsedThisPeriod =
      min (recordedSince state.periodStartUnix (past ++ [p]) : Int) UsageState.maxSaneCounter ∧
    (0 < config.dailyMessageLimit →
      state.messagesUsedThisPeriod ≤ config.dailyMessageLimit.toInt) ∧
    (0 < config.dailyTokenLimit →
      state.tokensUsedThisPeriod ≤ config.dailyTokenLimit.toInt - 1 + config.maxTokens.toInt) ∧
    ∀ q ∈ past.getLast?,
      let before := (UsageStateStore.load q.usage config.usageStatePath).2
      state.periodStartUnix = before.periodStartUnix ∨
        before.periodStartUnix + config.resetPeriodSeconds.toInt ≤ state.periodStartUnix

/-- Quotas are enforced after every transaction of every run. -/
theorem quota_enforced (config : RuntimeConfig) (hconfig : validateConfig config = [])
    (usage : FileSystem) (habsent : usage config.usageStatePath = .absent)
    (calls : List (World × Runtime.Call)) (hcalls : ∀ wc ∈ calls, Fixed config wc.2)
    (hclocked : Clocked (final step { usage } calls).points) :
    AtEvery (WithinQuota config) (final step { usage } calls).points := by
  have htracked := (run_inv hconfig habsent hcalls).tracked hclocked
  refine htracked.every.imp ?_
  rintro past p ⟨state, hload, haccounted, hnext⟩
  refine ⟨state, hload, haccounted.count, fun hlimit => ?_, fun hlimit => ?_, hnext⟩
  · exact haccounted.messages (Int64.lt_iff_toInt_lt.mp hlimit)
  · exact haccounted.tokens (Int64.lt_iff_toInt_lt.mp hlimit)

/-- A generation that fails to tokenize its prompt, which is recorded all the same. -/
def sampleGenerate : GenerateInput where
  admissionNow := 1000
  admissionSave := .ok
  recordNow := 1000
  recordSave := .ok
  llama := {
    chatTemplate := fun _ => none
    tokenize := fun _ _ => none
    promptDecodeOk := true
    samplerValid := true
    step := fun _ => { isEog := true, piece := [], keepGoing := true, decodeOk := true } }

def sampleCalls (config : RuntimeConfig) (n : Nat) : List (World × Runtime.Call) :=
  (Runtime.sampleWorld, .load config Runtime.sampleInput) ::
    List.replicate n (Runtime.sampleWorld, .generate [] sampleGenerate)

theorem sampleCalls_fixed (config : RuntimeConfig) (n : Nat) :
    ∀ wc ∈ sampleCalls config n, Fixed config wc.2 := by
  intro wc h
  rcases List.mem_cons.mp h with rfl | h
  · exact ⟨rfl, rfl, rfl⟩
  · rw [List.eq_of_mem_replicate h]
    exact ⟨rfl, rfl⟩

def absentUsage : FileSystem := fun _ => .absent

/-- One message and ten tokens. -/
def meteredConfig : RuntimeConfig :=
  { Runtime.sampleConfig with dailyMessageLimit := 1, dailyTokenLimit := 10 }

theorem quota_enforced_metered :
    AtEvery (WithinQuota meteredConfig)
        (final step { usage := absentUsage } (sampleCalls meteredConfig 2)).points ∧
      (final step { usage := absentUsage } (sampleCalls meteredConfig 2)).points.length = 5 := by
  have hnows : (final step { usage := absentUsage } (sampleCalls meteredConfig 2)).points.map
      UsagePoint.now = [1000, 1000, 1000, 1000, 1000] := by decide +kernel
  refine ⟨quota_enforced meteredConfig (by decide +kernel) absentUsage rfl _
    (sampleCalls_fixed meteredConfig 2) ?_, ?_⟩
  · rw [clocked_iff, hnows]
    decide
  · rw [← List.length_map UsagePoint.now, hnows]
    rfl

/-- The counter is the number of generations recorded since the start of the period, however many
they are. -/
def CountsAll (config : RuntimeConfig) (past : List UsagePoint) (p : UsagePoint) : Prop :=
  ∃ state, UsageStateStore.load p.usage config.usageStatePath = (.ok, state) ∧
    state.messagesUsedThisPeriod = recordedSince state.periodStartUnix (past ++ [p])

/-- A ready runtime in the first of its periods, after `n` recorded generations. -/
structure Counted (s : UsageRun) (n : Nat) : Prop where
  inv : Inv Runtime.sampleConfig s
  ready : s.runtime.isReady = true
  now : ∀ p ∈ s.points, p.now = 1000
  count : recordedSince 1000 s.points = n
  started : s.points ≠ []

theorem clocked_of_now {points : List UsagePoint} (h : ∀ p ∈ points, p.now = 1000) :
    Clocked points where
  sorted := List.pairwise_of_forall_mem_list fun p hp q hq => by rw [h p hp, h q hq]
  range p hp := by
    rw [h p hp]
    decide

theorem sampleConfig_valid : validateConfig Runtime.sampleConfig = [] := by decide +kernel

theorem now_concat {points : List UsagePoint} (h : ∀ p ∈ points, p.now = 1000) {q : UsagePoint}
    (hq : q.now = 1000) : ∀ p ∈ points ++ [q], p.now = 1000 := by
  intro p hp
  rcases List.mem_append.mp hp with hp | hp
  · exact h p hp
  · rw [List.mem_singleton.mp hp, hq]

theorem Counted.admitted {s : UsageRun} {n : Nat} (h : Counted s n) :
    (checkAdmission s.usage Runtime.sampleConfig.usageStatePath
      (toUsagePolicy Runtime.sampleConfig) 1000 .ok).2.allowed = true := by
  obtain ⟨hreset, hmax⟩ := policy_pos sampleConfig_valid
  obtain ⟨-, state, -, hdecision⟩ := (h.inv.tracked (clocked_of_now h.now)).check
    (clocked_of_now (now_concat h.now rfl)) hreset hmax
  rw [hdecision, evaluate_allowed_iff]
  exact ⟨fun htime => absurd htime.1 (by decide), fun hlimit => absurd hlimit.1 (by decide),
    fun hlimit => absurd hlimit.1 (by decide)⟩

theorem Counted.generate {s : UsageRun} {n : Nat} (h : Counted s n) :
    Counted (step s (Runtime.sampleWorld, .generate [] sampleGenerate)).1 (n + 1) := by
  have hpoints := generate_points h.inv.configured { Runtime.sampleWorld with usage := s.usage } []
    sampleGenerate rfl rfl
  rcases hpoints with ⟨hready, -⟩ | ⟨hallowed, -⟩ | ⟨tokens, -, -, hpoints, -⟩
  · exact absurd h.ready hready
  · exact absurd h.admitted hallowed
  obtain ⟨engine, lastError, hruntime, hloaded, -⟩ := s.runtime.generate_runtime
    { Runtime.sampleWorld with usage := s.usage } [] sampleGenerate
  have hstep : (step s (Runtime.sampleWorld, .generate [] sampleGenerate)).1.points =
      s.points ++ [_, _] := congrArg (s.points ++ ·) hpoints
  rw [List.append_cons] at hstep
  refine {
    inv := step_inv sampleConfig_valid s _ ⟨rfl, rfl⟩ h.inv
    ready := ?_
    now := ?_
    count := ?_
    started := ?_ }
  · change (s.runtime.generate _ _ _).runtime.isReady = true
    rw [hruntime, Runtime.isReady, hloaded]
    exact h.ready
  · rw [hstep]
    exact now_concat (now_concat h.now rfl) rfl
  · rw [hstep, recordedSince_concat, recordedSince_concat, h.count]
    rfl
  · rw [hstep]
    exact List.append_ne_nil_of_right_ne_nil _ (List.cons_ne_nil _ _)

theorem Counted.replicate {s : UsageRun} {k : Nat} (h : Counted s k) (n : Nat) :
    Counted (final step s (List.replicate n (Runtime.sampleWorld, .generate [] sampleGenerate)))
      (k + n) := by
  induction n generalizing s k with
  | zero => exact h
  | succ n ih =>
      rw [List.replicate_succ, ← Nat.succ_add_eq_add_succ]
      exact ih h.generate

theorem counted_load :
    Counted (step { usage := absentUsage }
      (Runtime.sampleWorld, .load Runtime.sampleConfig Runtime.sampleInput)).1 0 := by
  have hpoints : (step { usage := absentUsage }
      (Runtime.sampleWorld, .load Runtime.sampleConfig Runtime.sampleInput)).1.points.map
        (fun p => (p.transaction, p.now)) = [(.checkAdmission, 1000), (.sessionStart, 1000)] := by
    decide +kernel
  have hinv := step_inv sampleConfig_valid { usage := absentUsage }
    (Runtime.sampleWorld, .load Runtime.sampleConfig Runtime.sampleInput) ⟨rfl, rfl, rfl⟩
    ⟨nofun, fun _ => tracked_nil rfl⟩
  refine { inv := hinv, ready := by decide +kernel, now := ?_, count := ?_, started := ?_ }
  · intro p hp
    have hmem := List.mem_map_of_mem (f := fun p : UsagePoint => (p.transaction, p.now)) hp
    rw [hpoints] at hmem
    simp at hmem
    omega
  · rw [recordedSince, List.countP_eq_zero]
    intro p hp
    have hmem := List.mem_map_of_mem (f := fun p : UsagePoint => (p.transaction, p.now)) hp
    rw [hpoints] at hmem
    simp at hmem
    rcases hmem with h | h <;> simp [h.1]
  · intro hnil
    rw [hnil] at hpoints
    cases hpoints

theorem Counted.saturated {s : UsageRun} {n : Nat} (h : Counted s n)
    (hn : UsageState.maxSaneCounter < n) : ¬AtEvery (CountsAll Runtime.sampleConfig) s.points := by
  intro hevery
  have htracked := h.inv.tracked (clocked_of_now h.now)
  obtain ⟨past, p, hpoints⟩ := (List.eq_nil_or_concat' s.points).resolve_left h.started
  have hlast : p.usage = s.usage := htracked.last p (by rw [hpoints]; simp)
  obtain ⟨state, hload, hall⟩ := hevery past p [] hpoints
  rcases htracked.stored with ⟨hnil, -⟩ | ⟨stored, hstored, haccounted⟩
  · exact h.started hnil
  rw [hlast, hstored] at hload
  cases hload
  obtain ⟨q, hq, hstart⟩ := haccounted.started
  rw [h.now q hq] at hstart
  have hcount := haccounted.count
  rw [← hstart, h.count, min_eq_right hn.le] at hcount
  rw [← hpoints, ← hstart, h.count, hcount] at hall
  exact hn.ne hall

theorem counted_calls (n : Nat) :
    Counted (final step { usage := absentUsage } (sampleCalls Runtime.sampleConfig n)) n := by
  have hcounted := counted_load.replicate n
  rw [Nat.zero_add] at hcounted
  exact hcounted

theorem sampleCalls_saturated (n : Nat) (hn : UsageState.maxSaneCounter < n) :
    Clocked (final step { usage := absentUsage } (sampleCalls Runtime.sampleConfig n)).points ∧
      ¬AtEvery (CountsAll Runtime.sampleConfig)
        (final step { usage := absentUsage } (sampleCalls Runtime.sampleConfig n)).points :=
  ⟨clocked_of_now (counted_calls n).now, (counted_calls n).saturated hn⟩

/-- The counter stops at the largest sane counter: one generation later it is not the number of
generations recorded. -/
theorem countsAll_saturated :
    (validateConfig Runtime.sampleConfig = [] ∧
      ∀ wc ∈ sampleCalls Runtime.sampleConfig 1000000000000001,
        Fixed Runtime.sampleConfig wc.2) ∧
      Clocked (final step { usage := absentUsage }
        (sampleCalls Runtime.sampleConfig 1000000000000001)).points ∧
      ¬AtEvery (CountsAll Runtime.sampleConfig) (final step { usage := absentUsage }
        (sampleCalls Runtime.sampleConfig 1000000000000001)).points :=
  ⟨⟨sampleConfig_valid, sampleCalls_fixed _ _⟩, sampleCalls_saturated _ (by decide)⟩

end UsageRun

end EdgeMind
