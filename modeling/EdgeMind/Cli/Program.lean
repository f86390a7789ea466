import EdgeMind.Cli.Session

/-!
# Runs of the program

`main` from its arguments to the code it returns, run again and again on the same files. Runs whose
arguments give the same limits keep one account, so that a restart gives no new quota.
-/

namespace EdgeMind

open Framework UsageAccounting UsageManager UsageRun

namespace Cli

/-- A run of the program: its arguments, what it reads, and what its surroundings contribute. -/
structure Invocation where
  hwThreads : UInt32
  args : List Bytes
  load : LoadInput
  once : Surroundings
  lines : List (Bytes × Surroundings)

/-- The files, and what the runs so far have done. -/
structure Machine where
  world : World
  effects : List Effect := []

namespace Machine

variable (strtof : Bytes → Conversion CFloat)

/-- `main`, with the code it returns; after a signed overflow in the arguments nothing is known. -/
def main (w : World) (i : Invocation) : Option (Session × Nat) :=
  match parseArguments strtof i.args (initialArguments i.hwThreads) with
  | .undefined => none
  | .exit code message => some ({ world := w, err := message }, code)
  | .parsed a =>
      if a.listModelsAndExit then
        some ({ world := w, out := printModelsList w.registry a.config.modelRegistryPath }, 0)
      else
        match createConfig a.modelPath a.modelId a.config w.registry with
        | none => some ({ world := w }, 2)
        | some config => some (Session.run config a.trailingPrompt w i.load i.once i.lines)

/-- A run; one whose arguments overflow is left out. -/
def step (m : Machine) (i : Invocation) : Machine × Option Nat :=
  match main strtof m.world i with
  | none => (m, none)
  | some (s, code) => ({ world := s.world, effects := m.effects ++ s.effects }, some code)

def points (m : Machine) : List UsagePoint := m.effects.filterMap Effect.point?

/-- The arguments are read without an overflow and give the limits and the path of the account, and all
saves of the usage state succeed. -/
structure Metered (config : RuntimeConfig) (i : Invocation) : Prop where
  defined : parseArguments strtof i.args (initialArguments i.hwThreads) ≠ .undefined
  account : ∀ registry c, runConfig strtof i.hwThreads i.args registry = some c →
    Api.SameAccount (Api.toCppConfig (some c)) config
  loadAdmission : i.load.admissionSave = .ok
  loadSession : i.load.sessionSave = .ok
  saves : ∀ e ∈ i.once :: i.lines.map Prod.snd,
    e.generate.admissionSave = .ok ∧ e.generate.recordSave = .ok

def Kept (config : RuntimeConfig) (m : Machine) : Prop :=
  Api.Account config none m.world.usage m.points

theorem calls_account {config : RuntimeConfig} {s : Client} {points : List UsagePoint}
    (h : Api.Account config s.runtime s.world.usage (points ++ s.effects.filterMap Effect.point?))
    {calls : List Runtime.Call} (hcalls : ∀ c ∈ calls, Api.Kept config c) :
    let after := calls.foldl Client.call s
    Api.Account config after.runtime after.world.usage
      (points ++ after.effects.filterMap Effect.point?) := by
  induction calls generalizing s with
  | nil => exact h
  | cons c calls ih =>
      rw [List.forall_mem_cons] at hcalls
      refine ih ?_ hcalls.2
      unfold Client.call
      split
      · exact h
      · next r hruntime =>
          rw [hruntime] at h
          rw [List.filterMap_append, ← List.append_assoc]
          exact h.call hcalls.1

theorem run_account {config : RuntimeConfig} {w : World} {points : List UsagePoint}
    (h : Api.Account config none w.usage points) {i : Invocation} (hi : Metered strtof config i)
    {c : Api.Config} (hc : Api.SameAccount (Api.toCppConfig (some c)) config)
    (trailingPrompt : Option Bytes) :
    let after := (Session.run c trailingPrompt w i.load i.once i.lines).1
    Api.Account config none after.world.usage
      (points ++ after.effects.filterMap Effect.point?) := by
  obtain ⟨calls, hserves, hcalls⟩ := Session.run_calls c trailingPrompt w i.load i.once i.lines
  have hkept : ∀ call ∈ calls, Api.Kept config call := by
    intro call hcall
    obtain ⟨e, he, hserve⟩ := hserves call hcall
    cases hserve with
    | unload => trivial
    | reset => trivial
    | generate _ => exact hi.saves e he
  have hcreated := h.created hc hi.loadAdmission hi.loadSession
  have hcalled := calls_account (s := Client.create c w i.load) hcreated hkept
  dsimp only
  rw [hcalls]
  exact hcalled.dropped

theorem step_kept {config : RuntimeConfig} {m : Machine} (h : Kept config m) {i : Invocation}
    (hi : Metered strtof config i) : Kept config (step strtof m i).1 := by
  have hsame {s : Session} (hworld : s.world = m.world) (heffects : s.effects = []) :
      Kept config { world := s.world, effects := m.effects ++ s.effects } := by
    rw [hworld, heffects, List.append_nil]
    exact h
  unfold step main
  cases hparsed : parseArguments strtof i.args (initialArguments i.hwThreads) with
  | undefined => exact h
  | exit code message => exact hsame rfl rfl
  | parsed a =>
      dsimp only
      by_cases hlist : a.listModelsAndExit = true
      · rw [if_pos hlist]
        exact hsame rfl rfl
      · rw [if_neg hlist]
        cases hconfig : createConfig a.modelPath a.modelId a.config m.world.registry with
        | none => exact hsame rfl rfl
        | some c =>
            have hrun : runConfig strtof i.hwThreads i.args m.world.registry = some c := by
              rw [runConfig, hparsed]
              dsimp only
              rw [if_neg hlist]
              exact hconfig
            have haccount := run_account strtof h hi (hi.account _ _ hrun) a.trailingPrompt
            dsimp only
            rw [Kept, points, List.filterMap_append]
            exact haccount

/-- Restarts do not renew the quota: over any sequence of runs of the program whose arguments give the same
limits, whatever each of them loads, is asked and answers, the limits hold after every transaction. -/
theorem restarts_within_quota (config : RuntimeConfig) (w : World)
    (habsent : w.usage config.usageStatePath = .absent) (invocations : List Invocation)
    (hmetered : ∀ i ∈ invocations, Metered strtof config i)
    (hclocked : Clocked (final (step strtof) { world := w } invocations).points) :
    AtEvery (WithinQuota config) (final (step strtof) { world := w } invocations).points := by
  have hstart : Kept config { world := w } := Api.Account.start habsent
  have hkept : Kept config (final (step strtof) { world := w } invocations) :=
    final_invariant (Kept config) (Metered strtof config) (fun _ _ hi h => step_kept strtof h hi)
      hstart hmetered
  refine (hkept.tracked hclocked).every.imp ?_
  rintro past p ⟨state, hload, haccounted, hnext⟩
  refine ⟨state, hload, haccounted.count, fun hlimit => ?_, fun hlimit => ?_, hnext⟩
  · exact haccounted.messages (Int64.lt_iff_toInt_lt.mp hlimit)
  · exact haccounted.tokens (Int64.lt_iff_toInt_lt.mp hlimit)

/-- A prompt on the command line, with one message for each day. -/
def samplePrompt : Invocation where
  hwThreads := 4
  args := [text "--model", text "m.gguf", text "--message-limit", text "1", text "hi"]
  load := Runtime.sampleInput
  once := {
    generate := sampleGenerate
    hasMemory := true
    info := { desc := [], nParams := 0, size := 24, nCtxTrain := 1024, nCtx := 1024, nThreads := 4 }
    megabytes := fun _ => []
    sizedNow := 1000
    reportNow := 1000 }
  lines := []

def sampleArguments : Arguments where
  config := { dailyMessageLimit := 1 }
  modelPath := text "m.gguf"
  trailingPrompt := some (text "hi")

theorem parse_samplePrompt :
    parseArguments readsNothing samplePrompt.args (initialArguments samplePrompt.hwThreads) =
      .parsed sampleArguments := rfl

def sampleLimits : RuntimeConfig := { dailyMessageLimit := 1 }

theorem samplePrompt_metered : Metered readsNothing sampleLimits samplePrompt where
  defined h := by
    rw [parse_samplePrompt] at h
    cases h
  account registry c hc := by
    rw [runConfig, parse_samplePrompt] at hc
    have hconfig : some { sampleArguments.config with
        modelPath := some (text "m.gguf"), modelId := none } = some c := hc
    obtain rfl := Option.some.inj hconfig
    exact ⟨by decide +kernel, by decide +kernel, by decide +kernel⟩
  loadAdmission := rfl
  loadSession := rfl
  saves e he := by
    rw [List.mem_singleton.mp he]
    exact ⟨rfl, rfl⟩

/-- The second run is denied as it loads. -/
theorem restarts_within_quota_twice :
    let after := final (step readsNothing) { world := Runtime.sampleWorld }
      [samplePrompt, samplePrompt]
    AtEvery (WithinQuota sampleLimits) after.points ∧ after.points.length = 5 := by
  intro after
  have hnows : after.points.map UsagePoint.now = List.replicate 5 1000 := by decide +kernel
  refine ⟨restarts_within_quota readsNothing sampleLimits Runtime.sampleWorld rfl
    [samplePrompt, samplePrompt] (fun i hi => ?_) ?_, by decide +kernel⟩
  · have hsample : i = samplePrompt := by simpa using hi
    rw [hsample]
    exact samplePrompt_metered
  · rw [clocked_iff, hnows]
    decide

end Machine

end Cli

end EdgeMind
