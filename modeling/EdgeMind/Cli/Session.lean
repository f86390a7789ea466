import EdgeMind.Api.Handles
import EdgeMind.Api.ModelListing
import EdgeMind.Cli.Arguments

/-!
# The command line program

A run of `main`: it creates a runtime and reports a failure, answers a single prompt, or reads lines and
answers each of them. Every way out destroys the runtime, and runs that follow each other keep one account
of the usage, as long as their arguments give the same limits.
-/

namespace EdgeMind

open Framework UsageAccounting UsageManager UsageRun

namespace Cli

/-- What is printed of a report that is asked for twice: for its size, and for its text. -/
def printReport (needed : Nat) (report : Nat → Nat × Bytes) (missing last : Bytes) : Bytes :=
  if needed = 0 then missing else Api.cString (report (needed + 1)).2 ++ last

/-- `print_model_info`; `megabytes` prints a size with `%.1f`. -/
def printModelInfo (megabytes : UInt64 → Bytes) : Option InferenceEngine.ModelInfo → Bytes
  | none => text "No model info available.\n"
  | some info =>
      text "Model:         " ++ info.description ++
        text "\nParameters:    " ++ decimal info.nParams.toNat ++
        text "\nSize on disk:  " ++ megabytes info.modelSizeBytes ++
        text " MB\nTrained ctx:   " ++ intDecimal info.nCtxTrain.toInt ++
        text "\nActive ctx:    " ++ intDecimal info.nCtx.toInt ++
        text "\nThreads:       " ++ intDecimal info.nThreads.toInt ++ text "\n"

/-- `print_models_list` -/
def printModelsList (registry : FileSystem) (registryPath : Option Bytes) : Bytes :=
  printReport (Api.listModels registry registryPath 0).1 (Api.listModels registry registryPath)
    (text "No models registered yet. Import one with --model <path>.\n") []

/-- What the surroundings contribute to a line that is read. -/
structure Surroundings where
  generate : GenerateInput
  hasMemory : Bool
  info : LlamaInfo
  megabytes : UInt64 → Bytes
  sizedNow : Int
  reportNow : Int

inductive Command
  | quit | help | models | unload | info | verify | memory | context | usage | reset | empty
  | prompt (line : Bytes)
deriving DecidableEq

def Command.ofLine (line : Bytes) : Command :=
  if line = text "/quit" then .quit
  else if line = text "/help" then .help
  else if line = text "/models" then .models
  else if line = text "/unload" then .unload
  else if line = text "/info" then .info
  else if line = text "/verify" then .verify
  else if line = text "/memory" then .memory
  else if line = text "/context" then .context
  else if line = text "/usage" then .usage
  else if line = text "/reset" then .reset
  else if line = [] then .empty
  else .prompt line

/-- A client of the C interface: the runtime that it holds, the files, and what has been done to the
library and by its runtimes. -/
structure Client where
  runtime : Option Runtime := none
  world : World
  events : List LifecycleEvent := []
  effects : List Effect := []

namespace Client

/-- `syj_edgemind_create` -/
def create (config : Api.Config) (w : World) (input : LoadInput) : Client :=
  let created := Api.create (some config) w input
  { runtime := created.handle
    world := created.world
    events := Api.createEvents (some config) w input
    effects := created.effects }

/-- A call of the runtime, which a null handle does not have. -/
def call (s : Client) (c : Runtime.Call) : Client :=
  match s.runtime with
  | none => s
  | some r => {
      runtime := some (r.call s.world c).runtime
      world := (r.call s.world c).world
      events := s.events ++ Runtime.engineEvents r.engine (r.engineCalls s.world c)
      effects := s.effects ++ (r.call s.world c).effects }

/-- `syj_edgemind_destroy` -/
def destroy (s : Client) : Client := { s with
  runtime := none
  events := s.events ++ s.runtime.toList.flatMap fun r => r.engine.destroyEvents }

end Client

structure Session extends Client where
  out : Bytes := []
  err : Bytes := []

namespace Session

def print (s : Session) (printed : Bytes) : Session := { s with out := s.out ++ printed }

def printError (s : Session) (printed : Bytes) : Session := { s with err := s.err ++ printed }

def call (s : Session) (c : Runtime.Call) : Session := { s with toClient := s.toClient.call c }

def destroy (s : Session) : Session := { s with toClient := s.toClient.destroy }

/-- `stream_to_stdout` always lets the generation go on. -/
def streamToStdout : Option (Nat → Bool) := some fun _ => true

/-- `syj_edgemind_generate` with the pieces on the standard output. -/
def generate (s : Session) (prompt : Bytes) (e : Surroundings) : Session × Api.Status :=
  let generated := Api.generate s.runtime s.world (some prompt) e.generate streamToStdout
  let call := Runtime.Call.generate (Api.promptText (some prompt))
    (Api.withCallback e.generate streamToStdout)
  ((s.call call).print generated.pieces.flatten, generated.status)

def memoryReport (s : Session) : Bytes :=
  printReport (Api.getMemoryReport s.runtime 0).1 (Api.getMemoryReport s.runtime)
    (text "No memory report available.\n") (text "\n")

def contextReport (s : Session) : Bytes :=
  printReport (Api.getContextReport s.runtime 0).1 (Api.getContextReport s.runtime)
    (text "No context report available.\n") []

def verificationReport (s : Session) : Bytes :=
  printReport (Api.getVerificationReport s.runtime 0).1 (Api.getVerificationReport s.runtime)
    (text "No verification report available.\n") (text "\n")

/-- The two calls read the clock one after the other. -/
def usageReport (s : Session) (sizedNow reportNow : Int) : Bytes :=
  printReport (Api.getUsageReport s.runtime s.world.usage sizedNow 0).1
    (Api.getUsageReport s.runtime s.world.usage reportNow)
    (text "No usage report available.\n") (text "\n")

def answerPrompt (s : Session) (line : Bytes) (e : Surroundings) : Session × Bool :=
  let (s, status) := (s.print (text "\nSYJ EdgeMind:\n")).generate line e
  let s := s.print (text "\n\n")
  if status = .errorQuotaExceeded then
    let s := s.printError (text "ERROR: " ++ Api.statusMessage status ++ text "\n\n")
    (s.print (s.usageReport e.sizedNow e.reportNow), true)
  else if status ≠ .ok then
    (s.printError (text "ERROR: " ++ Api.statusMessage status ++ text "\n"), false)
  else (s, true)

def command (config : Api.Config) (s : Session) (e : Surroundings) : Command → Session × Bool
  | .quit => (s, false)
  | .help => (s.print (text
      "Commands: /help  /info  /verify  /models  /memory  /context  /usage  /reset  /unload  /quit\n"),
      true)
  | .models => (s.print (printModelsList s.world.registry config.modelRegistryPath), true)
  | .unload => ((s.call .unload).print (
      text "Model unloaded. /memory, /verify, and /usage remain available; generating a new\n" ++
      text "prompt or /info will report the runtime as not loaded — restart to load a model\n" ++
      text "again (v0.5.0 does not support reloading a different model into a running session).\n"),
      true)
  | .info => (s.print (printModelInfo e.megabytes (Api.getModelInfo s.runtime e.info)), true)
  | .verify => (s.print s.verificationReport, true)
  | .memory => (s.print s.memoryReport, true)
  | .context => (s.print s.contextReport, true)
  | .usage => (s.print (s.usageReport e.sizedNow e.reportNow), true)
  | .reset => ((s.call (.resetContext e.hasMemory)).print (text "Context reset.\n"), true)
  | .empty => (s, true)
  | .prompt line => s.answerPrompt line e

/-- The loop over the lines, up to the end of the input. -/
def interactive (config : Api.Config) : List (Bytes × Surroundings) → Session → Session
  | [], s => s.print (text "You:\n")
  | (line, e) :: rest, s =>
      let (s, goesOn) := command config (s.print (text "You:\n")) e (Command.ofLine line)
      if goesOn then interactive config rest s else s

/-- A single prompt, with the code that `main` returns. -/
def single (s : Session) (prompt : Bytes) (e : Surroundings) : Session × Nat :=
  let s := s.print (text "You:\n" ++ Api.cString prompt ++ text "\n\nSYJ EdgeMind:\n")
  let (s, status) := s.generate prompt e
  let s := s.print (text "\n")
  if status = .errorQuotaExceeded then
    let s := s.printError (text "ERROR: " ++ Api.statusMessage status ++ text "\n\n")
    ((s.print (s.usageReport e.sizedNow e.reportNow)).destroy, 1)
  else if status ≠ .ok then
    ((s.printError (text "ERROR: " ++ Api.statusMessage status ++ text "\n")).destroy, 1)
  else (s.destroy, 0)

/-- What `main` adds to the message of a load that leaves no runtime. -/
def missingModel (config : Api.Config) (status : Api.Status) : Bytes :=
  let modelPath := config.modelPath.getD []
  let modelId := config.modelId.getD []
  if status = .errorModelNotFound then text "  " ++ modelPath ++ text "\n"
  else if status = .errorModelResolutionFailed then
    text "  " ++ (if modelPath ≠ [] then text "--model " ++ modelPath
      else text "--model-id " ++ modelId) ++ text "\n"
  else []

/-- `main` from the creation of the runtime on, with the code it returns. -/
def run (config : Api.Config) (trailingPrompt : Option Bytes) (w : World) (input : LoadInput)
    (e : Surroundings) (lines : List (Bytes × Surroundings)) : Session × Nat :=
  let s : Session := { toClient := .create config w input }
  let status := (Api.create (some config) w input).status
  let failed := s.printError (text "ERROR: " ++ Api.statusMessage status ++ text "\n\n")
  if status = .errorModelVerificationFailed then ((failed.print failed.verificationReport).destroy, 1)
  else if status = .errorMemoryBudgetExceeded then ((failed.print failed.memoryReport).destroy, 1)
  else if status = .errorQuotaExceeded then
    ((failed.print (failed.usageReport e.sizedNow e.reportNow)).destroy, 1)
  else if s.runtime = none then
    (s.printError (text "ERROR: " ++ Api.statusMessage status ++ text "\n" ++
      missingModel config status), 1)
  else
    let s := s.print (text "Model loaded.\n\n")
    match trailingPrompt with
    | some prompt => s.single prompt e
    | none => ((interactive config lines s).destroy, 0)

/-- The calls of the runtime that a line can make. -/
inductive Serves (e : Surroundings) : Runtime.Call → Prop
  | unload : Serves e .unload
  | reset : Serves e (.resetContext e.hasMemory)
  | generate (prompt : Bytes) :
      Serves e (.generate prompt (Api.withCallback e.generate streamToStdout))

/-- A line prints, and calls the runtime at most once. -/
def LineCase (s : Session) (e : Surroundings) (after : Session) : Prop :=
  after.toClient = s.toClient ∨ ∃ c, Serves e c ∧ after.toClient = s.toClient.call c

theorem answerPrompt_case (s : Session) (line : Bytes) (e : Surroundings) :
    s.LineCase e (s.answerPrompt line e).1 := by
  refine .inr ⟨_, .generate (Api.promptText (some line)), ?_⟩
  unfold answerPrompt
  dsimp only
  split
  · rfl
  · split <;> rfl

theorem command_case (config : Api.Config) (s : Session) (e : Surroundings) (c : Command) :
    s.LineCase e (command config s e c).1 := by
  cases c with
  | unload => exact .inr ⟨_, .unload, rfl⟩
  | reset => exact .inr ⟨_, .reset, rfl⟩
  | prompt line => exact s.answerPrompt_case line e
  | _ => exact .inl rfl

theorem interactive_calls (config : Api.Config) (lines : List (Bytes × Surroundings)) (s : Session) :
    ∃ calls : List Runtime.Call, (∀ c ∈ calls, ∃ line ∈ lines, Serves line.2 c) ∧
      (interactive config lines s).toClient = calls.foldl Client.call s.toClient := by
  induction lines generalizing s with
  | nil => exact ⟨[], fun c hc => absurd hc (List.not_mem_nil), rfl⟩
  | cons line rest ih =>
      obtain ⟨line, e⟩ := line
      have hcase := command_case config (s.print (text "You:\n")) e (Command.ofLine line)
      rw [interactive]
      generalize command config (s.print (text "You:\n")) e (Command.ofLine line) = result at hcase ⊢
      obtain ⟨after, goesOn⟩ := result
      -- the call of this line, then those of the lines that are still read
      have hfirst : ∃ first : List Runtime.Call, (∀ c ∈ first, Serves e c) ∧
          after.toClient = first.foldl Client.call s.toClient := by
        rcases hcase with hsame | ⟨c, hserves, hcall⟩
        · exact ⟨[], fun c hc => absurd hc (List.not_mem_nil), hsame⟩
        · refine ⟨[c], fun c' hc' => ?_, hcall⟩
          rwa [List.mem_singleton.mp hc']
      obtain ⟨first, hfirst, hafter⟩ := hfirst
      dsimp only
      cases goesOn with
      | false => exact ⟨first, fun c hc => ⟨_, List.mem_cons_self, hfirst c hc⟩, hafter⟩
      | true =>
          obtain ⟨calls, hcalls, hrest⟩ := ih after
          refine ⟨first ++ calls, fun c hc => ?_, ?_⟩
          · rcases List.mem_append.mp hc with hc | hc
            · exact ⟨_, List.mem_cons_self, hfirst c hc⟩
            · obtain ⟨line', hline', hserves⟩ := hcalls c hc
              exact ⟨line', List.mem_cons_of_mem _ hline', hserves⟩
          · rw [if_pos rfl, hrest, List.foldl_append, hafter]

theorem single_calls (s : Session) (prompt : Bytes) (e : Surroundings) :
    ∃ c, Serves e c ∧ (s.single prompt e).1.toClient = (s.toClient.call c).destroy := by
  refine ⟨_, .generate (Api.promptText (some prompt)), ?_⟩
  unfold single
  dsimp only
  split
  · rfl
  · split <;> rfl

theorem destroy_none {s : Client} (h : s.runtime = none) : s.destroy = s := by
  obtain ⟨runtime, world, events, effects⟩ := s
  obtain rfl : runtime = none := h
  simp [Client.destroy]

theorem run_calls (config : Api.Config) (trailingPrompt : Option Bytes) (w : World)
    (input : LoadInput) (e : Surroundings) (lines : List (Bytes × Surroundings)) :
    ∃ calls : List Runtime.Call, (∀ c ∈ calls, ∃ e' ∈ e :: lines.map Prod.snd, Serves e' c) ∧
      (run config trailingPrompt w input e lines).1.toClient =
        (calls.foldl Client.call (.create config w input)).destroy := by
  have hfailed {after : Session} (h : after.toClient = (Client.create config w input).destroy) :
      ∃ calls : List Runtime.Call, (∀ c ∈ calls, ∃ e' ∈ e :: lines.map Prod.snd, Serves e' c) ∧
        after.toClient = (calls.foldl Client.call (.create config w input)).destroy :=
    ⟨[], fun c hc => absurd hc List.not_mem_nil, h⟩
  unfold run
  dsimp only
  split
  · exact hfailed rfl
  split
  · exact hfailed rfl
  split
  · exact hfailed rfl
  split
  · next hnone => exact hfailed (destroy_none hnone).symm
  cases trailingPrompt with
  | some prompt =>
      obtain ⟨c, hserves, hcalls⟩ := single_calls (Session.print
        { toClient := .create config w input } (text "Model loaded.\n\n")) prompt e
      refine ⟨[c], fun c' hc' => ⟨e, List.mem_cons_self, ?_⟩, hcalls⟩
      rwa [List.mem_singleton.mp hc']
  | none =>
      obtain ⟨calls, hserves, hcalls⟩ := interactive_calls config lines (Session.print
        { toClient := .create config w input } (text "Model loaded.\n\n"))
      refine ⟨calls, fun c hc => ?_, congrArg Client.destroy hcalls⟩
      obtain ⟨line, hline, hc⟩ := hserves c hc
      exact ⟨line.2, List.mem_cons_of_mem _ (List.mem_map_of_mem hline), hc⟩

theorem calls_lives {s : Client} (h : Api.Lives s.runtime s.events) (calls : List Runtime.Call) :
    Api.Lives (calls.foldl Client.call s).runtime (calls.foldl Client.call s).events := by
  induction calls generalizing s with
  | nil => exact h
  | cons c calls ih =>
      apply ih
      unfold Client.call
      split
      · exact h
      · next r hruntime =>
          rw [hruntime] at h
          exact h.call s.world c

theorem single_code (s : Session) (prompt : Bytes) (e : Surroundings) :
    (s.single prompt e).2 = 0 ↔
      (Api.generate s.runtime s.world (some prompt) e.generate streamToStdout).status = .ok := by
  generalize hstatus : (Api.generate s.runtime s.world (some prompt) e.generate
    streamToStdout).status = status
  unfold single
  dsimp only
  split
  · next h =>
      obtain rfl : status = .errorQuotaExceeded := hstatus.symm.trans h
      exact iff_of_false Nat.one_ne_zero (by decide)
  split
  · next h =>
      have hnot : status ≠ .ok := fun hok => h (hstatus.trans hok)
      exact iff_of_false Nat.one_ne_zero hnot
  · next h => exact iff_of_true rfl (hstatus.symm.trans (not_not.mp h))

theorem create_ok {config : Option Api.Config} {w : World} {input : LoadInput}
    (h : (Api.create config w input).status = .ok) : (Api.create config w input).handle ≠ none := by
  change (if (Api.create config w input).status = .ok then _ else _) ≠ none
  rw [if_pos h]
  exact Option.some_ne_none _

theorem create_some {config : Option Api.Config} {w : World} {input : LoadInput}
    (h : (Api.create config w input).handle ≠ none) :
    (Api.create config w input).status = .ok ∨
      (Api.create config w input).status = .errorMemoryBudgetExceeded ∨
      (Api.create config w input).status = .errorQuotaExceeded ∨
      (Api.create config w input).status = .errorModelVerificationFailed := by
  by_contra hother
  rw [not_or] at hother
  change (if (Api.create config w input).status = .ok then _ else if _ then _ else none) ≠ none at h
  rw [if_neg hother.1] at h
  exact h (if_neg hother.2)

/-- The code is 0 exactly if the model is loaded and the prompt of the command line, if there is one, is
answered. -/
theorem run_code (config : Api.Config) (trailingPrompt : Option Bytes) (w : World)
    (input : LoadInput) (e : Surroundings) (lines : List (Bytes × Surroundings)) :
    let created := Api.create (some config) w input
    (run config trailingPrompt w input e lines).2 = 0 ↔ created.status = .ok ∧
      ∀ prompt ∈ trailingPrompt, (Api.generate created.handle created.world (some prompt) e.generate
        streamToStdout).status = .ok := by
  intro created
  have hother {status : Api.Status} (h : created.status = status) (hne : status ≠ .ok) :
      ¬(created.status = .ok ∧ ∀ prompt ∈ trailingPrompt, (Api.generate created.handle created.world
        (some prompt) e.generate streamToStdout).status = .ok) :=
    fun hok => hne (h.symm.trans hok.1)
  unfold run
  dsimp only
  split
  · next h => exact iff_of_false Nat.one_ne_zero (hother h (by decide))
  next hverified =>
  split
  · next h => exact iff_of_false Nat.one_ne_zero (hother h (by decide))
  next hmemory =>
  split
  · next h => exact iff_of_false Nat.one_ne_zero (hother h (by decide))
  next hquota =>
  split
  · next hnone => exact iff_of_false Nat.one_ne_zero fun hok => create_ok hok.1 hnone
  next hsome =>
  have hok : created.status = .ok := by
    rcases create_some hsome with h | h | h | h
    · exact h
    · exact absurd h hmemory
    · exact absurd h hquota
    · exact absurd h hverified
  cases trailingPrompt with
  | none => exact iff_of_true rfl ⟨hok, fun prompt hprompt => absurd hprompt (Option.not_mem_none _)⟩
  | some prompt =>
      rw [single_code]
      constructor
      · intro hanswered
        refine ⟨hok, fun prompt' hprompt' => ?_⟩
        obtain rfl := Option.some.inj hprompt'
        exact hanswered
      · intro h
        exact h.2 prompt rfl

/-- Whatever the program is asked, at most one model and one context are live at every point, only what is
live is used, and when it returns nothing is live any more and no runtime is held. The code it returns is
0 exactly if the model was loaded and the prompt of the command line, if there was one, was answered. -/
theorem run_cleans_up (config : Api.Config) (trailingPrompt : Option Bytes) (w : World)
    (input : LoadInput) (e : Surroundings) (lines : List (Bytes × Surroundings)) :
    let created := Api.create (some config) w input
    let result := run config trailingPrompt w input e lines
    result.1.runtime = none ∧ SingleInstance result.1.events ∧ Ended result.1.events ∧
      (result.2 = 0 ↔ created.status = .ok ∧
        ∀ prompt ∈ trailingPrompt, (Api.generate created.handle created.world (some prompt) e.generate
          streamToStdout).status = .ok) := by
  intro created result
  obtain ⟨calls, -, hcalls⟩ := run_calls config trailingPrompt w input e lines
  have hcreated : Api.Lives (Client.create config w input).runtime
      (Client.create config w input).events := by
    have hstart := Api.Lives.start.created (some config) w input
    rwa [List.nil_append] at hstart
  have hlives : Api.Lives none
      (run config trailingPrompt w input e lines).1.events := by
    rw [hcalls]
    exact (calls_lives hcreated calls).unload
  have hnone : (run config trailingPrompt w input e lines).1.runtime = none := by
    rw [hcalls]
    rfl
  exact ⟨hnone, hlives.single, hlives.ended, run_code config trailingPrompt w input e lines⟩

end Session

end Cli

end EdgeMind
