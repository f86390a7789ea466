import EdgeMind.Cli.Main
import EdgeMind.Framework.CheckedInt
import EdgeMind.Framework.Decimal
import EdgeMind.Framework.LastWrite

/-!
# The arguments of the command line

The loop of `main` over its arguments, up to the configuration they give. An integer argument is
converted by `strtol` or `strtoll` without a look at the range error, a 32-bit one is then cut to its low
bits, and minutes and hours are multiplied. So the number that is stored is the one on the command
line only as far as none of this leaves its range.
-/

namespace EdgeMind

open Framework

namespace Cli

/-- The value of a conversion that has read something, and all there is. -/
def wholeArg {α : Type} (conv : Bytes → Conversion α) (s : Option Bytes) : Option α :=
  s.bind fun s =>
    if (conv s).rest = s ∨ (conv s).rest ≠ [] then none else some (conv s).value

def parseFloatArg (strtof : Bytes → Conversion CFloat) (s : Option Bytes) : Option CFloat :=
  wholeArg strtof s

/-- A `long` has 64 bits, so `strtol` is `strtoll`. -/
def parseIntArg (s : Option Bytes) : Option Int32 := (wholeArg strtoll s).map Int32.ofInt

def parseInt64Arg (s : Option Bytes) : Option Int64 := (wholeArg strtoll s).map Int64.ofInt

/-- The variables of `main` that the loop sets. -/
structure Arguments where
  config : Api.Config
  modelPath : Bytes := []
  modelId : Bytes := []
  trailingPrompt : Option Bytes := none
  listModelsAndExit : Bool := false

/-- The loop goes on with its variables, or `main` returns with a message on the error stream; after a
signed overflow nothing is known. -/
inductive Outcome
  | parsed (a : Arguments)
  | exit (code : Nat) (message : Bytes)
  | undefined

def Outcome.bind : Outcome → (Arguments → Outcome) → Outcome
  | .parsed a, f => f a
  | .exit code message, _ => .exit code message
  | .undefined, _ => .undefined

inductive Flag
  | model | modelId | context | threads | temperature | topP | topK | maxTokens | memoryBudget
  | safetyReserve | timeLimitMinutes | messageLimit | tokenLimit | resetPeriodHours
  | usageStatePath | checksum | registryPath
deriving DecidableEq

namespace Flag

def name : Flag → Bytes
  | model => text "--model"
  | modelId => text "--model-id"
  | context => text "--context"
  | threads => text "--threads"
  | temperature => text "--temperature"
  | topP => text "--top-p"
  | topK => text "--top-k"
  | maxTokens => text "--max-tokens"
  | memoryBudget => text "--memory-budget"
  | safetyReserve => text "--safety-reserve"
  | timeLimitMinutes => text "--time-limit-minutes"
  | messageLimit => text "--message-limit"
  | tokenLimit => text "--token-limit"
  | resetPeriodHours => text "--reset-period-hours"
  | usageStatePath => text "--usage-state-path"
  | checksum => text "--checksum"
  | registryPath => text "--registry-path"

def all : List Flag :=
  [model, modelId, context, threads, temperature, topP, topK, maxTokens, memoryBudget, safetyReserve,
    timeLimitMinutes, messageLimit, tokenLimit, resetPeriodHours, usageStatePath, checksum,
    registryPath]

def ofArg (arg : Bytes) : Option Flag := all.find? fun flag => flag.name = arg

/-- Store what was parsed, or return with an error. -/
def store {α : Type} (flag : Flag) (expects : String) (parsed : Option α) (set : α → Arguments) :
    Outcome :=
  match parsed with
  | none => .exit 2 (text "ERROR: " ++ flag.name ++ text " expects " ++ text expects ++ text ".\n")
  | some x => .parsed (set x)

/-- Store a number of seconds that was given in a larger unit. -/
def storeSeconds (flag : Flag) (parsed : Option Int64) (factor : Int) (set : Int64 → Arguments) :
    Outcome :=
  match parsed with
  | none => flag.store "an integer" (none : Option Int64) set
  | some n =>
      match mulInt64 n.toInt factor with
      | none => .undefined
      | some seconds => .parsed (set (Int64.ofInt seconds))

/-- What the loop does with an argument and its value. -/
def assign (strtof : Bytes → Conversion CFloat) (flag : Flag) (value : Bytes) (a : Arguments) :
    Outcome :=
  let c := a.config
  match flag with
  | model => .parsed { a with modelPath := value }
  | modelId => .parsed { a with modelId := value }
  | context => flag.store "an integer" (parseIntArg (some value)) fun n =>
      { a with config := { c with contextSize := n } }
  | threads => flag.store "an integer" (parseIntArg (some value)) fun n =>
      { a with config := { c with threads := n } }
  | temperature => flag.store "a float" (parseFloatArg strtof (some value)) fun x =>
      { a with config := { c with temperature := x } }
  | topP => flag.store "a float" (parseFloatArg strtof (some value)) fun x =>
      { a with config := { c with topP := x } }
  | topK => flag.store "an integer" (parseIntArg (some value)) fun n =>
      { a with config := { c with topK := n } }
  | maxTokens => flag.store "an integer" (parseIntArg (some value)) fun n =>
      { a with config := { c with maxTokens := n } }
  | memoryBudget => flag.store "an integer (MB)" (parseInt64Arg (some value)) fun n =>
      { a with config := { c with memoryBudgetMb := n } }
  | safetyReserve => flag.store "an integer (MB)" (parseInt64Arg (some value)) fun n =>
      { a with config := { c with safetyReserveMb := n } }
  | timeLimitMinutes => flag.storeSeconds (parseInt64Arg (some value)) 60 fun n =>
      { a with config := { c with sessionTimeLimitSeconds := n } }
  | messageLimit => flag.store "an integer" (parseInt64Arg (some value)) fun n =>
      { a with config := { c with dailyMessageLimit := n } }
  | tokenLimit => flag.store "an integer" (parseInt64Arg (some value)) fun n =>
      { a with config := { c with dailyTokenLimit := n } }
  | resetPeriodHours => flag.storeSeconds (parseInt64Arg (some value)) 3600 fun n =>
      { a with config := { c with resetPeriodSeconds := n } }
  | usageStatePath => .parsed { a with config := { c with usageStatePath := some value } }
  | checksum => .parsed { a with config := { c with expectedModelChecksumSha256 := some value } }
  | registryPath => .parsed { a with config := { c with modelRegistryPath := some value } }

end Flag

def parseArguments (strtof : Bytes → Conversion CFloat) : List Bytes → Arguments → Outcome
  | [], a => .parsed a
  | arg :: rest, a =>
      if arg = text "-h" ∨ arg = text "--help" then .exit 0 []
      else if arg = text "--list-models" then
        parseArguments strtof rest { a with listModelsAndExit := true }
      else
        match Flag.ofArg arg, rest with
        | some flag, [] => .exit 2 (text "ERROR: " ++ flag.name ++ text " requires a value.\n")
        | some flag, value :: rest =>
            (flag.assign strtof value a).bind fun a => parseArguments strtof rest a
        | none, rest =>
            if arg ≠ [] ∧ arg.head? ≠ some 45 then
              parseArguments strtof rest { a with trailingPrompt := some arg }
            else .exit 2 (text "ERROR: Unrecognized argument: " ++ arg ++ text "\n")

def initialArguments (hwThreads : UInt32) : Arguments where
  config := if hwThreads > 0 then { threads := hwThreads.toInt32 } else {}

/-- The configuration `main` creates a runtime with, if it comes to that. -/
def runConfig (strtof : Bytes → Conversion CFloat) (hwThreads : UInt32) (args : List Bytes)
    (registry : FileSystem) : Option Api.Config :=
  match parseArguments strtof args (initialArguments hwThreads) with
  | .parsed a =>
      if a.listModelsAndExit then none
      else createConfig a.modelPath a.modelId a.config registry
  | _ => none

theorem wholeArg_strtoll_none {s : Bytes} (h : ∀ z, ¬Numeral s z) :
    wholeArg strtoll (some s) = none := by
  apply if_pos
  by_contra hread
  rw [not_or, not_not] at hread
  obtain ⟨z, hz⟩ := numeral_of_strtoll hread.1 hread.2
  exact h z hz

theorem wholeArg_strtoll {s : Bytes} {z : Int} (h : Numeral s z) :
    wholeArg strtoll (some s) = some (max (-2 ^ 63) (min z (2 ^ 63 - 1))) := by
  obtain ⟨hne, hrest, hvalue⟩ := h.strtoll
  refine (if_neg ?_).trans (congrArg some hvalue)
  rw [not_or, not_not, hrest]
  exact ⟨hne.symm, rfl⟩

def InInt32 (z : Int) : Prop := -2 ^ 31 ≤ z ∧ z < 2 ^ 31

/-- A conversion succeeds only for the numeral of the integer it stores. -/
def StoresDenoted {α : Type} (parse : Option Bytes → Option α) (toInt : α → Int) (s : Bytes) : Prop :=
  ∀ n, parse (some s) = some n → Numeral s (toInt n)

theorem storesDenoted_iff {α : Type} {ofInt : Int → α} {toInt : α → Int} {InRange : Int → Prop}
    (hrange : ∀ n, InRange (toInt n)) (hofInt : ∀ z, InRange z → toInt (ofInt z) = z)
    (hlong : ∀ z, InRange z → InInt64 z) (s : Bytes) :
    StoresDenoted (fun s => (wholeArg strtoll s).map ofInt) toInt s ↔
      ∀ z, Numeral s z → InRange z := by
  constructor
  · intro h z hz
    have hdenoted := h _ (congrArg (Option.map ofInt) (wholeArg_strtoll hz))
    rw [hz.unique hdenoted]
    exact hrange _
  · intro h n hn
    by_cases hnumeral : ∃ z, Numeral s z
    · obtain ⟨z, hz⟩ := hnumeral
      obtain ⟨hlow, hhigh⟩ := hlong z (h z hz)
      have hclamp : max (-2 ^ 63) (min z (2 ^ 63 - 1)) = z := by omega
      dsimp only at hn
      rw [wholeArg_strtoll hz, hclamp] at hn
      cases hn
      rwa [hofInt z (h z hz)]
    · dsimp only at hn
      rw [wholeArg_strtoll_none (not_exists.mp hnumeral)] at hn
      cases hn

theorem parseIntArg_iff (s : Bytes) :
    StoresDenoted parseIntArg Int32.toInt s ↔ ∀ z, Numeral s z → InInt32 z := by
  apply storesDenoted_iff
  · exact fun n => ⟨n.le_toInt, n.toInt_lt⟩
  · exact fun z h => Int32.toInt_ofInt_of_le h.1 h.2
  · intro z h
    unfold InInt32 at h
    unfold InInt64
    omega

theorem parseInt64Arg_iff (s : Bytes) :
    StoresDenoted parseInt64Arg Int64.toInt s ↔ ∀ z, Numeral s z → InInt64 z := by
  apply storesDenoted_iff
  · exact fun n => ⟨n.le_toInt, n.toInt_lt⟩
  · exact fun z h => Int64.toInt_ofInt_of_le h.1 h.2
  · exact fun z h => h

/-- The loop ends at the argument, or the seconds of as many units as the argument denotes are stored,
and the runtime is configured with them. -/
def StoresSeconds (factor : Int) (stored : Api.Config → Int64) (used : RuntimeConfig → Int64)
    (value : Bytes) : Outcome → Prop
  | .parsed a => ∃ m, Numeral value m ∧ (stored a.config).toInt = factor * m ∧
      (used (Api.toCppConfig (some a.config))).toInt = factor * m
  | .exit _ _ => True
  | .undefined => False

theorem inInt64_of_scaled {factor m : Int} (hfactor : 2 ≤ factor)
    (h : InInt64 (factor * max (-2 ^ 63) (min m (2 ^ 63 - 1)))) : InInt64 m := by
  obtain ⟨hlow, hhigh⟩ := h
  by_contra hm
  unfold InInt64 at hm
  rcases lt_or_ge m (-2 ^ 63) with hsmall | hlarge
  · rw [show max (-2 ^ 63) (min m (2 ^ 63 - 1)) = -2 ^ 63 by omega] at hlow
    omega
  · rw [show max (-2 ^ 63) (min m (2 ^ 63 - 1)) = 2 ^ 63 - 1 by omega] at hhigh
    omega

theorem inInt64_of_mul {factor m : Int} (hfactor : 1 ≤ factor) (h : InInt64 (factor * m)) :
    InInt64 m := by
  obtain ⟨hlow, hhigh⟩ := h
  rcases lt_or_ge m 0 with hm | hm
  · have hmul : factor * m ≤ m := by nlinarith
    exact ⟨hlow.trans hmul, by omega⟩
  · have hmul : m ≤ factor * m := le_mul_of_one_le_left hm hfactor
    exact ⟨by omega, hmul.trans_lt hhigh⟩

theorem storeSeconds_numeral {factor m : Int} {value : Bytes} (hfactor : 2 ≤ factor)
    (hm : Numeral value m) (flag : Flag) (set : Int64 → Arguments) :
    flag.storeSeconds (parseInt64Arg (some value)) factor set =
      if InInt64 (factor * m) then .parsed (set (Int64.ofInt (factor * m))) else .undefined := by
  have hparse : parseInt64Arg (some value) = some _ :=
    congrArg (Option.map Int64.ofInt) (wholeArg_strtoll hm)
  have hclamp := Int64.toInt_ofInt_of_le (n := max (-2 ^ 63) (min m (2 ^ 63 - 1)))
    (by omega) (by omega)
  rw [hparse]
  unfold Flag.storeSeconds mulInt64
  dsimp only
  rw [hclamp, mul_comm _ factor]
  by_cases hscaled : InInt64 (factor * m)
  · obtain ⟨hlow, hhigh⟩ := inInt64_of_mul (by omega) hscaled
    rw [show max (-2 ^ 63) (min m (2 ^ 63 - 1)) = m by omega, if_pos hscaled, if_pos hscaled]
  · rw [if_neg hscaled, if_neg]
    intro hlimit
    obtain ⟨hlow, hhigh⟩ := inInt64_of_scaled hfactor hlimit
    rw [show max (-2 ^ 63) (min m (2 ^ 63 - 1)) = m by omega] at hlimit
    exact hscaled hlimit

theorem storeSeconds_other {factor : Int} {value : Bytes} (h : ∀ m, ¬Numeral value m) (flag : Flag)
    (set : Int64 → Arguments) :
    flag.storeSeconds (parseInt64Arg (some value)) factor set =
      flag.store "an integer" (none : Option Int64) set := by
  have hparse : parseInt64Arg (some value) = none :=
    congrArg (Option.map Int64.ofInt) (wholeArg_strtoll_none h)
  rw [hparse]
  rfl

theorem storeSeconds_exact {factor : Int} (hfactor : 2 ≤ factor) {flag : Flag} {value : Bytes}
    {set : Int64 → Arguments} {b : Arguments}
    (h : flag.storeSeconds (parseInt64Arg (some value)) factor set = .parsed b) :
    ∃ m, Numeral value m ∧ ∃ seconds : Int64, seconds.toInt = factor * m ∧ b = set seconds := by
  by_cases hnumeral : ∃ m, Numeral value m
  · obtain ⟨m, hm⟩ := hnumeral
    rw [storeSeconds_numeral hfactor hm] at h
    split at h
    · next hscaled =>
        cases h
        exact ⟨m, hm, _, Int64.toInt_ofInt_of_le hscaled.1 hscaled.2, rfl⟩
    · cases h
  · rw [storeSeconds_other (not_exists.mp hnumeral)] at h
    cases h

theorem positiveOr_seconds {factor m : Int} (hfactor : 0 < factor) {seconds : Int64}
    (hseconds : seconds.toInt = factor * m) (default : Int64) :
    (Api.positiveOr seconds default).toInt = factor * m ↔ 0 < m ∨ factor * m = default.toInt := by
  have hpos : seconds > 0 ↔ 0 < m := by
    rw [gt_iff_lt, Int64.lt_iff_toInt_lt, hseconds]
    exact mul_pos_iff_of_pos_left hfactor
  unfold Api.positiveOr
  split
  · next h => exact ⟨fun _ => .inl (hpos.mp h), fun _ => hseconds⟩
  · next h =>
      rw [or_iff_right fun hm => h (hpos.mpr hm)]
      exact eq_comm

theorem storeSeconds_iff {factor : Int} (hfactor : 2 ≤ factor) {stored : Api.Config → Int64}
    {used : RuntimeConfig → Int64} {set : Int64 → Arguments} {default : Int64}
    (hstored : ∀ n, stored (set n).config = n)
    (hused : ∀ n, used (Api.toCppConfig (some (set n).config)) = Api.positiveOr n default)
    (flag : Flag) (value : Bytes) :
    StoresSeconds factor stored used value
        (flag.storeSeconds (parseInt64Arg (some value)) factor set) ↔
      ∀ m, Numeral value m → InInt64 (factor * m) ∧ (0 < m ∨ factor * m = default.toInt) := by
  by_cases hnumeral : ∃ m, Numeral value m
  · obtain ⟨m, hm⟩ := hnumeral
    rw [storeSeconds_numeral hfactor hm]
    split
    · next hscaled =>
        have hseconds := Int64.toInt_ofInt_of_le hscaled.1 hscaled.2
        have hexact := positiveOr_seconds (by omega) hseconds default
        rw [← hused, ← hstored (Int64.ofInt (factor * m))] at hexact
        constructor
        · rintro ⟨m', hm', -, hrun⟩ n hn
          rw [hm'.unique hm] at hrun
          rw [hn.unique hm]
          exact ⟨hscaled, hexact.mp (by rw [hstored]; exact hrun)⟩
        · intro h
          refine ⟨m, hm, by rw [hstored, hseconds], ?_⟩
          have hrun := hexact.mpr (h m hm).2
          rwa [hstored] at hrun
    · next hscaled => exact ⟨False.elim, fun h => hscaled (h m hm).1⟩
  · rw [storeSeconds_other (not_exists.mp hnumeral)]
    exact ⟨fun _ m hm => absurd ⟨m, hm⟩ hnumeral, fun _ => trivial⟩

/-- The arguments with a value that the loop comes to, with their values. -/
def readings : List Bytes → List (Flag × Bytes)
  | [] => []
  | arg :: rest =>
      match Flag.ofArg arg, rest with
      | some flag, value :: rest => (flag, value) :: readings rest
      | _, rest => readings rest

def lastReading (flag : Flag) (args : List Bytes) : Option (Flag × Bytes) :=
  lastWhere (fun reading => reading.1 = flag) (readings args)

theorem Outcome.bind_parsed {o : Outcome} {f : Arguments → Outcome} {a : Arguments}
    (h : o.bind f = .parsed a) : ∃ b, o = .parsed b ∧ f b = .parsed a := by
  cases o with
  | parsed b => exact ⟨b, rfl, h⟩
  | exit code message => cases h
  | undefined => cases h

theorem readings_flag {arg : Bytes} {flag : Flag} (h : Flag.ofArg arg = some flag) (value : Bytes)
    (rest : List Bytes) :
    readings (arg :: value :: rest) = (flag, value) :: readings rest := by
  rw [readings.eq_def]
  simp only [h]

theorem readings_other {arg : Bytes} (h : Flag.ofArg arg = none) (rest : List Bytes) :
    readings (arg :: rest) = readings rest := by
  rw [readings.eq_def]
  simp only [h]

/-- What an accepted command line leaves in a field that one argument sets: the value read last, or what
was there. -/
theorem parseArguments_last {β : Type} (get : Api.Config → β) (P : Bytes → β → Prop) {flag : Flag}
    {strtof : Bytes → Conversion CFloat}
    (hset : ∀ value a b, flag.assign strtof value a = .parsed b → P value (get b.config))
    (hkeep : ∀ other value a b, other ≠ flag → Flag.assign strtof other value a = .parsed b →
      get b.config = get a.config) (args : List Bytes) (a b : Arguments)
    (h : parseArguments strtof args a = .parsed b) :
    (∀ reading, lastReading flag args = some reading → P reading.2 (get b.config)) ∧
      (lastReading flag args = none → get b.config = get a.config) := by
  revert h
  unfold lastReading
  fun_induction parseArguments strtof args a with
  | case1 a =>
      intro h
      cases h
      exact ⟨nofun, fun _ => rfl⟩
  | case2 | case4 | case7 => exact nofun
  | case3 rest a hhelp ih =>
      intro h
      rw [readings_other (by decide)]
      exact ih h
  | case5 arg a hhelp hlist flag' value rest hflag ih =>
      intro h
      obtain ⟨c, hassign, hrest⟩ := Outcome.bind_parsed h
      obtain ⟨hlast, hnone⟩ := ih c hrest
      rw [readings_flag hflag, lastWhere_cons]
      cases hread : lastWhere (fun reading => reading.1 = flag) (readings rest) with
      | some reading =>
          refine ⟨fun r hr => hlast r (hread.trans hr), nofun⟩
      | none =>
          rw [Option.none_or]
          by_cases heq : flag' = flag
          · subst heq
            refine ⟨fun r hr => ?_, fun hr => ?_⟩
            · rw [if_pos (by simp)] at hr
              cases hr
              rw [hnone hread]
              exact hset _ _ _ hassign
            · rw [if_pos (by simp)] at hr
              cases hr
          · rw [if_neg (by simpa using heq)]
            exact ⟨nofun, fun _ => (hnone hread).trans (hkeep _ _ _ _ heq hassign)⟩
  | case6 arg a hhelp hlist rest hflag hprompt ih =>
      intro h
      rw [readings_other hflag]
      exact ih h

theorem Flag.store_parsed {α : Type} {flag : Flag} {expects : String} {parsed : Option α}
    {set : α → Arguments} {a : Arguments} (h : flag.store expects parsed set = .parsed a) :
    ∃ x, parsed = some x ∧ a = set x := by
  unfold Flag.store at h
  split at h
  · cases h
  · cases h
    exact ⟨_, rfl, rfl⟩

theorem Flag.storeSeconds_parsed {flag : Flag} {parsed : Option Int64} {factor : Int}
    {set : Int64 → Arguments} {a : Arguments}
    (h : flag.storeSeconds parsed factor set = .parsed a) : ∃ n, a = set n := by
  unfold Flag.storeSeconds at h
  split at h
  · cases h
  · split at h
    · cases h
    · cases h
      exact ⟨_, rfl⟩

theorem Flag.assign_seconds {strtof : Bytes → Conversion CFloat} {flag : Flag} {value : Bytes}
    {a b : Arguments} (h : flag.assign strtof value a = .parsed b) :
    (flag ≠ timeLimitMinutes →
      b.config.sessionTimeLimitSeconds = a.config.sessionTimeLimitSeconds) ∧
    (flag ≠ resetPeriodHours → b.config.resetPeriodSeconds = a.config.resetPeriodSeconds) := by
  cases flag with
  | timeLimitMinutes =>
      obtain ⟨n, rfl⟩ := storeSeconds_parsed h
      exact ⟨fun hne => absurd rfl hne, fun _ => rfl⟩
  | resetPeriodHours =>
      obtain ⟨n, rfl⟩ := storeSeconds_parsed h
      exact ⟨fun _ => rfl, fun hne => absurd rfl hne⟩
  | model | modelId | usageStatePath | checksum | registryPath =>
      cases h
      exact ⟨fun _ => rfl, fun _ => rfl⟩
  | _ =>
      obtain ⟨x, -, rfl⟩ := store_parsed h
      exact ⟨fun _ => rfl, fun _ => rfl⟩

theorem parsed_seconds {strtof : Bytes → Conversion CFloat} {args : List Bytes} {a b : Arguments}
    (h : parseArguments strtof args a = .parsed b) :
    (∀ reading, lastReading .timeLimitMinutes args = some reading →
      ∃ m, Numeral reading.2 m ∧ b.config.sessionTimeLimitSeconds.toInt = 60 * m) ∧
    ∀ reading, lastReading .resetPeriodHours args = some reading →
      ∃ hours, Numeral reading.2 hours ∧ b.config.resetPeriodSeconds.toInt = 3600 * hours := by
  constructor
  · refine (parseArguments_last Api.Config.sessionTimeLimitSeconds
      (fun value n => ∃ m, Numeral value m ∧ n.toInt = 60 * m) ?_ ?_ args a b h).1
    · intro value a b hassign
      obtain ⟨m, hm, seconds, hseconds, rfl⟩ := storeSeconds_exact (by decide) hassign
      exact ⟨m, hm, hseconds⟩
    · intro other value a b hne hassign
      exact (Flag.assign_seconds hassign).1 hne
  · refine (parseArguments_last Api.Config.resetPeriodSeconds
      (fun value n => ∃ hours, Numeral value hours ∧ n.toInt = 3600 * hours) ?_ ?_ args a b h).1
    · intro value a b hassign
      obtain ⟨hours, hhours, seconds, hseconds, rfl⟩ := storeSeconds_exact (by decide) hassign
      exact ⟨hours, hhours, hseconds⟩
    · intro other value a b hne hassign
      exact (Flag.assign_seconds hassign).2 hne

theorem createConfig_seconds {modelPath modelId : Bytes} {config c : Api.Config}
    {registry : FileSystem} (h : createConfig modelPath modelId config registry = some c) :
    c.sessionTimeLimitSeconds = config.sessionTimeLimitSeconds ∧
      c.resetPeriodSeconds = config.resetPeriodSeconds := by
  unfold createConfig at h
  obtain ⟨selected, -, hsome⟩ := Option.bind_eq_some_iff.mp h
  split at hsome
  · cases hsome
  · split at hsome
    · cases hsome
      exact ⟨rfl, rfl⟩
    · cases hsome
      exact ⟨rfl, rfl⟩

/-- A runtime is created with the seconds of the last minutes and the last hours of the command line;
where these are not positive it works with the defaults. -/
theorem runConfig_seconds {strtof : Bytes → Conversion CFloat} {hwThreads : UInt32}
    {args : List Bytes} {registry : FileSystem} {c : Api.Config}
    (h : runConfig strtof hwThreads args registry = some c) :
    (∀ reading, lastReading .timeLimitMinutes args = some reading →
      ∃ m, Numeral reading.2 m ∧ c.sessionTimeLimitSeconds.toInt = 60 * m ∧
        ((Api.toCppConfig (some c)).sessionTimeLimitSeconds.toInt = 60 * m ↔ 0 ≤ m)) ∧
    ∀ reading, lastReading .resetPeriodHours args = some reading →
      ∃ hours, Numeral reading.2 hours ∧ c.resetPeriodSeconds.toInt = 3600 * hours ∧
        ((Api.toCppConfig (some c)).resetPeriodSeconds.toInt = 3600 * hours ↔ 0 < hours) := by
  unfold runConfig at h
  split at h
  · next a hparsed =>
      split at h
      · cases h
      · obtain ⟨hsession, hreset⟩ := createConfig_seconds h
        obtain ⟨hminutes, hhours⟩ := parsed_seconds hparsed
        constructor
        · intro reading hreading
          obtain ⟨m, hm, hseconds⟩ := hminutes reading hreading
          rw [← hsession] at hseconds
          refine ⟨m, hm, hseconds, (positiveOr_seconds (by decide) hseconds 0).trans ?_⟩
          rw [Int64.toInt_zero]
          omega
        · intro reading hreading
          obtain ⟨hours, hhours, hseconds⟩ := hhours reading hreading
          rw [← hreset] at hseconds
          refine ⟨hours, hhours, hseconds, (positiveOr_seconds (by decide) hseconds 86400).trans ?_⟩
          rw [show (86400 : Int64).toInt = 86400 from rfl]
          omega
  · cases h

/-- The numbers of the command line are the ones that are used: what is stored is what the argument
denotes, and seconds are multiples of it. -/
def ExactArguments (strtof : Bytes → Conversion CFloat) : Prop :=
  ∀ (s : Bytes) (a : Arguments),
    StoresDenoted parseIntArg Int32.toInt s ∧ StoresDenoted parseInt64Arg Int64.toInt s ∧
    StoresSeconds 60 Api.Config.sessionTimeLimitSeconds RuntimeConfig.sessionTimeLimitSeconds s
      (Flag.timeLimitMinutes.assign strtof s a) ∧
    StoresSeconds 3600 Api.Config.resetPeriodSeconds RuntimeConfig.resetPeriodSeconds s
      (Flag.resetPeriodHours.assign strtof s a)

/-- Each is so exactly as long as the integer that is meant, or its multiple, can be held and, for
seconds, is not taken for a default. On a whole command line the last minutes and hours count. -/
theorem arguments_exact_iff (strtof : Bytes → Conversion CFloat) (s : Bytes) (a : Arguments) :
    (StoresDenoted parseIntArg Int32.toInt s ↔ ∀ z, Numeral s z → InInt32 z) ∧
    (StoresDenoted parseInt64Arg Int64.toInt s ↔ ∀ z, Numeral s z → InInt64 z) ∧
    (StoresSeconds 60 Api.Config.sessionTimeLimitSeconds RuntimeConfig.sessionTimeLimitSeconds s
        (Flag.timeLimitMinutes.assign strtof s a) ↔
      ∀ m, Numeral s m → InInt64 (60 * m) ∧ 0 ≤ m) ∧
    (StoresSeconds 3600 Api.Config.resetPeriodSeconds RuntimeConfig.resetPeriodSeconds s
        (Flag.resetPeriodHours.assign strtof s a) ↔
      ∀ hours, Numeral s hours → InInt64 (3600 * hours) ∧ 0 < hours) ∧
    ∀ hwThreads args registry c, runConfig strtof hwThreads args registry = some c →
      (∀ reading, lastReading .timeLimitMinutes args = some reading →
        ∃ m, Numeral reading.2 m ∧ c.sessionTimeLimitSeconds.toInt = 60 * m ∧
          ((Api.toCppConfig (some c)).sessionTimeLimitSeconds.toInt = 60 * m ↔ 0 ≤ m)) ∧
      ∀ reading, lastReading .resetPeriodHours args = some reading →
        ∃ hours, Numeral reading.2 hours ∧ c.resetPeriodSeconds.toInt = 3600 * hours ∧
          ((Api.toCppConfig (some c)).resetPeriodSeconds.toInt = 3600 * hours ↔ 0 < hours) := by
  refine ⟨parseIntArg_iff s, parseInt64Arg_iff s, ?_, ?_, fun _ _ _ _ => runConfig_seconds⟩
  · refine (storeSeconds_iff (by decide) (fun _ => rfl) (fun _ => rfl) _ s).trans ?_
    refine forall₂_congr fun m _ => and_congr_right fun _ => ?_
    rw [Int64.toInt_zero]
    omega
  · refine (storeSeconds_iff (by decide) (fun _ => rfl) (fun _ => rfl) _ s).trans ?_
    refine forall₂_congr fun hours _ => and_congr_right fun _ => ?_
    rw [show ({} : RuntimeConfig).resetPeriodSeconds.toInt = 86400 from rfl]
    omega

def readsNothing (s : Bytes) : Conversion CFloat := ⟨.finite 0, false, s⟩

/-- `2^32 + 1` threads are one, and `2^63` of anything else are one fewer; as minutes or hours they
overflow. A negative time limit is none, and a reset period of no hours is a day. -/
theorem arguments_inexact : ¬ExactArguments readsNothing ∧
    parseIntArg (some (text "4294967297")) = some 1 ∧
    parseInt64Arg (some (text "9223372036854775808")) = some 9223372036854775807 ∧
    Flag.timeLimitMinutes.assign readsNothing (text "9223372036854775807") { config := {} } =
      .undefined ∧
    Flag.resetPeriodHours.assign readsNothing (text "9223372036854775807") { config := {} } =
      .undefined ∧
    (∃ a, Flag.timeLimitMinutes.assign readsNothing (text "-5") { config := {} } = .parsed a ∧
      a.config.sessionTimeLimitSeconds = -300 ∧
      (Api.toCppConfig (some a.config)).sessionTimeLimitSeconds = 0) ∧
    ∃ a, Flag.resetPeriodHours.assign readsNothing (text "0") { config := {} } = .parsed a ∧
      a.config.resetPeriodSeconds = 0 ∧
      (Api.toCppConfig (some a.config)).resetPeriodSeconds = 86400 := by
  refine ⟨fun h => ?_, by decide, by decide, rfl, rfl, ⟨_, rfl, by decide, by decide⟩,
    ⟨_, rfl, by decide, by decide⟩⟩
  have hnumeral : Numeral ([] ++ text "4294967297") 4294967297 :=
    .signed (by simp) (.plain (by decide) (by decide +kernel))
  have hdenoted := (h (text "4294967297") { config := {} }).1 1 (by decide)
  exact absurd (hnumeral.unique hdenoted) (by decide)

end Cli

end EdgeMind
