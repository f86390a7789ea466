import EdgeMind.Cli.Main
import EdgeMind.Core.Recording

/-!
# Auto-selection over runs

Load attempts in processes that share nothing but the registry file. Together with the registry a
run keeps the entries that were recorded in it. An attempt without a model goes to the single entry
of the registry, whatever its status, and verifies that file without the checksum that rejected it.
-/

namespace EdgeMind

open Framework

/-- How a runtime comes to be created: by the command line, or through the C interface. -/
inductive Request
  | main (modelPath modelId : Bytes) (config : Api.Config)
  | create (config : Api.Config)

/-- One process that attempts a load; the registry of its surroundings is that of the run. -/
structure Attempt where
  request : Request
  world : World
  input : LoadInput

structure RegistryRun where
  registry : FileSystem
  records : List RegistryEntry := []

namespace RegistryRun

/-- The configuration a runtime is created with, if one is. -/
def createConfig (registryPath : Option Bytes) (registry : FileSystem) :
    Request → Option Api.Config
  | .main modelPath modelId config => Cli.createConfig modelPath modelId
      { config with modelRegistryPath := registryPath } registry
  | .create config => some { config with modelRegistryPath := registryPath }

/-- One attempt, with the registry at the given path. -/
def step (registryPath : Option Bytes) (s : RegistryRun) (a : Attempt) :
    RegistryRun × List Effect :=
  let w := { a.world with registry := s.registry }
  match createConfig registryPath s.registry a.request with
  | none => (s, [])
  | some config =>
      let created := Api.create (some config) w a.input
      ({ registry := created.world.registry
         records := s.records ++ created.effects.filterMap
          (Runtime.recordOf w (Api.toCppConfig (some config)) a.input) }, created.effects)

def cppPath (registryPath : Option Bytes) : Path :=
  Api.stringOr registryPath ({} : RuntimeConfig).modelRegistryPath

abbrev Inv (registryPath : Option Bytes) (s : RegistryRun) : Prop :=
  Recorded (cppPath registryPath) s.registry s.records

theorem createConfig_registryPath {registryPath : Option Bytes} {registry : FileSystem}
    {request : Request} {config : Api.Config}
    (h : createConfig registryPath registry request = some config) :
    config.modelRegistryPath = registryPath := by
  cases request with
  | create =>
      cases h
      rfl
  | main modelPath modelId =>
      obtain ⟨id, -, hconfig⟩ := Option.bind_eq_some_iff.mp h
      split_ifs at hconfig <;> cases hconfig <;> rfl

theorem step_inv (registryPath : Option Bytes) (s : RegistryRun) (a : Attempt)
    (h : Inv registryPath s) : Inv registryPath (step registryPath s a).1 := by
  unfold step
  cases hconfig : createConfig registryPath s.registry a.request with
  | none => exact h
  | some config =>
      have hpath : cppPath registryPath = (Api.toCppConfig (some config)).modelRegistryPath := by
        rw [← createConfig_registryPath hconfig]
        rfl
      rw [Inv, hpath] at h ⊢
      exact h.load (w := { a.world with registry := s.registry }) {} a.input

/-- What an attempt without a model asks for once the entry is selected. -/
def selectedConfig (registryPath : Option Bytes) (config : Api.Config) (entry : RegistryEntry) :
    RuntimeConfig :=
  { Api.toCppConfig (some { config with modelRegistryPath := registryPath }) with
    modelPath := []
    modelId := entry.modelId }

/-- The configuration is valid, the quota admits, and the file of the entry passes the checks. -/
def Accepts (registryPath : Option Bytes) (a : Attempt) (config : Api.Config)
    (entry : RegistryEntry) : Prop :=
  validateConfig (selectedConfig registryPath config entry) = [] ∧
    (Runtime.quotaStage a.world (selectedConfig registryPath config entry) a.input).2.allowed =
      true ∧
    ∃ content, a.world.models entry.localPath = .file content true ∧ GrammarValid content ∧
      ChecksumOk (selectedConfig registryPath config entry).expectedModelChecksumSha256 content

theorem toCppConfig_selected (registryPath : Option Bytes) (config : Api.Config)
    {entry : RegistryEntry} {models : FileSystem} {modelPath : Path}
    (hrecord : ModelRegistry.RecordOf models modelPath entry) :
    Api.toCppConfig (some { config with
        modelPath := none
        modelId := some (Api.cString (Api.copyOut entry.modelId 65))
        modelRegistryPath := registryPath }) = selectedConfig registryPath config entry := by
  obtain ⟨content, -, hid⟩ := hrecord.modelId
  have hzero : (0 : UInt8) ∉ entry.modelId := hid ▸ Fips180.zero_notMem_sha256Hex content
  have hlength : entry.modelId.length < 65 := by
    rw [hid, Fips180.sha256Hex_length]
    decide
  rw [Api.cString_copyOut hzero hlength, selectedConfig, Api.toCppConfig, Api.toCppConfig]
  dsimp only [Api.stringOr]
  rw [Api.cString_of_notMem hzero]

theorem load_selected_iff {registryPath : Option Bytes} {s : RegistryRun} (h : Inv registryPath s)
    {entry : RegistryEntry} (hlast : s.records.getLast? = some entry) (a : Attempt)
    (config : Api.Config) (p : Path) :
    .engineLoad p ∈ (({} : Runtime).load { a.world with registry := s.registry }
        (selectedConfig registryPath config entry) a.input).effects ↔
      Accepts registryPath a config entry ∧ entry.localPath = p := by
  obtain ⟨hresolved, hpath⟩ := Recorded.resolution_last
    { a.world with registry := s.registry } (selectedConfig registryPath config entry) h hlast rfl rfl
  rw [Runtime.engineLoad_mem_iff, Runtime.importStage, ModelRegistry.importModel_verified_iff,
    hpath]
  constructor
  · intro h
    obtain ⟨hconfig, hquota, -, hverified, hp⟩ := h
    exact ⟨⟨hconfig, hquota, hverified⟩, hp⟩
  · intro h
    obtain ⟨⟨hconfig, hquota, hverified⟩, hp⟩ := h
    exact ⟨hconfig, hquota, hresolved, hverified, hp⟩

/-- An attempt without a model reaches the engine exactly with the file of the entry that was
recorded last, where nothing of another identity was recorded and the stages accept that file. -/
theorem step_engineLoad_iff {registryPath : Option Bytes} {s : RegistryRun} {a : Attempt}
    {config : Api.Config} (h : Inv registryPath s) (hrequest : a.request = .main [] [] config)
    (p : Path) :
    .engineLoad p ∈ (step registryPath s a).2 ↔
      ∃ entry, (s.records.getLast? = some entry ∧ ∀ e ∈ s.records, e.modelId = entry.modelId) ∧
        Accepts registryPath a config entry ∧ entry.localPath = p := by
  have hselected (c : Api.Config) := Cli.createConfig_selected_iff
    { config with modelRegistryPath := registryPath } c s.registry
  unfold step
  rw [hrequest]
  cases hconfig : createConfig registryPath s.registry (.main [] [] config) with
  | none =>
      refine ⟨nofun, fun ⟨entry, hsingle, _⟩ => ?_⟩
      have hsome := (hselected _).mpr ⟨entry, (h.load_single_iff entry).mpr hsingle, rfl⟩
      rw [createConfig, hsome] at hconfig
      cases hconfig
  | some c =>
      obtain ⟨entry, hload, rfl⟩ := (hselected c).mp hconfig
      have hsingle := (h.load_single_iff entry).mp hload
      obtain ⟨_, _, hrecord⟩ := h.verdict entry (List.mem_of_getLast? hsingle.1)
      dsimp only [Api.create]
      rw [toCppConfig_selected registryPath config hrecord, load_selected_iff h hsingle.1]
      constructor
      · intro haccepts
        exact ⟨entry, hsingle, haccepts⟩
      · intro ⟨entry', hsingle', haccepts⟩
        rw [hsingle.1] at hsingle'
        cases hsingle'.1
        exact haccepts

/-- The entry is a record of the file: it names its path or its identity. -/
def RecordsFile (models : FileSystem) (p : Path) (entry : RegistryEntry) : Prop :=
  entry.localPath = p ∨
    ∃ content, models p = .file content true ∧ entry.modelId = Fips180.sha256Hex content

/-- The most recent record of the file says that its checksum did not match. -/
def LastRejected (models : FileSystem) (p : Path) (records : List RegistryEntry) : Prop :=
  ∃ earlier entry later, records = earlier ++ entry :: later ∧ RecordsFile models p entry ∧
    (∀ e ∈ later, ¬RecordsFile models p e) ∧ entry.verificationStatus = .checksumMismatch

/-- An attempt without a model that reaches the engine hands it no rejected file, and without a
checksum was selected from a verified entry. -/
def SafeSelection (registryPath : Option Bytes) (e : Entry RegistryRun Attempt (List Effect)) :
    Prop :=
  ∀ config, e.input.request = .main [] [] config → ∀ p, .engineLoad p ∈ e.output →
    (Api.stringOr config.expectedModelChecksumSha256 [] = [] →
      (selectModelForCli e.before.registry (cppPath registryPath)).selectedEntry.verificationStatus =
        .verified) ∧
    ¬LastRejected e.input.world.models p e.before.records

/-- An attempt without a model when everything recorded is of one identity, its checksum did not
match when it was last recorded, and the stages now accept its file. -/
def SelectsRejected (registryPath : Option Bytes) (e : Entry RegistryRun Attempt (List Effect)) :
    Prop :=
  ∃ config entry, e.input.request = .main [] [] config ∧
    (e.before.records.getLast? = some entry ∧
      ∀ r ∈ e.before.records, r.modelId = entry.modelId) ∧
    entry.verificationStatus = .checksumMismatch ∧ Accepts registryPath e.input config entry

theorem lastRejected_iff {records : List RegistryEntry} {entry : RegistryEntry}
    (hlast : records.getLast? = some entry) (models : FileSystem) :
    LastRejected models entry.localPath records ↔
      entry.verificationStatus = .checksumMismatch := by
  obtain ⟨earlier, rfl⟩ := List.getLast?_eq_some_iff.mp hlast
  constructor
  · intro ⟨before, e, later, heq, _, hlater, hstatus⟩
    rcases List.eq_nil_or_concat' later with rfl | ⟨later, last, rfl⟩
    · cases (List.append_inj' heq rfl).2
      exact hstatus
    · rw [← List.cons_append, ← List.append_assoc] at heq
      cases (List.append_inj' heq rfl).2
      exact absurd (.inl rfl) (hlater entry (by simp))
  · intro hstatus
    exact ⟨earlier, entry, [], rfl, .inl rfl, nofun, hstatus⟩

theorem safeSelection_iff {registryPath : Option Bytes}
    {e : Entry RegistryRun Attempt (List Effect)} (h : Inv registryPath e.before)
    (houtput : e.output = (step registryPath e.before e.input).2) :
    SafeSelection registryPath e ↔ ¬SelectsRejected registryPath e := by
  constructor
  · intro hsafe ⟨config, entry, hrequest, hsingle, hstatus, haccepts⟩
    have hreach := (step_engineLoad_iff h hrequest entry.localPath).mpr
      ⟨entry, hsingle, haccepts, rfl⟩
    rw [← houtput] at hreach
    have hnot := (hsafe config hrequest entry.localPath hreach).2
    exact hnot ((lastRejected_iff hsingle.1 e.input.world.models).mpr hstatus)
  · intro hnone config hrequest p hreach
    rw [houtput, step_engineLoad_iff h hrequest] at hreach
    obtain ⟨entry, hsingle, haccepts, rfl⟩ := hreach
    have hstatus : entry.verificationStatus ≠ .checksumMismatch := fun hstatus =>
      hnone ⟨config, entry, hrequest, hsingle, hstatus, haccepts⟩
    refine ⟨fun _ => ?_, fun hrejected => hstatus ((lastRejected_iff hsingle.1 _).mp hrejected)⟩
    have hload := (h.load_single_iff entry).mpr hsingle
    rw [((selectModelForCli_single_iff _ _ entry).mpr hload).2]
    obtain ⟨_, _, hrecord⟩ := h.verdict entry (List.mem_of_getLast? hsingle.1)
    exact hrecord.status.resolve_right hstatus

/-- In every run from an absent registry auto-selection is safe exactly if it is never attempted
while the only identity recorded was last rejected for its checksum and would pass without it. -/
theorem autoSelection_safe_iff (registryPath : Option Bytes) (registry : FileSystem)
    (habsent : registry (cppPath registryPath) = .absent) (attempts : List Attempt) :
    (∀ e ∈ trace (step registryPath) { registry } attempts, SafeSelection registryPath e) ↔
      ∀ e ∈ trace (step registryPath) { registry } attempts, ¬SelectsRejected registryPath e := by
  have hinit : Inv registryPath { registry } := recorded_nil habsent
  have htrace := trace_forall (Inv registryPath) (fun _ => True)
    (fun s a _ h => step_inv registryPath s a h) hinit
    (fun a (_ : a ∈ attempts) => trivial)
  constructor
  · intro hsafe e he
    obtain ⟨hinv, -, houtput⟩ := htrace e he
    exact (safeSelection_iff hinv houtput).mp (hsafe e he)
  · intro hnone e he
    obtain ⟨hinv, -, houtput⟩ := htrace e he
    exact (safeSelection_iff hinv houtput).mpr (hnone e he)

/-- The sample file is imported, with a checksum or without, and then auto-selected without one. -/
def sampleAttempts (checksum : Option Bytes) : List Attempt := [
  { request := .create
      { modelPath := some (text "m.gguf"), expectedModelChecksumSha256 := checksum }
    world := Runtime.sampleWorld
    input := Runtime.sampleInput },
  { request := .main [] [] {}, world := Runtime.sampleWorld, input := Runtime.sampleInput }]

/-- The last attempt hands the sample file to the engine. -/
def LoadsSample (run : List (Entry RegistryRun Attempt (List Effect))) : Prop :=
  ∃ e ∈ run, ∃ config, e.input.request = .main [] [] config ∧ .engineLoad (text "m.gguf") ∈ e.output

/-- Rejected for its checksum, the file is handed to the engine by the next start. -/
theorem autoSelection_rejected :
    ¬∀ e ∈ trace (step none) { registry := fun _ => .absent }
      (sampleAttempts (some (List.replicate 64 48))), SafeSelection none e := by
  intro hsafe
  have hlast := hsafe _ (List.mem_cons_of_mem _ (List.mem_singleton_self _)) {} rfl (text "m.gguf")
    (Runtime.engineLoad_mem_of_any (by decide +kernel))
  exact absurd (hlast.1 rfl) (by decide +kernel)

/-- Imported without a checksum, it is verified. -/
theorem autoSelection_verified :
    (∀ e ∈ trace (step none) { registry := fun _ => .absent } (sampleAttempts none),
      SafeSelection none e) ∧
    LoadsSample (trace (step none) { registry := fun _ => .absent } (sampleAttempts none)) := by
  refine ⟨(autoSelection_safe_iff none (fun _ => .absent) rfl (sampleAttempts none)).mpr ?_,
    ⟨_, List.mem_cons_of_mem _ (List.mem_singleton_self _), {}, rfl,
      Runtime.engineLoad_mem_of_any (by decide +kernel)⟩⟩
  intro e he ⟨config, entry, hrequest, hsingle, hstatus, _⟩
  rcases List.mem_cons.mp he with rfl | he
  · cases hrequest
  · rw [List.mem_singleton.mp he] at hsingle
    have hlast := congrArg (Option.map RegistryEntry.verificationStatus) hsingle.1
    rw [Option.map_some, hstatus] at hlast
    exact absurd hlast (by decide +kernel)

end RegistryRun

end EdgeMind
