import EdgeMind.Framework.Run
import EdgeMind.Model.RegistryImport

/-!
# Runs of imports

Imports that go to one registry, starting without a registry file. The registry holds one entry for
every identity that was imported, in the order of the first imports and with the fields of the last.
-/

namespace EdgeMind

open Framework

/-- One import: the model files it reads, its arguments and its clock reading. -/
structure ImportCall where
  models : FileSystem
  modelPath : Path
  expectedChecksumSha256 : Bytes
  now : Int64

namespace ImportCall

def verify (c : ImportCall) : VerificationResult :=
  ModelVerifier.verify c.models c.modelPath c.expectedChecksumSha256

/-- The import on a registry, with a save that succeeds. -/
def step (registryPath : Path) (registry : FileSystem) (c : ImportCall) :
    FileSystem × ModelRegistry.ImportResult :=
  let result := ModelRegistry.importModel c.models registry registryPath c.modelPath
    c.expectedChecksumSha256 c.now .ok
  (result.registry, result)

/-- The SHA-256 identity of a file that is verified, or rejected for its checksum only. -/
def identity (c : ImportCall) : Option Bytes :=
  match c.models c.modelPath with
  | .file content true =>
      if c.verify.status = .verified ∨ c.verify.status = .checksumMismatch then
        some (Fips180.sha256Hex content)
      else none
  | _ => none

theorem identity_eq_some_iff (c : ImportCall) (id : Bytes) :
    c.identity = some id ↔ ∃ content, c.models c.modelPath = .file content true ∧
      GrammarValid content ∧ id = Fips180.sha256Hex content := by
  have hstatus : c.verify.status = _ :=
    (verify_judged c.models c.modelPath c.expectedChecksumSha256).status
  unfold identity
  rw [hstatus]
  cases c.models c.modelPath with
  | absent => simp
  | special => simp
  | file content readable =>
      cases readable with
      | false => simp
      | true =>
          have hverdict := verdict_identified_iff content c.expectedChecksumSha256
          simp only [hverdict, Node.file.injEq, and_true, exists_eq_left']
          split <;> simp_all [eq_comm]

structure Describes (c : ImportCall) (entry : RegistryEntry) : Prop where
  modelId : c.identity = some entry.modelId
  localPath : entry.localPath = c.modelPath
  displayName : entry.displayName = c.verify.metadata.name.getD c.modelPath
  architecture : entry.architecture = c.verify.metadata.architecture.getD []
  quantization : entry.quantization = (c.verify.metadata.fileType.map modelFtypeName).getD []
  status : entry.verificationStatus = c.verify.status
  checksum : entry.expectedChecksumSha256 = c.expectedChecksumSha256
  verifiedAt : entry.verifiedAtUnix = c.now

/-- The entry that the import makes, if its file has an identity. -/
def entry (c : ImportCall) : Option RegistryEntry :=
  if c.verify.identity.computed then
    some (ModelRegistry.importedEntry c.models c.modelPath c.expectedChecksumSha256 c.verify c.now)
  else none

theorem entry_modelId (c : ImportCall) : c.entry.map RegistryEntry.modelId = c.identity := by
  have hjudged : Judged (c.models c.modelPath) c.expectedChecksumSha256 c.verify :=
    verify_judged c.models c.modelPath c.expectedChecksumSha256
  unfold entry
  by_cases hcomputed : c.verify.identity.computed = true
  · obtain ⟨content, hfile, hid⟩ := hjudged.sha256 hcomputed
    have hstatus := hjudged.identity.mp hcomputed
    rw [if_pos hcomputed, identity, hfile]
    dsimp only
    rw [if_pos hstatus, ← hid]
    rfl
  · have hstatus := hjudged.identity.not.mp hcomputed
    rw [if_neg hcomputed, identity]
    split
    · rw [if_neg hstatus]
      rfl
    · rfl

theorem describes_of_entry {c : ImportCall} {e : RegistryEntry} (h : c.entry = some e) :
    Describes c e := by
  have hid := c.entry_modelId
  rw [h] at hid
  unfold entry at h
  split at h
  · cases h
    exact {
      modelId := hid.symm
      localPath := rfl
      displayName := rfl
      architecture := rfl
      quantization := by
        unfold ModelRegistry.importedEntry
        dsimp only
        cases c.verify.metadata.fileType <;> rfl
      status := rfl
      checksum := rfl
      verifiedAt := rfl }
  · cases h

theorem step_recorded {registryPath : Path} {registry : FileSystem} {records : List RegistryEntry}
    (h : Recorded registryPath registry records) (c : ImportCall) :
    Recorded registryPath (step registryPath registry c).1 (records ++ c.entry.toList) := by
  have hstep := h.importModel c.models c.modelPath c.expectedChecksumSha256 c.now .ok
  have hentry : ModelRegistry.recordedEntry c.models registry registryPath c.modelPath
      c.expectedChecksumSha256 c.now .ok = c.entry := by
    unfold ModelRegistry.recordedEntry entry
    exact if_congr (and_iff_left ⟨h.readable, rfl⟩) rfl rfl
  rw [hentry] at hstep
  exact hstep

theorem run_recorded {registryPath : Path} {registry : FileSystem} {records : List RegistryEntry}
    (h : Recorded registryPath registry records) (calls : List ImportCall) :
    Recorded registryPath (final (step registryPath) registry calls)
      (records ++ calls.filterMap entry) := by
  induction calls generalizing registry records with
  | nil =>
      rw [List.filterMap_nil, List.append_nil]
      exact h
  | cons c calls ih =>
      have hrest := ih (step_recorded h c)
      rw [List.append_assoc] at hrest
      cases hentry : c.entry with
      | none =>
          rw [List.filterMap_cons_none hentry]
          rw [hentry] at hrest
          exact hrest
      | some e =>
          rw [List.filterMap_cons_some hentry]
          rw [hentry] at hrest
          exact hrest

/-- A file without an identity leaves the registry; any other is a new entry exactly if its identity
is not in it. -/
theorem step_output {registryPath : Path} {registry : FileSystem} {records : List RegistryEntry}
    (h : Recorded registryPath registry records) (c : ImportCall) :
    (c.identity = none → (step registryPath registry c).2.registry = registry) ∧
      ((step registryPath registry c).2.wasNewEntry = true ↔ ∃ id, c.identity = some id ∧
        id ∉ (ModelRegistry.load registry registryPath).2.map RegistryEntry.modelId) := by
  have hid := c.entry_modelId
  unfold entry at hid
  by_cases hcomputed : c.verify.identity.computed = true
  · have hnew := ModelRegistry.importModel_wasNewEntry c.models registry registryPath c.modelPath
      c.expectedChecksumSha256 c.now .ok hcomputed h.readable
    rw [if_pos hcomputed] at hid
    rw [← hid]
    refine ⟨nofun, hnew.trans ?_⟩
    simp [ModelRegistry.importedEntry, verify]
  · have hunrecorded := ModelRegistry.importModel_unrecorded c.models registry registryPath
      c.modelPath c.expectedChecksumSha256 c.now .ok (Bool.eq_false_iff.mpr hcomputed)
    rw [if_neg hcomputed] at hid
    refine ⟨fun _ => hunrecorded.1, ?_⟩
    rw [← hid]
    simp [step, hunrecorded.2]

theorem entries_of_calls {calls : List ImportCall} {e : RegistryEntry}
    (h : e ∈ replay RegistryEntry.modelId (calls.filterMap entry)) :
    ∃ c, calls.reverse.find? (fun c => c.identity = some e.modelId) = some c ∧ Describes c e := by
  have hlast := find?_of_mem_replay RegistryEntry.modelId h
  rw [← List.filterMap_reverse, List.find?_filterMap] at hlast
  obtain ⟨c, hc, he⟩ := Option.bind_eq_some_iff.mp hlast
  refine ⟨c, ?_, describes_of_entry he⟩
  rw [← hc]
  congr 1
  funext c
  rw [← c.entry_modelId]
  cases c.entry <;> simp

/-- Over any run of imports that starts without a registry file, the registry holds one entry for
every identity, in the order of the first imports and as the last import of it describes it. -/
theorem import_runs (registryPath : Path) (registry : FileSystem)
    (habsent : registry registryPath = .absent) (calls : List ImportCall) :
    let loaded := ModelRegistry.load (final (step registryPath) registry calls) registryPath
    let ids := calls.filterMap identity
    loaded.1 = (if ids = [] then .notFound else .ok) ∧
      (loaded.2.map RegistryEntry.modelId).Nodup ∧
      loaded.2.map RegistryEntry.modelId = ids.eraseDups ∧
      (∀ e ∈ loaded.2, ∃ c, calls.reverse.find? (fun c => c.identity = some e.modelId) = some c ∧
        Describes c e) ∧
      ∀ x ∈ trace (step registryPath) registry calls,
        (x.input.identity = none → x.output.registry registryPath = x.before registryPath) ∧
          (x.output.wasNewEntry = true ↔ ∃ id, x.input.identity = some id ∧
            id ∉ (ModelRegistry.load x.before registryPath).2.map RegistryEntry.modelId) := by
  intro loaded ids
  have hrun := run_recorded (recorded_nil habsent) calls
  rw [List.nil_append] at hrun
  have hloaded : loaded = _ := hrun.stored
  have hids : (calls.filterMap entry).map RegistryEntry.modelId = ids := by
    rw [List.map_filterMap]
    exact congrArg (calls.filterMap ·) (funext entry_modelId)
  have hnil : calls.filterMap entry = [] ↔ ids = [] := by
    rw [← hids, List.map_eq_nil_iff]
  rw [hloaded]
  refine ⟨?_, replay_keys_nodup _ _, ?_, fun e he => entries_of_calls he, fun x hx => ?_⟩
  · exact if_congr hnil rfl rfl
  · rw [replay_keys, hids]
  · obtain ⟨⟨records, hbefore⟩, -, houtput⟩ := trace_forall
      (fun registry => ∃ records, Recorded registryPath registry records) (fun _ => True)
      (fun s c _ hs => ⟨_, step_recorded hs.choose_spec c⟩) ⟨[], recorded_nil habsent⟩
      (fun _ _ => trivial) x hx
    have hstep := step_output hbefore x.input
    rw [← houtput] at hstep
    exact ⟨fun hnone => congrFun (hstep.1 hnone) registryPath, hstep.2⟩

def sampleImport (modelPath expectedChecksumSha256 : Bytes) : ImportCall where
  models := fun _ => .file (headerOnly 0) true
  modelPath := modelPath
  expectedChecksumSha256 := expectedChecksumSha256
  now := 1000

theorem import_runs_twice :
    let calls := [sampleImport (text "a.gguf") [], sampleImport (text "b.gguf") (text "0")]
    (ModelRegistry.load (final (step (text "r")) (fun _ => .absent) calls) (text "r")).2.map
      RegistryEntry.modelId = [Fips180.sha256Hex (headerOnly 0)] := by
  intro calls
  have hvalid : GrammarValid (headerOnly 0) :=
    (validateContent_status_valid_iff _).mp (by decide +kernel)
  have hid (path checksum : Bytes) :
      (sampleImport path checksum).identity = some (Fips180.sha256Hex (headerOnly 0)) :=
    (identity_eq_some_iff _ _).mpr ⟨_, rfl, hvalid, rfl⟩
  have hids : calls.filterMap identity =
      [Fips180.sha256Hex (headerOnly 0), Fips180.sha256Hex (headerOnly 0)] := by
    rw [List.filterMap_cons_some (hid _ _), List.filterMap_cons_some (hid _ _), List.filterMap_nil]
  rw [(import_runs (text "r") (fun _ => .absent) rfl calls).2.2.1, hids]
  simp [List.eraseDups_cons]

end ImportCall

end EdgeMind
