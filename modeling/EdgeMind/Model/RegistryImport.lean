import EdgeMind.Framework.Ledger
import EdgeMind.Model.RegistryCodec

/-!
# What an import leaves behind

An import returns the verdict of the file, whatever becomes of its record. Where it records an
entry, the registry is the table that is kept under the identities, with that entry written.
-/

namespace EdgeMind

open Framework

namespace ModelRegistry

theorem importModel_status (models registry : FileSystem) (registryPath modelPath : Path)
    (checksum : Bytes) (now : Int64) (outcome : SaveOutcome) :
    (importModel models registry registryPath modelPath checksum now outcome).result.status =
      (ModelVerifier.verify models modelPath checksum).status := by
  unfold importModel
  dsimp only
  split_ifs <;> rfl

theorem importModel_verified_iff (models registry : FileSystem) (registryPath modelPath : Path)
    (checksum : Bytes) (now : Int64) (outcome : SaveOutcome) :
    isVerified
        (importModel models registry registryPath modelPath checksum now outcome).result.status =
          true ↔
      ∃ content, models modelPath = .file content true ∧ GrammarValid content ∧
        ChecksumOk checksum content := by
  rw [isVerified_iff, importModel_status, (verify_judged models modelPath checksum).status,
    verdict_verified_iff]
  constructor
  · intro h
    obtain ⟨content, hfile, -, hg, hsum⟩ := h
    exact ⟨content, hfile, hg, hsum⟩
  · intro h
    obtain ⟨content, hfile, hg, hsum⟩ := h
    exact ⟨content, hfile, hg.ne_nil, hg, hsum⟩

theorem save_local (path : Path) (entries : List RegistryEntry) (outcome : SaveOutcome) :
    LocalTo path fun fs => save fs path entries outcome := by
  unfold save
  refine .ite (.replaceFile _ outcome) ?_
  cases outcome <;> exact .replaceFile _ _

theorem verify_congr {models models' : FileSystem} {modelPath : Path}
    (h : models modelPath = models' modelPath) (checksum : Bytes) :
    ModelVerifier.verify models modelPath checksum =
      ModelVerifier.verify models' modelPath checksum := by
  unfold ModelVerifier.verify GgufReader.validate computeModelIdentity
  rw [h]

theorem importModel_congr {models models' : FileSystem} {modelPath : Path}
    (h : models modelPath = models' modelPath) (registry : FileSystem) (registryPath : Path)
    (checksum : Bytes) (now : Int64) (outcome : SaveOutcome) :
    importModel models registry registryPath modelPath checksum now outcome =
      importModel models' registry registryPath modelPath checksum now outcome := by
  have hentry (result : VerificationResult) : importedEntry models modelPath checksum result now =
      importedEntry models' modelPath checksum result now := by
    unfold importedEntry
    rw [h]
  simp only [importModel, verify_congr h, hentry]

theorem importModel_local (models : FileSystem) (registryPath modelPath : Path) (checksum : Bytes)
    (now : Int64) (outcome : SaveOutcome) : LocalTo registryPath fun registry =>
      let imported := importModel models registry registryPath modelPath checksum now outcome
      (imported.registry, imported.result) := by
  let result := ModelVerifier.verify models modelPath checksum
  by_cases hcomputed : result.identity.computed = true
  case neg =>
    have hkept (registry : FileSystem) :
        importModel models registry registryPath modelPath checksum now outcome =
          { registry, result, wasNewEntry := false } := if_pos hcomputed
    simp only [hkept]
    exact .keep _
  let entry := importedEntry models modelPath checksum result now
  let warned (warning : Bytes) : VerificationResult :=
    { result with diagnostic := result.diagnostic ++ warning }
  let recorded (loaded : RegistryLoadResult × List RegistryEntry) (registry : FileSystem) :=
    let saved := save registry registryPath
      ((updateInPlace entry loaded.2).getD (loaded.2 ++ [entry])) outcome
    if loaded.1 = .corrupted then
      (registry, warned (text "\n\nWARNING: local model registry at " ++ registryPath ++
        text " is corrupted; import was verified but NOT recorded.\n" ++
        text "See docs/model-registry.md's \"Known limitations\" for recovery guidance."))
    else (saved.1, if saved.2 then result else
      warned (text "\n\nWARNING: verification succeeded but the registry could not be saved to " ++
        registryPath ++ text "."))
  have hrecorded (registry : FileSystem) :
      ((importModel models registry registryPath modelPath checksum now outcome).registry,
        (importModel models registry registryPath modelPath checksum now outcome).result) =
          recorded (load registry registryPath) registry := by
    unfold importModel recorded
    dsimp only
    rw [if_neg (not_not_intro hcomputed)]
    split
    · rfl
    · cases updateInPlace entry (load registry registryPath).2 <;> rfl
  have hlocal (loaded : RegistryLoadResult × List RegistryEntry) :
      LocalTo registryPath (recorded loaded) :=
    .ite (.keep _) ((save_local registryPath _ outcome).map fun saved => if saved then _ else _)
  simp only [hrecorded]
  exact .load (fun _ _ => load_congr) hlocal

/-- The entry an import records: of a file with an identity, in a registry that can be trusted, by a
save that succeeds. -/
def recordedEntry (models registry : FileSystem) (registryPath modelPath : Path)
    (checksum : Bytes) (now : Int64) (outcome : SaveOutcome) : Option RegistryEntry :=
  let result := ModelVerifier.verify models modelPath checksum
  if result.identity.computed ∧ (load registry registryPath).1 ≠ .corrupted ∧ outcome = .ok then
    some (importedEntry models modelPath checksum result now)
  else none

theorem updateInPlace_eq (entry : RegistryEntry) (entries : List RegistryEntry) :
    (updateInPlace entry entries).getD (entries ++ [entry]) =
      upsert RegistryEntry.modelId entry entries := by
  induction entries with
  | nil => rfl
  | cons existing rest ih =>
      unfold updateInPlace upsert
      split
      · rfl
      · rw [← ih]
        cases updateInPlace entry rest <;> rfl

theorem updateInPlace_eq_none_iff (entry : RegistryEntry) (entries : List RegistryEntry) :
    updateInPlace entry entries = none ↔ entry.modelId ∉ entries.map RegistryEntry.modelId := by
  induction entries with
  | nil => simp [updateInPlace]
  | cons existing rest ih =>
      unfold updateInPlace
      rw [List.map_cons, List.mem_cons, not_or]
      split
      · next heq => simp [heq]
      · next hne => rw [Option.map_eq_none_iff, ih, and_iff_right fun heq => hne heq.symm]

theorem load_after_save (fs : FileSystem) (path : Path) {entries : List RegistryEntry}
    (hids : ∀ e ∈ entries, e.modelId ≠ []) (outcome : SaveOutcome) :
    load (save fs path entries outcome).1 path =
      if outcome = .ok then (.ok, entries) else load fs path := by
  have hsave := save_eq_true_iff fs path entries outcome
  by_cases hok : outcome = .ok
  · rw [if_pos hok]
    exact load_save (hsave.mpr ⟨hok, hids⟩)
  · rw [if_neg hok]
    exact load_congr (save_failed (Bool.eq_false_iff.mpr fun h => hok (hsave.mp h).1))

section Import

variable (models registry : FileSystem) (registryPath modelPath : Path) (checksum : Bytes)
  (now : Int64) (outcome : SaveOutcome)

theorem importModel_registry
    (hcomputed : (ModelVerifier.verify models modelPath checksum).identity.computed = true)
    (hregistry : (load registry registryPath).1 ≠ .corrupted) :
    (importModel models registry registryPath modelPath checksum now outcome).registry =
      (save registry registryPath (upsert RegistryEntry.modelId
        (importedEntry models modelPath checksum (ModelVerifier.verify models modelPath checksum) now)
        (load registry registryPath).2) outcome).1 := by
  unfold importModel
  dsimp only
  rw [if_neg (not_not_intro hcomputed), if_neg hregistry, ← updateInPlace_eq]
  cases updateInPlace _ _ <;> rfl

theorem importModel_unrecorded
    (hcomputed : (ModelVerifier.verify models modelPath checksum).identity.computed = false) :
    (importModel models registry registryPath modelPath checksum now outcome).registry = registry ∧
      (importModel models registry registryPath modelPath checksum now outcome).wasNewEntry =
        false := by
  unfold importModel
  dsimp only
  rw [if_pos (by rw [hcomputed]; exact Bool.false_ne_true)]
  exact ⟨rfl, rfl⟩

theorem importModel_wasNewEntry
    (hcomputed : (ModelVerifier.verify models modelPath checksum).identity.computed = true)
    (hregistry : (load registry registryPath).1 ≠ .corrupted) :
    (importModel models registry registryPath modelPath checksum now outcome).wasNewEntry = true ↔
      (ModelVerifier.verify models modelPath checksum).identity.sha256Hex ∉
        (load registry registryPath).2.map RegistryEntry.modelId := by
  have hnone := updateInPlace_eq_none_iff (importedEntry models modelPath checksum
    (ModelVerifier.verify models modelPath checksum) now) (load registry registryPath).2
  unfold importModel
  dsimp only
  rw [if_neg (not_not_intro hcomputed), if_neg hregistry]
  refine Iff.trans ?_ hnone
  cases updateInPlace _ _ <;> simp

/-- What is recorded of a file: its path, its identity, and whether the checksum is its own. -/
structure RecordOf (entry : RegistryEntry) : Prop where
  localPath : entry.localPath = modelPath
  modelId : ∃ content, models modelPath = .file content true ∧
    entry.modelId = Fips180.sha256Hex content
  status : entry.verificationStatus = .verified ∨ entry.verificationStatus = .checksumMismatch

theorem RecordOf.id_ne_nil {models : FileSystem} {modelPath : Path} {entry : RegistryEntry}
    (h : RecordOf models modelPath entry) : entry.modelId ≠ [] := by
  obtain ⟨content, -, hid⟩ := h.modelId
  intro hnil
  have hlength := Fips180.sha256Hex_length content
  rw [← hid, hnil] at hlength
  cases hlength

theorem importedEntry_record
    (hcomputed : (ModelVerifier.verify models modelPath checksum).identity.computed = true) :
    RecordOf models modelPath (importedEntry models modelPath checksum
      (ModelVerifier.verify models modelPath checksum) now) where
  localPath := rfl
  modelId := (verify_judged models modelPath checksum).sha256 hcomputed
  status := (verify_judged models modelPath checksum).identity.mp hcomputed

theorem recordedEntry_record {entry : RegistryEntry} (h : recordedEntry models registry registryPath
    modelPath checksum now outcome = some entry) : RecordOf models modelPath entry := by
  unfold recordedEntry at h
  dsimp only at h
  split at h
  · next hrecorded =>
      cases h
      exact importedEntry_record models modelPath checksum now hrecorded.1
  · cases h

theorem importModel_load :
    load (importModel models registry registryPath modelPath checksum now outcome).registry
        registryPath =
      match recordedEntry models registry registryPath modelPath checksum now outcome with
      | none => load registry registryPath
      | some entry =>
          (.ok, upsert RegistryEntry.modelId entry (load registry registryPath).2) := by
  have hregistry := importModel_registry models registry registryPath modelPath checksum now outcome
  unfold recordedEntry
  dsimp only
  by_cases hcomputed : (ModelVerifier.verify models modelPath checksum).identity.computed = true
  case neg =>
    rw [if_neg fun h => hcomputed h.1, importModel]
    dsimp only
    rw [if_pos hcomputed]
  by_cases hcorrupted : (load registry registryPath).1 = .corrupted
  case pos =>
    rw [if_neg fun h => h.2.1 hcorrupted, importModel]
    dsimp only
    rw [if_neg (not_not_intro hcomputed), if_pos hcorrupted]
  have hids : ∀ e ∈ upsert RegistryEntry.modelId (importedEntry models modelPath checksum
      (ModelVerifier.verify models modelPath checksum) now) (load registry registryPath).2,
      e.modelId ≠ [] := by
    intro e he
    rcases eq_or_mem_of_mem_upsert _ he with rfl | he
    · exact (importedEntry_record models modelPath checksum now hcomputed).id_ne_nil
    · exact load_ids registry registryPath e he
  rw [hregistry hcomputed hcorrupted, load_after_save registry registryPath hids outcome]
  by_cases hok : outcome = .ok
  · rw [if_pos hok, if_pos ⟨hcomputed, hcorrupted, hok⟩]
  · rw [if_neg hok, if_neg fun h => hok h.2.2]

end Import

end ModelRegistry

/-- The registry file holds what has been recorded. -/
structure Recorded (registryPath : Path) (registry : FileSystem) (records : List RegistryEntry) :
    Prop where
  stored : ModelRegistry.load registry registryPath =
    (if records = [] then .notFound else .ok, replay RegistryEntry.modelId records)
  verdict : ∀ entry ∈ records, ∃ models modelPath, ModelRegistry.RecordOf models modelPath entry

theorem recorded_nil {registryPath : Path} {registry : FileSystem}
    (habsent : registry registryPath = .absent) : Recorded registryPath registry [] where
  stored := by
    rw [ModelRegistry.load, habsent]
    rfl
  verdict := nofun

theorem Recorded.readable {registryPath : Path} {registry : FileSystem}
    {records : List RegistryEntry} (h : Recorded registryPath registry records) :
    (ModelRegistry.load registry registryPath).1 ≠ .corrupted := by
  rw [h.stored]
  dsimp only
  split <;> nofun

theorem Recorded.importModel {registryPath : Path} {registry : FileSystem}
    {records : List RegistryEntry} (h : Recorded registryPath registry records)
    (models : FileSystem) (modelPath : Path) (checksum : Bytes) (now : Int64)
    (outcome : SaveOutcome) :
    Recorded registryPath
      (ModelRegistry.importModel models registry registryPath modelPath checksum now outcome).registry
      (records ++ (ModelRegistry.recordedEntry models registry registryPath modelPath checksum now
        outcome).toList) := by
  have himport := ModelRegistry.importModel_load models registry registryPath modelPath checksum now
    outcome
  cases hentry : ModelRegistry.recordedEntry models registry registryPath modelPath checksum now
      outcome with
  | none =>
      rw [hentry] at himport
      rw [Option.toList_none, List.append_nil]
      exact ⟨himport.trans h.stored, h.verdict⟩
  | some entry =>
      rw [hentry, h.stored] at himport
      refine ⟨?_, fun e he => ?_⟩
      · rw [himport, Option.toList_some, replay_concat]
        simp
      · rcases List.mem_append.mp he with he | he
        · exact h.verdict e he
        · rw [List.mem_singleton.mp he]
          exact ⟨_, _, ModelRegistry.recordedEntry_record _ _ _ _ _ _ _ hentry⟩

end EdgeMind
