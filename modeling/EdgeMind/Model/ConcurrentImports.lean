import EdgeMind.Framework.ReadModifyWrite
import EdgeMind.Model.ImportRuns

/-!
# Two imports into one registry

An import loads the whole registry, and later saves the whole registry with its entry written; no
lock is held in between. What two imports leave depends on the order of these four steps: the import
that saves last keeps the other's entry only if it loaded it.
-/

namespace EdgeMind

open Framework

namespace ImportCall

/-- What an import does with the registry it loaded. A file without an identity and a corrupted
registry end it before the save. -/
def finish (registryPath : Path) (c : ImportCall)
    (loaded : RegistryLoadResult × List RegistryEntry) (registry : FileSystem) : FileSystem :=
  if ¬c.verify.identity.computed then registry
  else if loaded.1 = .corrupted then registry
  else
    let entry := ModelRegistry.importedEntry c.models c.modelPath c.expectedChecksumSha256 c.verify
      c.now
    (ModelRegistry.save registry registryPath
      ((ModelRegistry.updateInPlace entry loaded.2).getD (loaded.2 ++ [entry])) .ok).1

end ImportCall

/-- The steps of two imports on one registry file. -/
def importing (registryPath : Path) (calls : Client → ImportCall) (registry : FileSystem)
    (accesses : List Access) :
    Option (SharedStore FileSystem (RegistryLoadResult × List RegistryEntry)) :=
  SharedStore.run (ModelRegistry.load · registryPath) (fun c => (calls c).finish registryPath)
    (.start registry) accesses

def Trusted (loaded : RegistryLoadResult × List RegistryEntry) : Prop :=
  loaded.1 ≠ .corrupted ∧ ∀ e ∈ loaded.2, e.modelId ≠ []

theorem importing_writes (registryPath : Path) {calls : Client → ImportCall}
    {entry : Client → RegistryEntry} (hentry : ∀ c, (calls c).entry = some (entry c)) :
    SharedStore.Writes (ModelRegistry.load · registryPath)
      (fun c => (calls c).finish registryPath) Trusted
      fun c loaded => (.ok, upsert RegistryEntry.modelId (entry c) loaded.2) := by
  have hcomputed (c : Client) : (calls c).verify.identity.computed = true ∧
      ModelRegistry.importedEntry (calls c).models (calls c).modelPath
        (calls c).expectedChecksumSha256 (calls c).verify (calls c).now = entry c := by
    have hc := hentry c
    unfold ImportCall.entry at hc
    split at hc
    · next h => exact ⟨h, Option.some.inj hc⟩
    · cases hc
  have hids (c : Client) (loaded : RegistryLoadResult × List RegistryEntry)
      (hloaded : Trusted loaded) :
      ∀ e ∈ upsert RegistryEntry.modelId (entry c) loaded.2, e.modelId ≠ [] := by
    intro e he
    rcases eq_or_mem_of_mem_upsert _ he with rfl | he
    · rw [← (hcomputed c).2]
      exact (ModelRegistry.importedEntry_record _ _ _ _ (hcomputed c).1).id_ne_nil
    · exact hloaded.2 e he
  refine ⟨fun c loaded registry hloaded => ?_, fun c loaded hloaded => ⟨nofun, hids c loaded hloaded⟩⟩
  have hfinish : (calls c).finish registryPath loaded registry = (ModelRegistry.save registry
      registryPath (upsert RegistryEntry.modelId (entry c) loaded.2) .ok).1 := by
    unfold ImportCall.finish
    rw [if_neg (not_not_intro (hcomputed c).1), if_neg hloaded.1]
    dsimp only
    rw [ModelRegistry.updateInPlace_eq, (hcomputed c).2]
  rw [hfinish, ModelRegistry.load_after_save registry registryPath (hids c loaded hloaded), if_pos rfl]

/-- Two imports of files with different identities, in any order of their loads and saves: nothing
that was there before is lost, and the entry of the import that saves last is there. The other's
identity is there exactly if that import saved before this one loaded, or the registry had it. -/
theorem concurrent_imports {registryPath : Path} {registry : FileSystem}
    (hregistry : (ModelRegistry.load registry registryPath).1 ≠ .corrupted)
    {calls : Client → ImportCall} {entry : Client → RegistryEntry}
    (hentry : ∀ c, (calls c).entry = some (entry c))
    (hids : (entry .first).modelId ≠ (entry .second).modelId) {accesses : List Access}
    {t : SharedStore FileSystem (RegistryLoadResult × List RegistryEntry)}
    (hrun : importing registryPath calls registry accesses = some t)
    (hdone : ∀ c, t.phase c = .done) :
    let before := (ModelRegistry.load registry registryPath).2
    let after := ModelRegistry.load t.content registryPath
    ∃ p : Client, accesses.getLast? = some (.saves p.other) ∧ after.1 = .ok ∧
      (∀ e ∈ before, ∃ e' ∈ after.2, e'.modelId = e.modelId) ∧
      (∀ e ∈ before, (∀ c, e.modelId ≠ (entry c).modelId) → e ∈ after.2) ∧
      entry p.other ∈ after.2 ∧
      ((∃ e ∈ after.2, e.modelId = (entry p).modelId) ↔
        accesses = SharedStore.serially p ∨ ∃ e ∈ before, e.modelId = (entry p).modelId) := by
  intro before after
  have htrusted : Trusted (ModelRegistry.load registry registryPath) :=
    ⟨hregistry, ModelRegistry.load_ids registry registryPath⟩
  obtain ⟨p, hlast, hafter⟩ :=
    SharedStore.run_complete (importing_writes registryPath hentry) htrusted hrun hdone
  have hne : (entry p.other).modelId ≠ (entry p).modelId := by
    cases p with
    | first => exact hids.symm
    | second => exact hids
  refine ⟨p, hlast, ?_⟩
  by_cases hserial : accesses = SharedStore.serially p
  · rw [if_pos hserial] at hafter
    have hload : after = (.ok, upsert RegistryEntry.modelId (entry p.other)
      (upsert RegistryEntry.modelId (entry p) before)) := hafter
    rw [hload]
    refine ⟨rfl, fun e he => ?_, fun e he hother => ?_, mem_upsert _ _ _, ?_⟩
    · rw [exists_key_upsert_iff, exists_key_upsert_iff]
      exact .inr (.inr ⟨e, he, rfl⟩)
    · exact mem_upsert_of_ne _ (mem_upsert_of_ne _ he (hother p)) (hother p.other)
    · rw [exists_key_upsert_iff, exists_key_upsert_iff]
      exact iff_of_true (.inr (.inl rfl)) (.inl hserial)
  · rw [if_neg hserial] at hafter
    have hload : after = (.ok, upsert RegistryEntry.modelId (entry p.other) before) := hafter
    rw [hload]
    refine ⟨rfl, fun e he => ?_, fun e he hother => ?_, mem_upsert _ _ _, ?_⟩
    · rw [exists_key_upsert_iff]
      exact .inr ⟨e, he, rfl⟩
    · exact mem_upsert_of_ne _ he (hother p.other)
    · rw [exists_key_upsert_iff, or_iff_right hne, or_iff_right hserial]

def twoModels : Client → Bytes
  | .first => headerOnly 0
  | .second => headerOnly 0 ++ [0]

def twoImports (c : Client) : ImportCall where
  models := fun _ => .file (twoModels c) true
  modelPath := text "m.gguf"
  expectedChecksumSha256 := []
  now := 1000

def twoEntries (c : Client) : RegistryEntry :=
  ModelRegistry.importedEntry (twoImports c).models (twoImports c).modelPath
    (twoImports c).expectedChecksumSha256 (twoImports c).verify (twoImports c).now

private theorem twoImports_entry (c : Client) : (twoImports c).entry = some (twoEntries c) := by
  have hcomputed : (twoImports c).verify.identity.computed = true := by
    cases c <;> decide +kernel
  rw [ImportCall.entry, if_pos hcomputed]
  rfl

private theorem twoImports_ids : (twoEntries .first).modelId ≠ (twoEntries .second).modelId := by
  have hhash : (twoImports .first).verify.identity.sha256Hex ≠
      (twoImports .second).verify.identity.sha256Hex := by decide +kernel
  exact hhash

private theorem absent_readable :
    (ModelRegistry.load (fun _ => .absent) (text "r")).1 ≠ .corrupted := nofun

/-- Both imports load the registry before either saves: the first one's entry is lost. -/
theorem concurrent_imports_lost :
    ¬∀ (registryPath : Path) (registry : FileSystem) (calls : Client → ImportCall)
      (entry : Client → RegistryEntry) (accesses : List Access)
      (t : SharedStore FileSystem (RegistryLoadResult × List RegistryEntry)),
      (ModelRegistry.load registry registryPath).1 ≠ .corrupted →
      (∀ c, (calls c).entry = some (entry c)) →
      (entry .first).modelId ≠ (entry .second).modelId →
      importing registryPath calls registry accesses = some t → (∀ c, t.phase c = .done) →
      (∀ c, ∃ e ∈ (ModelRegistry.load t.content registryPath).2, e.modelId = (entry c).modelId) ∧
        ∀ e ∈ (ModelRegistry.load registry registryPath).2,
          ∃ e' ∈ (ModelRegistry.load t.content registryPath).2, e'.modelId = e.modelId := by
  intro h
  obtain ⟨t, hrun, hdone⟩ : ∃ t, importing (text "r") twoImports (fun _ => .absent)
      [.loads .first, .loads .second, .saves .first, .saves .second] = some t ∧
        ∀ c, t.phase c = .done := ⟨_, rfl, by rintro (_ | _) <;> rfl⟩
  obtain ⟨e, he, hid⟩ :=
    (h _ _ _ twoEntries _ t absent_readable twoImports_entry twoImports_ids hrun hdone).1 .first
  obtain ⟨p, hlast, hload⟩ := SharedStore.run_complete
    (importing_writes (text "r") twoImports_entry) ⟨absent_readable, nofun⟩ hrun hdone
  cases p with
  | second => cases hlast
  | first =>
      rw [if_neg (by simp [SharedStore.serially])] at hload
      have hafter : (ModelRegistry.load t.content (text "r")).2 =
          [twoEntries .second] := congrArg Prod.snd hload
      rw [hafter, List.mem_singleton] at he
      exact twoImports_ids (hid.symm.trans (congrArg RegistryEntry.modelId he))

theorem concurrent_imports_serially : ∃ t, importing (text "r") twoImports (fun _ => .absent)
    (SharedStore.serially .first) = some t ∧
      ∀ c, ∃ e ∈ (ModelRegistry.load t.content (text "r")).2,
        e.modelId = (twoEntries c).modelId := by
  obtain ⟨t, hrun, hdone⟩ : ∃ t, importing (text "r") twoImports (fun _ => .absent)
      (SharedStore.serially .first) = some t ∧ ∀ c, t.phase c = .done :=
    ⟨_, rfl, by rintro (_ | _) <;> rfl⟩
  obtain ⟨p, hlast, -, -, -, hsecond, hfirst⟩ :=
    concurrent_imports absent_readable twoImports_entry twoImports_ids hrun hdone
  cases p with
  | second => cases hlast
  | first =>
      refine ⟨t, hrun, ?_⟩
      rintro (_ | _)
      · exact hfirst.mpr (.inl rfl)
      · exact ⟨_, hsecond, rfl⟩

end EdgeMind
