import EdgeMind.Api.EdgeMindApi
import EdgeMind.Model.ImportRuns

/-!
# The model listing

The text that the C interface gives for a registry, one line for each entry, and the registries that
it is given for: those that imports have written.
-/

namespace EdgeMind

open Framework

namespace Api

/-- A field, or what stands for it if it is empty. -/
def shown (field placeholder : Bytes) : Bytes := if field = [] then placeholder else field

def shownName (entry : RegistryEntry) : Bytes := shown entry.displayName (text "(unnamed)")

def shownArchitecture (entry : RegistryEntry) : Bytes :=
  shown entry.architecture (text "unknown-architecture")

def shownQuantization (entry : RegistryEntry) : Bytes :=
  shown entry.quantization (text "unknown-quantization")

def listingLine (entry : RegistryEntry) : Bytes :=
  entry.modelId ++ text "  " ++ shownName entry ++ text "  [" ++ shownArchitecture entry ++
    text "  " ++ shownQuantization entry ++ text "]  " ++
    verificationStatusMessage entry.verificationStatus ++ text "\n"

def listing (entries : List RegistryEntry) : Bytes := entries.flatMap listingLine

/-- `syj_edgemind_list_models`: the size that is returned and the buffer. -/
def listModels (registry : FileSystem) (registryPath : Option Bytes) (bufSize : Nat) : Nat × Bytes :=
  let path := stringOr registryPath ({} : RuntimeConfig).modelRegistryPath
  let (loadResult, entries) := ModelRegistry.load registry path
  if loadResult ≠ .ok ∨ entries = [] then (0, copyOut [] bufSize)
  else
    let report := listing entries
    (report.length, copyOut report bufSize)

/-- What the listing relies on in an entry: its identity is a digest, and its quantization is empty
or one of the known names. -/
structure Listable (entry : RegistryEntry) : Prop where
  modelId : ∃ content, entry.modelId = Fips180.sha256Hex content
  quantization : entry.quantization = [] ∨ ∃ fileType, entry.quantization = modelFtypeName fileType

def Printable (s : Bytes) : Prop := ∀ c ∈ s, 32 ≤ c

instance (s : Bytes) : Decidable (Printable s) := List.decidableBAll _ s

theorem Printable.notMem {s : Bytes} (h : Printable s) : (10 : UInt8) ∉ s ∧ (0 : UInt8) ∉ s :=
  ⟨fun hmem => absurd (h 10 hmem) (by decide), fun hmem => absurd (h 0 hmem) (by decide)⟩

theorem printable_modelFtypeName (fileType : UInt32) : Printable (modelFtypeName fileType) := by
  have hdigits (n : Nat) : Printable (decimal n) := fun c hc =>
    UInt8.le_iff_toNat_le.mpr (le_trans (by decide) ((isDigit_iff c).mp (decimal_isDigit n c hc)).1)
  unfold modelFtypeName
  split
  case h_37 =>
    intro c hc
    rcases List.mem_append.mp hc with hc | hc
    · rcases List.mem_append.mp hc with hc | hc
      · exact (by decide : Printable (text "Unknown (file_type=")) c hc
      · exact hdigits _ c hc
    · exact (by decide : Printable (text ")")) c hc
  all_goals decide

theorem Listable.shownQuantization {entry : RegistryEntry} (h : Listable entry) :
    Printable (shownQuantization entry) := by
  unfold Api.shownQuantization shown
  split
  · decide
  · next hne =>
      rcases h.quantization with hnil | ⟨fileType, hname⟩
      · exact absurd hnil hne
      · rw [hname]
        exact printable_modelFtypeName fileType

theorem Listable.word {entry : RegistryEntry} (h : Listable entry) :
    entry.modelId ≠ [] ∧ ∀ c ∈ entry.modelId, 32 < c := by
  obtain ⟨content, hid⟩ := h.modelId
  rw [hid]
  constructor
  · intro hnil
    have hlength := Fips180.sha256Hex_length content
    rw [hnil] at hlength
    cases hlength
  · intro c hc
    have hdigits : ((text "0123456789abcdef").all fun c => 32 < c) = true := rfl
    exact of_decide_eq_true (List.all_eq_true.mp hdigits c (Fips180.mem_of_mem_sha256Hex hc))

theorem status_printable (status : VerificationStatus) :
    Printable (verificationStatusMessage status) ∧
      (93 : UInt8) ∉ verificationStatusMessage status := by
  cases status <;> decide

/-- A registry that imports have written holds entries that can be listed. -/
structure ListableRegistry (registryPath : Path) (registry : FileSystem) : Prop where
  stored : (ModelRegistry.load registry registryPath).1 = .ok ∨
    ModelRegistry.load registry registryPath = (.notFound, [])
  entries : ∀ e ∈ (ModelRegistry.load registry registryPath).2, Listable e

theorem listable_importedEntry (models : FileSystem) (modelPath checksum : Bytes) (now : Int64)
    (hcomputed : (ModelVerifier.verify models modelPath checksum).identity.computed = true) :
    Listable (ModelRegistry.importedEntry models modelPath checksum
      (ModelVerifier.verify models modelPath checksum) now) where
  modelId := by
    obtain ⟨content, -, hid⟩ :=
      (ModelRegistry.importedEntry_record models modelPath checksum now hcomputed).modelId
    exact ⟨content, hid⟩
  quantization := by
    unfold ModelRegistry.importedEntry
    dsimp only
    split
    · exact .inl rfl
    · exact .inr ⟨_, rfl⟩

/-- One import into a registry, whatever becomes of its save. -/
def importStep (registryPath : Path) (registry : FileSystem) (c : ImportCall × SaveOutcome) :
    FileSystem × ModelRegistry.ImportResult :=
  let result := ModelRegistry.importModel c.1.models registry registryPath c.1.modelPath
    c.1.expectedChecksumSha256 c.1.now c.2
  (result.registry, result)

theorem ListableRegistry.importStep {registryPath : Path} {registry : FileSystem}
    (h : ListableRegistry registryPath registry) (c : ImportCall × SaveOutcome) :
    ListableRegistry registryPath (importStep registryPath registry c).1 := by
  have hload := ModelRegistry.importModel_load c.1.models registry registryPath c.1.modelPath
    c.1.expectedChecksumSha256 c.1.now c.2
  cases hentry : ModelRegistry.recordedEntry c.1.models registry registryPath c.1.modelPath
      c.1.expectedChecksumSha256 c.1.now c.2 with
  | none =>
      rw [hentry] at hload
      exact ⟨hload ▸ h.stored, hload ▸ h.entries⟩
  | some entry =>
      rw [hentry] at hload
      have hlistable : Listable entry := by
        unfold ModelRegistry.recordedEntry at hentry
        dsimp only at hentry
        split at hentry
        · next hrecorded =>
            cases hentry
            exact listable_importedEntry _ _ _ _ hrecorded.1
        · cases hentry
      constructor
      · rw [Api.importStep, hload]
        exact .inl rfl
      · rw [Api.importStep, hload]
        intro e he
        rcases eq_or_mem_of_mem_upsert _ he with rfl | he
        · exact hlistable
        · exact h.entries e he

theorem listableRegistry_run {registryPath : Path} {registry : FileSystem}
    (habsent : registry registryPath = .absent) (calls : List (ImportCall × SaveOutcome)) :
    ListableRegistry registryPath (final (Api.importStep registryPath) registry calls) := by
  have hload : ModelRegistry.load registry registryPath = (.notFound, []) := by
    rw [ModelRegistry.load, habsent]
    rfl
  refine final_invariant (ListableRegistry registryPath) (fun _ => True)
    (fun _ c _ h => h.importStep c) ⟨.inr hload, ?_⟩ (fun _ _ => trivial)
  rw [hload]
  nofun

end Api

end EdgeMind
