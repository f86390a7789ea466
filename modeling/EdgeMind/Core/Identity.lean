import EdgeMind.Core.Pipeline

/-!
# Loading by identity

A load by identity resolves the identity to a path and verifies what that path holds now. The
identity computed by the verification is not compared with the one that was asked for, so the load
is right exactly if the registry entry still describes its file.
-/

namespace EdgeMind

open Framework

namespace Runtime

theorem resolution_id {w : World} {config : RuntimeConfig} (hpath : config.modelPath = [])
    (hid : config.modelId ≠ []) (p : Path) :
    ((resolution w config).status = .resolved ∧ (resolution w config).resolvedPath = p) ↔
      ∃ entry, (ModelRegistry.load w.registry config.modelRegistryPath).1 ≠ .corrupted ∧
        (ModelRegistry.load w.registry config.modelRegistryPath).2.find?
          (fun entry => entry.modelId = config.modelId) = some entry ∧ entry.localPath = p := by
  unfold resolution resolveModelPath
  rw [if_neg (fun h => hid h.2), if_neg (fun h => h.1 hpath), if_neg (not_not_intro hpath)]
  dsimp only
  by_cases hload : (ModelRegistry.load w.registry config.modelRegistryPath).1 = .corrupted
  · simp [hload]
  · rw [if_neg hload]
    cases hfind : (ModelRegistry.load w.registry config.modelRegistryPath).2.find?
        (fun entry => entry.modelId = config.modelId) with
    | none => simp
    | some entry => simp [hload]

/-- Whenever the engine is reached, the file it is given has the identity that was asked for. -/
def LoadsIdentity (r : Runtime) (w : World) (config : RuntimeConfig) (input : LoadInput) : Prop :=
  ∀ p, .engineLoad p ∈ (r.load w config input).effects →
    ∃ content, w.models p = .file content true ∧ Fips180.sha256Hex content = config.modelId

/-- The registry's first entry for the identity names a file that passes every check but has
another identity by now. -/
def StaleEntry (w : World) (config : RuntimeConfig) : Prop :=
  ∃ entry content, (ModelRegistry.load w.registry config.modelRegistryPath).1 ≠ .corrupted ∧
    (ModelRegistry.load w.registry config.modelRegistryPath).2.find?
      (fun entry => entry.modelId = config.modelId) = some entry ∧
    w.models entry.localPath = .file content true ∧ GrammarValid content ∧
    ChecksumOk config.expectedModelChecksumSha256 content ∧
    Fips180.sha256Hex content ≠ config.modelId

/-- A load by identity loads that identity unless it is admitted with a stale entry. -/
theorem loadsIdentity_iff (r : Runtime) (w : World) (config : RuntimeConfig) (input : LoadInput)
    (hconfig : validateConfig config = []) (hpath : config.modelPath = []) :
    LoadsIdentity r w config input ↔
      ¬((UsageManager.checkAdmission w.usage config.usageStatePath (toUsagePolicy config)
          input.admissionNow input.admissionSave).2.allowed = true ∧ StaleEntry w config) := by
  have hid := (validConfig_of_validateConfig hconfig).exactlyOne.mp hpath
  constructor
  · rintro hloads ⟨hquota, entry, content, hregistry, hfind, hfile, hg, hsum, hne⟩
    obtain ⟨hresolved, hresolvedPath⟩ :=
      (resolution_id hpath hid entry.localPath).mpr ⟨entry, hregistry, hfind, rfl⟩
    have hverified : isVerified (importStage w config input).result.status = true := by
      rw [importStage, ModelRegistry.importModel_verified_iff, hresolvedPath]
      exact ⟨content, hfile, hg, hsum⟩
    have hreached := (engineLoad_mem_iff r w config input entry.localPath).mpr
      ⟨hconfig, hquota, hresolved, hverified, hresolvedPath⟩
    obtain ⟨content', hfile', hsha⟩ := hloads entry.localPath hreached
    rw [hfile] at hfile'
    cases hfile'
    exact hne hsha
  · intro hfresh p hreached
    obtain ⟨-, hquota, hresolved, hverified, hresolvedPath⟩ :=
      (engineLoad_mem_iff r w config input p).mp hreached
    obtain ⟨entry, hregistry, hfind, hlocal⟩ :=
      (resolution_id hpath hid p).mp ⟨hresolved, hresolvedPath⟩
    rw [importStage, ModelRegistry.importModel_verified_iff, hresolvedPath] at hverified
    obtain ⟨content, hfile, hg, hsum⟩ := hverified
    refine ⟨content, hfile, ?_⟩
    by_contra hne
    rw [← hlocal] at hfile
    exact hfresh ⟨hquota, entry, content, hregistry, hfind, hfile, hg, hsum, hne⟩

/-- The registry that an import of the sample file leaves. -/
def importedRegistry : FileSystem := (importStage sampleWorld sampleConfig sampleInput).registry

def identityConfig : RuntimeConfig := {
  modelId := text "a4e5e156ddec27e286f75328784d7106b60a4eb1d246e950a001a3f944fbda99" }

/-- One more byte is appended to the sample file after its import. -/
def replacedWorld : World where
  models := fun p => if p = text "m.gguf" then .file (headerOnly 0 ++ [0]) true else .absent
  registry := importedRegistry
  usage := fun _ => .absent

private theorem sha256Hex_of_identity {fs : FileSystem} {path : Path} {content : Bytes}
    (hfile : fs path = .file content true) :
    (computeModelIdentity fs path).map ModelIdentity.sha256Hex =
      some (Fips180.sha256Hex content) := by
  rw [computeModelIdentity_readable (by rw [hfile]; rfl : (fs path).open = some content)]
  rfl

/-- The replaced file is given to the engine under the identity of the old one. -/
theorem loadsIdentity_replaced : validateConfig identityConfig = [] ∧
    identityConfig.modelPath = [] ∧
    ¬LoadsIdentity {} replacedWorld identityConfig sampleInput := by
  refine ⟨by decide +kernel, rfl, fun hloads => ?_⟩
  obtain ⟨content, hfile, hsha⟩ := hloads (text "m.gguf")
    (engineLoad_mem_of_any (by decide +kernel))
  have hidentity := sha256Hex_of_identity hfile
  rw [hsha] at hidentity
  exact absurd hidentity (by decide +kernel)

/-- Before the replacement the same load is right. -/
theorem loadsIdentity_imported :
    LoadsIdentity {} { sampleWorld with registry := importedRegistry } identityConfig
      sampleInput := by
  refine (loadsIdentity_iff {} _ identityConfig sampleInput (by decide +kernel) rfl).mpr ?_
  intro h
  obtain ⟨-, entry, content, -, hfind, hfile, -, -, hne⟩ := h
  have hlocal := congrArg (Option.map RegistryEntry.localPath) hfind
  have hpath : ((ModelRegistry.load importedRegistry identityConfig.modelRegistryPath).2.find?
      fun entry => entry.modelId = identityConfig.modelId).map RegistryEntry.localPath =
        some (text "m.gguf") := by decide +kernel
  have hm : entry.localPath = text "m.gguf" := Option.some.inj (hlocal.symm.trans hpath)
  rw [hm] at hfile
  have hidentity := sha256Hex_of_identity hfile
  have hcomputed : (computeModelIdentity sampleWorld.models (text "m.gguf")).map
      ModelIdentity.sha256Hex = some identityConfig.modelId := by decide +kernel
  exact hne (Option.some.inj (hidentity.symm.trans hcomputed))

end Runtime

end EdgeMind
