import EdgeMind.Core.Identity

/-!
# What loads record

A load records at most one entry in the registry. A registry that only loads have written holds the
last entry recorded for every identity, so a load by identity goes to the path of that entry.
-/

namespace EdgeMind

open Framework

namespace Runtime

def recordOf (w : World) (config : RuntimeConfig) (input : LoadInput) :
    Effect → Option RegistryEntry
  | .importModel modelPath => ModelRegistry.recordedEntry w.models w.registry
      config.modelRegistryPath modelPath config.expectedModelChecksumSha256 input.importNow
      input.registrySave
  | _ => none

def importRecord (w : World) (config : RuntimeConfig) (input : LoadInput) : Option RegistryEntry :=
  recordOf w config input (.importModel (resolution w config).resolvedPath)

theorem load_record (r : Runtime) (w : World) (config : RuntimeConfig) (input : LoadInput) :
    let result := r.load w config input
    result.effects.filterMap (recordOf w config input) = [] ∧
        result.world.registry = w.registry ∨
      result.effects.filterMap (recordOf w config input) = (importRecord w config input).toList ∧
        result.world.registry = (importStage w config input).registry := by
  intro result
  have himport : (sessionEffects w config input ++
      [Effect.importModel (resolution w config).resolvedPath]).filterMap
        (recordOf w config input) = (importRecord w config input).toList := by
    rw [List.filterMap_append, importRecord]
    cases hrecord : recordOf w config input (.importModel (resolution w config).resolvedPath) with
    | none => rw [List.filterMap_cons_none hrecord]; rfl
    | some entry => rw [List.filterMap_cons_some hrecord]; rfl
  have hcase : LoadCase r w config input result := load_case r w config input
  generalize result = result at hcase
  cases hcase with
  | invalid => exact .inl ⟨rfl, rfl⟩
  | denied => exact .inl ⟨rfl, rfl⟩
  | unresolved => exact .inl ⟨rfl, rfl⟩
  | rejected => exact .inr ⟨himport, rfl⟩
  | engine =>
      refine .inr ⟨?_, ?_⟩
      · rw [loadEngine_effects, List.filterMap_append, himport, List.filterMap_cons_none rfl,
          filterMap_llama fun _ => rfl, List.append_nil]
      · unfold loadEngine
        dsimp only
        split <;> rfl

end Runtime

theorem Recorded.load {w : World} {config : RuntimeConfig} {records : List RegistryEntry}
    (h : Recorded config.modelRegistryPath w.registry records) (r : Runtime) (input : LoadInput) :
    Recorded config.modelRegistryPath (r.load w config input).world.registry
      (records ++ (r.load w config input).effects.filterMap
        (Runtime.recordOf w config input)) := by
  rcases r.load_record w config input with ⟨hrecord, hregistry⟩ | ⟨hrecord, hregistry⟩
  · rw [hrecord, hregistry, List.append_nil]
    exact h
  · rw [hrecord, hregistry]
    exact h.importModel _ _ _ _ _

theorem Recorded.resolution_id {w : World} {config : RuntimeConfig} {records : List RegistryEntry}
    (h : Recorded config.modelRegistryPath w.registry records) (hpath : config.modelPath = [])
    (hid : config.modelId ≠ []) (p : Path) :
    ((Runtime.resolution w config).status = .resolved ∧
        (Runtime.resolution w config).resolvedPath = p) ↔
      ∃ entry, records.reverse.find? (fun entry => entry.modelId = config.modelId) = some entry ∧
        entry.localPath = p := by
  rw [Runtime.resolution_id hpath hid, h.stored]
  dsimp only
  rw [find?_replay]
  have hreadable : (if records = [] then RegistryLoadResult.notFound else .ok) ≠ .corrupted := by
    split <;> nofun
  simp only [hreadable, ne_eq, not_false_eq_true, true_and]

/-- The registry has a single entry exactly if that was recorded last and nothing of another identity
was recorded. -/
theorem Recorded.load_single_iff {registryPath : Path} {registry : FileSystem}
    {records : List RegistryEntry} (h : Recorded registryPath registry records)
    (entry : RegistryEntry) :
    ModelRegistry.load registry registryPath = (.ok, [entry]) ↔
      records.getLast? = some entry ∧ ∀ e ∈ records, e.modelId = entry.modelId := by
  rw [h.stored, ← replay_eq_singleton_iff, Prod.mk.injEq]
  constructor
  · intro h
    exact h.2
  · intro hreplay
    refine ⟨if_neg ?_, hreplay⟩
    intro hnil
    rw [hnil] at hreplay
    cases hreplay

theorem Recorded.resolution_last (w : World) (config : RuntimeConfig) {records : List RegistryEntry}
    (h : Recorded config.modelRegistryPath w.registry records) {entry : RegistryEntry}
    (hlast : records.getLast? = some entry) (hpath : config.modelPath = [])
    (hid : config.modelId = entry.modelId) :
    (Runtime.resolution w config).status = .resolved ∧
      (Runtime.resolution w config).resolvedPath = entry.localPath := by
  obtain ⟨models, modelPath, hrecord⟩ := h.verdict entry (List.mem_of_getLast? hlast)
  rw [h.resolution_id hpath (hid ▸ hrecord.id_ne_nil)]
  obtain ⟨earlier, rfl⟩ := List.getLast?_eq_some_iff.mp hlast
  refine ⟨entry, ?_, rfl⟩
  rw [List.reverse_append, List.reverse_singleton, List.singleton_append,
    List.find?_cons_of_pos (by simpa using hid.symm)]

end EdgeMind
