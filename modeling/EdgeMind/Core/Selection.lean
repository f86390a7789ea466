import EdgeMind.Model.Registry

/-!
# Selection without a model

What to do when neither a path nor an identity is given: the registry is read, and its entry is
selected if it has exactly one.
-/

namespace EdgeMind

open Framework

inductive CliModelSelectionOutcome
  | noRegisteredModels
  | singleModelSelected
  | multipleModelsRequireChoice
deriving DecidableEq

structure CliModelSelectionResult where
  outcome : CliModelSelectionOutcome := .noRegisteredModels
  selectedEntry : RegistryEntry := {}
  allEntries : List RegistryEntry := []
deriving DecidableEq

def selectModelForCli (registry : FileSystem) (registryPath : Path) : CliModelSelectionResult :=
  let (loadResult, entries) := ModelRegistry.load registry registryPath
  if loadResult ≠ .ok ∨ entries = [] then {}
  else
    match entries with
    | [entry] =>
        { outcome := .singleModelSelected, selectedEntry := entry, allEntries := entries }
    | _ => { outcome := .multipleModelsRequireChoice, allEntries := entries }

theorem selectModelForCli_single_iff (registry : FileSystem) (registryPath : Path)
    (entry : RegistryEntry) :
    ((selectModelForCli registry registryPath).outcome = .singleModelSelected ∧
        (selectModelForCli registry registryPath).selectedEntry = entry) ↔
      ModelRegistry.load registry registryPath = (.ok, [entry]) := by
  unfold selectModelForCli
  rcases ModelRegistry.load registry registryPath with ⟨loadResult, entries⟩
  dsimp only
  by_cases hnone : loadResult ≠ .ok ∨ entries = []
  · rw [if_pos hnone]
    constructor
    · intro h
      cases h.1
    · intro h
      cases h
      simp at hnone
  · rw [if_neg hnone, not_or, not_not] at *
    obtain ⟨rfl, hne⟩ := hnone
    split
    · simp
    · next hmany =>
        constructor
        · intro h
          cases h.1
        · intro h
          cases h
          exact absurd rfl (hmany entry)

end EdgeMind
