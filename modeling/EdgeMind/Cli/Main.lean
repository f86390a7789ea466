import EdgeMind.Api.EdgeMindApi

/-!
# The command line

From the model arguments of `main` to the configuration it creates a runtime with.
-/

namespace EdgeMind

open Framework

namespace Cli

/-- The identity to load by: the one given, or without a model the one selected. -/
def selectModelId (modelPath modelId : Bytes) (config : Api.Config) (registry : FileSystem) :
    Option Bytes :=
  if modelPath = [] ∧ modelId = [] then
    -- The buffer holds the 64 digits of an identity and the NUL.
    let (selection, selectedIdBuf) := Api.selectModel registry config.modelRegistryPath 65
    match selection with
    | .noRegisteredModels => none
    | .multipleModelsRequireChoice => none
    | .singleModelSelected => some (Api.cString selectedIdBuf)
  else some modelId

/-- The configuration for `syj_edgemind_create`, from one that holds the other arguments; `none` is
an exit with a usage error. -/
def createConfig (modelPath modelId : Bytes) (config : Api.Config) (registry : FileSystem) :
    Option Api.Config :=
  (selectModelId modelPath modelId config registry).bind fun modelId =>
    if modelPath ≠ [] ∧ modelId ≠ [] then none
    else if modelPath ≠ [] then some { config with modelPath := some modelPath, modelId := none }
    else some { config with modelPath := none, modelId := some modelId }

/-- Without a model a runtime is created exactly if the registry has a single entry, and then with
the identity of that entry. -/
theorem createConfig_selected_iff (config c : Api.Config) (registry : FileSystem) :
    createConfig [] [] config registry = some c ↔
      ∃ entry, ModelRegistry.load registry
          (Api.stringOr config.modelRegistryPath ({} : RuntimeConfig).modelRegistryPath) =
            (.ok, [entry]) ∧
        c = { config with
          modelPath := none
          modelId := some (Api.cString (Api.copyOut entry.modelId 65)) } := by
  have hsingle := selectModelForCli_single_iff registry
    (Api.stringOr config.modelRegistryPath ({} : RuntimeConfig).modelRegistryPath)
  unfold createConfig selectModelId Api.selectModel
  rw [if_pos ⟨rfl, rfl⟩]
  dsimp only
  generalize selectModelForCli registry _ = selection at hsingle
  cases houtcome : selection.outcome with
  | singleModelSelected =>
      have hload := (hsingle selection.selectedEntry).mp ⟨houtcome, rfl⟩
      rw [hload]
      constructor
      · intro h
        cases h
        exact ⟨_, rfl, rfl⟩
      · intro ⟨entry, hentry, hc⟩
        cases hentry
        rw [hc]
        rfl
  | _ =>
      refine ⟨nofun, fun ⟨entry, hload, _⟩ => ?_⟩
      have houtcome' := ((hsingle entry).mpr hload).1
      rw [houtcome] at houtcome'
      cases houtcome'

end Cli

end EdgeMind
