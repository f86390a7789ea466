import EdgeMind.Core.Pipeline
import EdgeMind.Framework.LastWrite

/-!
# Reports over a sequence of loads

A report is stored when its stage of a load has run, and no load clears what an earlier one has
stored. So a report describes the last load that came to the stage, which is the most recent load
only if that did.
-/

namespace EdgeMind

open Framework

namespace InferenceEngine

theorem load_memoryDiagnostic (e : InferenceEngine) (models : FileSystem) (config : RuntimeConfig)
    (llama : LlamaLoad) :
    (e.load models config llama).engine.memoryDiagnostic =
      (if (models config.modelPath).open = none then none
        else llama.model.map fun model => (memoryDecision model config).diagnostic).getD
          e.memoryDiagnostic := by
  have hexit := load_exit e models config llama
  generalize e.load models config llama = result at hexit
  cases hexit with
  | missing hopen => rw [if_pos hopen]; rfl
  | noModel hopen hmodel => rw [if_neg hopen, hmodel]; rfl
  | unsafeModel hopen hmodel hsafe => rw [if_neg hopen, hmodel]; rfl
  | noContext hopen hmodel hsafe hcontext => rw [if_neg hopen, hmodel]; rfl
  | loaded hopen hmodel hsafe hcontext => rw [if_neg hopen, hmodel]; rfl

theorem generate_memoryDiagnostic (e : InferenceEngine) (prompt : Bytes) (llama : LlamaGenerate) :
    (e.generate prompt llama).engine.memoryDiagnostic = e.memoryDiagnostic := by
  unfold generate
  split
  · dsimp only
    split
    · rfl
    · split_ifs <;> rfl
  · rfl

theorem memoryDecision_diagnostic_ne (model : LlamaModel) (config : RuntimeConfig) :
    (memoryDecision model config).diagnostic ≠ [] := by
  change MemoryBudgetPolicy.formatDiagnostic _ ≠ []
  unfold MemoryBudgetPolicy.formatDiagnostic
  split
  · simp only [List.append_assoc]
    exact List.append_ne_nil_of_left_ne_nil (by decide) _
  · simp only [MemoryBudgetPolicy.mbLine, List.append_assoc]
    exact List.append_ne_nil_of_left_ne_nil (by decide) _

end InferenceEngine

theorem verify_diagnostic_ne (fs : FileSystem) (path : Path) (expectedChecksumSha256 : Bytes) :
    (ModelVerifier.verify fs path expectedChecksumSha256).diagnostic ≠ [] := by
  have hne (r : VerificationResult) (status : VerificationStatus) :
      (r.conclude path status).diagnostic ≠ [] := by
    change buildDiagnostic _ path ≠ []
    unfold buildDiagnostic
    simp only [List.append_assoc]
    split
    · exact List.append_ne_nil_of_left_ne_nil (by decide) _
    · exact List.append_ne_nil_of_left_ne_nil (by decide) _
  unfold ModelVerifier.verify
  dsimp only
  repeat' split
  all_goals exact hne _ _

namespace Runtime

theorem importStage_diagnostic_ne (w : World) (config : RuntimeConfig) (input : LoadInput) :
    (importStage w config input).result.diagnostic ≠ [] := by
  have hne := verify_diagnostic_ne w.models (resolution w config).resolvedPath
    config.expectedModelChecksumSha256
  unfold importStage ModelRegistry.importModel
  dsimp only
  split
  · exact hne
  · split
    · exact List.append_ne_nil_of_left_ne_nil hne _
    · dsimp only
      split_ifs
      · exact hne
      · exact List.append_ne_nil_of_left_ne_nil hne _

/-- The diagnostic of the verification of a load, if the load comes to it. -/
def verificationOf : World × Call → Option Bytes
  | (w, .load config input) =>
      if validateConfig config = [] ∧ (quotaStage w config input).2.allowed = true ∧
          (resolution w config).status = .resolved then
        some (importStage w config input).result.diagnostic
      else none
  | _ => none

/-- The diagnostic of the memory admission of a load, if the load comes to it. -/
def admissionOf : World × Call → Option Bytes
  | (w, .load config input) =>
      if validateConfig config = [] ∧ (quotaStage w config input).2.allowed = true ∧
          (resolution w config).status = .resolved ∧
          isVerified (importStage w config input).result.status = true ∧
          (w.models (resolution w config).resolvedPath).open ≠ none then
        input.llama.model.map fun model =>
          (InferenceEngine.memoryDecision model (resolvedConfig w config)).diagnostic
      else none
  | _ => none

theorem verificationOf_ne (wc : World × Call) : verificationOf wc ≠ some [] := by
  obtain ⟨w, call⟩ := wc
  cases call with
  | load config input =>
      rw [verificationOf]
      split
      · exact fun h => importStage_diagnostic_ne w config input (Option.some.inj h)
      · exact nofun
  | _ => exact nofun

theorem admissionOf_ne (wc : World × Call) : admissionOf wc ≠ some [] := by
  obtain ⟨w, call⟩ := wc
  cases call with
  | load config input =>
      rw [admissionOf]
      split
      · cases input.llama.model with
        | none => exact nofun
        | some model =>
            exact fun h => InferenceEngine.memoryDecision_diagnostic_ne model _ (Option.some.inj h)
      · exact nofun
  | _ => exact nofun

theorem generate_reports (r : Runtime) (w : World) (prompt : Bytes) (input : GenerateInput) :
    (r.generate w prompt input).runtime.verificationReport = r.verificationReport ∧
      (r.generate w prompt input).runtime.memoryReport = r.memoryReport := by
  have hadmitted (w : World) (effects : List Effect) :
      (r.generateAdmitted w prompt input effects).runtime.verificationReport =
          r.verificationReport ∧
        (r.generateAdmitted w prompt input effects).runtime.memoryReport = r.memoryReport := by
    rw [generateAdmitted_runtime]
    exact ⟨rfl, r.engine.generate_memoryDiagnostic prompt input.llama⟩
  unfold generate
  split
  · exact ⟨rfl, rfl⟩
  · split
    · exact hadmitted w _
    · dsimp only
      split
      · exact ⟨rfl, rfl⟩
      · exact hadmitted _ _

theorem loadEngine_reports (r : Runtime) (w : World) (config : RuntimeConfig) (input : LoadInput)
    (effects : List Effect) :
    (r.loadEngine w config input effects).runtime.verificationReport = r.verificationReport ∧
      (r.loadEngine w config input effects).runtime.memoryReport =
        (r.engine.load w.models config input.llama).engine.memoryDiagnostic := by
  unfold loadEngine
  dsimp only
  split <;> exact ⟨rfl, rfl⟩

theorem step_reports (r : Runtime) (wc : World × Call) :
    (step r wc).1.verificationReport = (verificationOf wc).getD r.verificationReport ∧
      (step r wc).1.memoryReport = (admissionOf wc).getD r.memoryReport := by
  obtain ⟨w, call⟩ := wc
  cases call with
  | load config input =>
      change (r.load w config input).runtime.verificationReport = _ ∧
        (r.load w config input).runtime.memoryReport = _
      rw [verificationOf, admissionOf]
      have hcase := load_case r w config input
      generalize r.load w config input = result at hcase
      cases hcase with
      | invalid hconfig =>
          rw [if_neg (by simp [hconfig]), if_neg (by simp [hconfig])]
          exact ⟨rfl, rfl⟩
      | denied hconfig hquota =>
          rw [if_neg (by simp [hquota]), if_neg (by simp [hquota])]
          exact ⟨rfl, rfl⟩
      | unresolved hconfig hquota hresolution =>
          rw [if_neg (by simp [hresolution]), if_neg (by simp [hresolution])]
          exact ⟨rfl, rfl⟩
      | rejected hconfig hquota hresolution hverification =>
          rw [if_pos ⟨hconfig, hquota, hresolution⟩, if_neg (by simp [hverification])]
          exact ⟨rfl, rfl⟩
      | engine hconfig hquota hresolution hverification =>
          rw [if_pos ⟨hconfig, hquota, hresolution⟩]
          refine (loadEngine_reports _ _ _ _ _).imp_right fun hmemory => ?_
          rw [hmemory, InferenceEngine.load_memoryDiagnostic]
          change (if (w.models (resolution w config).resolvedPath).open = none then none else _).getD
            r.engine.memoryDiagnostic = _
          refine congrArg (Option.getD · r.engine.memoryDiagnostic) ?_
          by_cases hopen : (w.models (resolution w config).resolvedPath).open = none
          · rw [if_pos hopen, if_neg (by simp [hopen])]
          · rw [if_neg hopen, if_pos ⟨hconfig, hquota, hresolution, hverification, hopen⟩]
  | unload => exact ⟨rfl, rfl⟩
  | generate prompt input => exact generate_reports r w prompt input
  | resetContext hasMemory => exact ⟨rfl, rfl⟩

def Call.isLoad : Call → Bool
  | .load _ _ => true
  | _ => false

/-- The reports are those of the call, empty where it did not come to their stage. -/
def ReportsOn (r : Runtime) (wc : World × Call) : Prop :=
  r.verificationReport = (verificationOf wc).getD [] ∧ r.memoryReport = (admissionOf wc).getD []

/-- After every load of a sequence of calls the reports are those of the load exactly if every load
comes to both stages, unless none before it has come to the one it misses. -/
theorem reports_latest_iff (calls : List (World × Call)) :
    AtEvery (fun past wc => wc.2.isLoad = true → ReportsOn (final step {} (past ++ [wc])) wc) calls ↔
      AtEvery (fun past wc => wc.2.isLoad = true →
        ((verificationOf wc).isSome = true ∨ ∀ earlier ∈ past, verificationOf earlier = none) ∧
          ((admissionOf wc).isSome = true ∨ ∀ earlier ∈ past, admissionOf earlier = none)) calls := by
  have hlatest (past : List (World × Call)) (wc : World × Call) :
      ReportsOn (final step {} (past ++ [wc])) wc ↔
        ((verificationOf wc).isSome = true ∨ ∀ earlier ∈ past, verificationOf earlier = none) ∧
          ((admissionOf wc).isSome = true ∨ ∀ earlier ∈ past, admissionOf earlier = none) :=
    and_congr
      (final_concat_iff (s := ({} : Runtime)) (fun r wc => (step_reports r wc).1) verificationOf_ne
        past wc)
      (final_concat_iff (s := ({} : Runtime)) (fun r wc => (step_reports r wc).2) admissionOf_ne
        past wc)
  constructor
  · intro h
    exact h.imp fun past wc hreports hload => (hlatest past wc).mp (hreports hload)
  · intro h
    exact h.imp fun past wc hreached hload => (hlatest past wc).mpr (hreached hload)

/-- After a load that succeeded, one whose configuration is refused leaves its reports. -/
theorem reports_latest_stale :
    ¬∀ (calls : List (World × Call)), (∀ wc ∈ calls, wc.2.isLoad = true) →
      AtEvery (fun past wc => ReportsOn (final step {} (past ++ [wc])) wc) calls := by
  intro h
  have hreports := h [(sampleWorld, .load sampleConfig sampleInput), (sampleWorld, .load {} sampleInput)]
    (by simp [Call.isLoad]) [_] _ [] rfl
  have hreached : (final step {} [(sampleWorld, .load sampleConfig sampleInput),
      (sampleWorld, .load {} sampleInput)]).verificationReport ≠ [] := by decide +kernel
  exact hreached (hreports.1.trans (by decide +kernel))

end Runtime

end EdgeMind
