import EdgeMind.Model.RegistryImport
import EdgeMind.Usage.Manager

/-!
# Files that exist and cannot be opened

Both stores take a file they cannot open for one that does not exist. In a directory that is
writable the next save then replaces it. What every caller does with such a file is stated here,
with the exact condition under which it is replaced.
-/

namespace EdgeMind

open Framework

namespace UsageStateStore

theorem load_unopened {fs : FileSystem} {path : Path} (h : (fs path).open = none) :
    load fs path = (.notFound, {}) := by
  rw [load, h]

theorem save_replaces_iff {fs : FileSystem} {path : Path} {content : Bytes}
    (h : fs path = .file content false) (state : UsageState) (outcome : SaveOutcome) :
    (save fs path state outcome).1 path ≠ fs path ↔ outcome = .ok ∧ Valid state := by
  rw [← save_eq_true_iff fs path state outcome]
  constructor
  · intro hne
    by_contra hsaved
    exact hne (save_failed (Bool.eq_false_iff.mpr hsaved))
  · intro hsaved heq
    have hload := load_save hsaved
    rw [load_congr heq, load_unopened (by rw [h]; rfl)] at hload
    cases hload

end UsageStateStore

namespace UsageManager

open UsageAccounting

/-- A clock reading that can be stored. -/
def Storable (now : Int) : Prop := 0 ≤ now ∧ now ≤ UsageState.maxSaneTimestamp

theorem fresh_rolled (policy : UsagePolicy) (now : Int) :
    periodHasRolledOver policy {} now = true :=
  (periodHasRolledOver_iff policy {} now).mpr (.inl le_rfl)

theorem fresh_rolled_valid_iff (now : Int) :
    UsageStateStore.Valid (rollOverPeriod {} now) ↔ Storable now :=
  rollOverPeriod_valid_iff UsageStateStore.valid_default now

theorem fresh_session_valid_iff (now : Int) :
    UsageStateStore.Valid { ({} : UsageState) with sessionStartUnix := now } ↔ Storable now := by
  constructor
  · intro h
    exact ⟨h.sessionStart_nonneg, h.sessionStart_le⟩
  · intro h
    exact { UsageStateStore.valid_default with
      sessionStart_nonneg := h.1
      sessionStart_le := h.2 }

theorem fresh_generation_valid_iff (policy : UsagePolicy) {tokensGenerated : Int}
    (htokens : 0 ≤ tokensGenerated) (now : Int) :
    UsageStateStore.Valid (addGeneration (currentState policy {} now) tokensGenerated) ↔
      Storable now := by
  rw [generation_valid_iff policy UsageStateStore.valid_default htokens]
  exact forall_prop_of_true (fresh_rolled policy now)

section Unopened

variable {usage : FileSystem} {statePath : Path} {content : Bytes}
  (h : usage statePath = .file content false)

include h

theorem checkAdmission_unopened (policy : UsagePolicy) (now : Int) (outcome : SaveOutcome) :
    checkAdmission usage statePath policy now outcome =
      ((UsageStateStore.save usage statePath (rollOverPeriod {} now) outcome).1,
        evaluate policy (rollOverPeriod {} now) now) := by
  have hload := UsageStateStore.load_unopened (show (usage statePath).open = none by rw [h]; rfl)
  have hrolled := fresh_rolled policy now
  unfold checkAdmission
  rw [hload]
  dsimp only
  rw [if_neg (by decide), if_pos hrolled, currentState_rolled hrolled]

theorem checkAdmission_replaces_iff (policy : UsagePolicy) (now : Int) (outcome : SaveOutcome) :
    (checkAdmission usage statePath policy now outcome).1 statePath ≠ usage statePath ↔
      outcome = .ok ∧ Storable now := by
  rw [checkAdmission_unopened h, UsageStateStore.save_replaces_iff h, fresh_rolled_valid_iff]

theorem sessionStart_replaces_iff (now : Int) (outcome : SaveOutcome) :
    (sessionStart usage statePath now outcome).1 statePath ≠ usage statePath ↔
      outcome = .ok ∧ Storable now := by
  have hload := UsageStateStore.load_unopened (show (usage statePath).open = none by rw [h]; rfl)
  unfold sessionStart
  rw [hload]
  dsimp only
  rw [if_neg (by decide), UsageStateStore.save_replaces_iff h, fresh_session_valid_iff]

theorem recordGeneration_replaces_iff (policy : UsagePolicy) (tokensGenerated now : Int)
    (outcome : SaveOutcome) :
    (recordGeneration usage statePath policy tokensGenerated now outcome).1 statePath ≠
        usage statePath ↔
      0 ≤ tokensGenerated ∧ outcome = .ok ∧ Storable now := by
  have hload := UsageStateStore.load_unopened (show (usage statePath).open = none by rw [h]; rfl)
  unfold recordGeneration
  by_cases htokens : tokensGenerated < 0
  · rw [if_pos htokens]
    simp [Int.not_le.mpr htokens]
  · rw [if_neg htokens, hload]
    dsimp only
    rw [if_neg (by decide), UsageStateStore.save_replaces_iff h,
      fresh_generation_valid_iff policy (Int.not_lt.mp htokens),
      and_iff_right (Int.not_lt.mp htokens)]

end Unopened

end UsageManager

namespace ModelRegistry

theorem load_unopened {fs : FileSystem} {path : Path} (h : (fs path).open = none) :
    load fs path = (.notFound, []) := by
  rw [load, h]

theorem importModel_unopened (models : FileSystem) {registry : FileSystem} {registryPath : Path}
    (h : (registry registryPath).open = none) (modelPath : Path) (checksum : Bytes) (now : Int64)
    (outcome : SaveOutcome) :
    load (importModel models registry registryPath modelPath checksum now outcome).registry
        registryPath =
      if (ModelVerifier.verify models modelPath checksum).identity.computed ∧ outcome = .ok then
        (.ok, [importedEntry models modelPath checksum
          (ModelVerifier.verify models modelPath checksum) now])
      else (.notFound, []) := by
  have hload := load_unopened h
  rw [importModel_load]
  unfold recordedEntry
  rw [hload]
  simp only [ne_eq, reduceCtorEq, not_false_eq_true, true_and]
  split_ifs <;> rfl

end ModelRegistry

/-- The usage file is known to exist: no decision starts from zero counters and nothing replaces
it. -/
structure UsageKept (usage : FileSystem) (statePath : Path) : Prop where
  load : (UsageStateStore.load usage statePath).1 ≠ .notFound
  decision : ∀ policy now outcome,
    (UsageManager.checkAdmission usage statePath policy now outcome).2 ≠
      UsageAccounting.evaluate policy (UsageAccounting.rollOverPeriod {} now) now
  checkAdmission : ∀ policy now outcome,
    (UsageManager.checkAdmission usage statePath policy now outcome).1 statePath = usage statePath
  sessionStart : ∀ now outcome,
    (UsageManager.sessionStart usage statePath now outcome).1 statePath = usage statePath
  recordGeneration : ∀ policy tokensGenerated now outcome,
    (UsageManager.recordGeneration usage statePath policy tokensGenerated now outcome).1 statePath =
      usage statePath

/-- The registry file is known to exist: no import leaves the new entry only. -/
structure RegistryKept (registry : FileSystem) (registryPath : Path) : Prop where
  load : (ModelRegistry.load registry registryPath).1 ≠ .notFound
  importModel : ∀ models modelPath checksum now outcome,
    ModelRegistry.load (ModelRegistry.importModel models registry registryPath modelPath checksum
        now outcome).registry registryPath ≠
      (.ok, [ModelRegistry.importedEntry models modelPath checksum
        (ModelVerifier.verify models modelPath checksum) now])

/-- No store file that exists and cannot be opened is known to exist. Every decision starts from
zero counters, and each caller replaces the file exactly if its save succeeds. -/
theorem unreadable_stores {usage registry : FileSystem} {statePath registryPath : Path}
    {state entries : Bytes} (husage : usage statePath = .file state false)
    (hregistry : registry registryPath = .file entries false) :
    (¬UsageKept usage statePath ∧ ¬RegistryKept registry registryPath) ∧
    (UsageStateStore.load usage statePath = (.notFound, {}) ∧
      ModelRegistry.load registry registryPath = (.notFound, [])) ∧
    (∀ policy now outcome,
      (UsageManager.checkAdmission usage statePath policy now outcome).2 =
          UsageAccounting.evaluate policy (UsageAccounting.rollOverPeriod {} now) now ∧
        ((UsageManager.checkAdmission usage statePath policy now outcome).1 statePath ≠
            usage statePath ↔ outcome = .ok ∧ UsageManager.Storable now)) ∧
    (∀ now outcome,
      (UsageManager.sessionStart usage statePath now outcome).1 statePath ≠ usage statePath ↔
        outcome = .ok ∧ UsageManager.Storable now) ∧
    (∀ policy tokensGenerated now outcome,
      (UsageManager.recordGeneration usage statePath policy tokensGenerated now outcome).1
          statePath ≠ usage statePath ↔
        0 ≤ tokensGenerated ∧ outcome = .ok ∧ UsageManager.Storable now) ∧
    ∀ models modelPath checksum now outcome,
      ModelRegistry.load (ModelRegistry.importModel models registry registryPath modelPath checksum
          now outcome).registry registryPath =
        if (ModelVerifier.verify models modelPath checksum).identity.computed ∧ outcome = .ok then
          (.ok, [ModelRegistry.importedEntry models modelPath checksum
            (ModelVerifier.verify models modelPath checksum) now])
        else (.notFound, []) := by
  have hopen : (usage statePath).open = none := by rw [husage]; rfl
  have hclosed : (registry registryPath).open = none := by rw [hregistry]; rfl
  have hload := UsageStateStore.load_unopened hopen
  have hentries := ModelRegistry.load_unopened hclosed
  refine ⟨⟨?_, ?_⟩, ⟨hload, hentries⟩, fun policy now outcome => ⟨?_, ?_⟩,
    UsageManager.sessionStart_replaces_iff husage,
    UsageManager.recordGeneration_replaces_iff husage,
    fun models => ModelRegistry.importModel_unopened models hclosed⟩
  · intro hkept
    exact hkept.load (congrArg Prod.fst hload)
  · intro hkept
    exact hkept.load (congrArg Prod.fst hentries)
  · rw [UsageManager.checkAdmission_unopened husage]
  · exact UsageManager.checkAdmission_replaces_iff husage policy now outcome

/-- A usage file with one message used, and whether it can be opened. -/
def usedUp (readable : Bool) : FileSystem := fun _ =>
  .file (UsageStateStore.stateText { periodStartUnix := 1000, messagesUsedThisPeriod := 1 }) readable

/-- A registry of one model, and whether it can be opened. -/
def oneModel (readable : Bool) : FileSystem := fun _ =>
  .file (kMagicLine ++ text "\n" ++ (ModelRegistry.entriesText [{ modelId := text "old" }]).1) readable

def oneMessage : UsagePolicy := { dailyMessageLimit := 1 }

/-- The message of the day has been used: with the file the check denies, and once the file cannot
be opened it allows and stores a new period. -/
theorem unreadable_usedUp :
    ¬UsageKept (usedUp false) (text "u") ∧ ¬RegistryKept (oneModel false) (text "r") ∧
      (UsageManager.checkAdmission (usedUp true) (text "u") oneMessage 2000 .ok).2.allowed = false ∧
      (UsageManager.checkAdmission (usedUp false) (text "u") oneMessage 2000 .ok).2.allowed = true ∧
      UsageStateStore.load
          (UsageManager.checkAdmission (usedUp false) (text "u") oneMessage 2000 .ok).1 (text "u") =
        (.ok, { periodStartUnix := 2000 }) := by
  refine ⟨fun hkept => hkept.load (by decide +kernel), fun hkept => hkept.load (by decide +kernel),
    by decide +kernel, by decide +kernel, by decide +kernel⟩

theorem unreadable_oneModel :
    (ModelRegistry.load (oneModel true) (text "r")).2.map RegistryEntry.modelId = [text "old"] ∧
      ModelRegistry.load (oneModel false) (text "r") = (.notFound, []) ∧
      (UsageManager.sessionStart (usedUp false) (text "u") 2000 .ok).1 (text "u") ≠
        usedUp false (text "u") := by
  have h := @unreadable_stores (usedUp false) (oneModel false) (text "u") (text "r") _ _ rfl rfl
  exact ⟨by decide +kernel, h.2.1.2, (h.2.2.2.1 2000 .ok).mpr ⟨rfl, by decide, by decide⟩⟩

end EdgeMind
