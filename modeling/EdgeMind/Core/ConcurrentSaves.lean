import EdgeMind.Framework.Store
import EdgeMind.Model.RegistryCodec
import EdgeMind.Usage.StateStore

/-!
# Saves of the two stores, step by step

The usage state and the registry are both written to a temporary file that is renamed over the
store. One process alone leaves the store as it was or as it has to be, wherever it stops. Two
processes use one temporary file: what a reader finds is whole only if they keep out of it while the
other writes.
-/

namespace EdgeMind

open Framework

namespace UsageStateStore

def saveJob (state : UsageState) : Option Job :=
  if validateState state then some { content := stateText state, complete := true } else none

theorem saveJob_eq_some {state : UsageState} {job : Job} (h : saveJob state = some job) :
    Valid state ∧ job = { content := stateText state, complete := true } := by
  unfold saveJob at h
  split at h
  · next hvalid =>
      cases h
      exact ⟨(validateState_iff state).mp hvalid, rfl⟩
  · cases h

def store : Store UsageState (UsageStateLoadResult × UsageState) where
  job := saveJob
  load := fun opened => load (fun _ => .ofOpen opened) []
  loaded := fun state => (.ok, state)
  load_job := by
    intro state job hjob _
    obtain ⟨hvalid, rfl⟩ := saveJob_eq_some hjob
    exact load_stateText hvalid rfl

theorem store_load (fs : FileSystem) (path : Path) : store.load (fs path).open = load fs path := by
  change load (fun _ => .ofOpen (fs path).open) [] = load fs path
  rw [load, load, Node.open_ofOpen]

theorem save_of_replaced {fs : FileSystem} {path : Path} {state : UsageState}
    (hvalid : Valid state) (io : SaveOutcome) :
    save fs path state io = replaceFile fs path (stateText state) io := by
  rw [save, if_neg (not_not_intro ((validateState_iff state).mpr hvalid))]

end UsageStateStore

namespace ModelRegistry

/-- The save writes up to the first entry without identity. -/
def saveJob (entries : List RegistryEntry) : Job where
  content := kMagicLine ++ text "\n" ++ (entriesText entries).1
  complete := (entriesText entries).2

def store : Store (List RegistryEntry) (RegistryLoadResult × List RegistryEntry) where
  job := fun entries => some (saveJob entries)
  load := fun opened => load (fun _ => .ofOpen opened) []
  loaded := fun entries => (.ok, entries)
  load_job := by
    intro entries job hjob hcomplete
    cases hjob
    have hids := (entriesText_complete_iff entries).mp hcomplete
    have hsave := (save_eq_true_iff (fun _ => .absent) [] entries .ok).mpr ⟨rfl, hids⟩
    have hload := load_save hsave
    have hnode := save_content hsave
    rw [load, hnode] at hload
    exact hload

theorem store_load (fs : FileSystem) (path : Path) : store.load (fs path).open = load fs path := by
  change load (fun _ => .ofOpen (fs path).open) [] = load fs path
  rw [load, load, Node.open_ofOpen]

theorem save_of_replaced {fs : FileSystem} {path : Path} {entries : List RegistryEntry}
    {io : SaveOutcome} (h : io = .ok ∨ io = .renameFails → (saveJob entries).complete = true) :
    save fs path entries io = replaceFile fs path (saveJob entries).content io := by
  unfold save
  dsimp only
  split
  · rfl
  · next hincomplete =>
      cases io with
      | openFails => rfl
      | writeFails kept => rfl
      | ok => exact absurd (h (.inl rfl)) hincomplete
      | renameFails => exact absurd (h (.inr rfl)) hincomplete

end ModelRegistry

/-- The store after a save of one process that has stopped anywhere. -/
structure AtomicSave {Value Result : Type*} (load : FileSystem → Path → Result × Value) (ok : Result)
    (save : FileSystem → Path → Value → SaveOutcome → FileSystem × Bool) (content : Value → Bytes)
    (path : Path) (d : Disk) (value : Value) (s : Shared Unit) : Prop where
  /-- The files are as some outcome of the save in one piece leaves them. -/
  refines : ∃ io, s.disk.files = (save d.files path value io).1 ∧
    ((save d.files path value io).2 = true ↔ s.phase () = .returned true)
  kept : s.phase () ≠ .returned true → s.disk.files path = d.files path
  replaced : s.phase () = .returned true → s.disk.files path = .file (content value) true
  loaded : load s.disk.files path =
    if s.phase () = .returned true then (ok, value) else load d.files path
  uncorrupted : (load d.files path).1 = ok → (load s.disk.files path).1 = ok

theorem atomicSave_of_files {Value Result : Type*} {load : FileSystem → Path → Result × Value}
    {ok : Result} {save : FileSystem → Path → Value → SaveOutcome → FileSystem × Bool}
    {content : Value → Bytes} {path : Path} {d : Disk} {value : Value} {s : Shared Unit}
    (hcongr : ∀ fs fs', fs path = fs' path → load fs path = load fs' path)
    (hsave : ∀ fs io, (save fs path value io).2 = true →
      load (save fs path value io).1 path = (ok, value))
    (hrefines : ∃ io, s.disk.files = (save d.files path value io).1 ∧
      ((save d.files path value io).2 = true ↔ s.phase () = .returned true))
    (hkept : s.phase () ≠ .returned true → s.disk.files path = d.files path)
    (hreplaced : s.phase () = .returned true → s.disk.files path = .file (content value) true) :
    AtomicSave load ok save content path d value s := by
  have hloaded : load s.disk.files path =
      if s.phase () = .returned true then (ok, value) else load d.files path := by
    obtain ⟨io, hfiles, hresult⟩ := hrefines
    split
    · next hphase =>
        rw [hfiles]
        exact hsave d.files io (hresult.mpr hphase)
    · next hphase => exact hcongr _ _ (hkept hphase)
  refine ⟨hrefines, hkept, hreplaced, hloaded, fun hok => ?_⟩
  rw [hloaded]
  split
  · rfl
  · exact hok

theorem UsageStateStore.steps_refine (path : Path) (d : Disk) (state : UsageState)
    (events : List (SharedEvent Unit)) :
    let s := final (store.saves path fun _ => state) (Shared.start d) events
    ∃ io, s.disk.files = (save d.files path state io).1 ∧
      ((save d.files path state io).2 = true ↔ s.phase () = .returned true) := by
  intro s
  cases hjob : saveJob state with
  | none =>
      have hinvalid : ¬validateState state := by
        intro hvalid
        rw [saveJob, if_pos hvalid] at hjob
        cases hjob
      obtain ⟨hdisk, hphase⟩ := Shared.single_refused path d events
      have hs : s = final (Shared.runStep path fun _ => none) (Shared.start d) events := by
        rw [← hjob]
        rfl
      rw [← hs] at hdisk hphase
      refine ⟨.openFails, ?_, ?_⟩
      · rw [save, if_pos hinvalid, hdisk]
      · rw [save, if_pos hinvalid]
        simp [hphase]
  | some job =>
      obtain ⟨hvalid, hcontent⟩ := saveJob_eq_some hjob
      obtain ⟨io, hfiles, hok, -⟩ := Shared.single_replaced path d job events
      have hs : s = final (Shared.runStep path fun _ => some job) (Shared.start d) events := by
        rw [← hjob]
        rfl
      rw [← hs] at hfiles hok
      refine ⟨io, ?_, ?_⟩
      · rw [save_of_replaced hvalid, hfiles, hcontent]
      · rw [save_eq_true_iff, ← hok]
        simp [hvalid]

theorem ModelRegistry.steps_refine (path : Path) (d : Disk) (entries : List RegistryEntry)
    (events : List (SharedEvent Unit)) :
    let s := final (store.saves path fun _ => entries) (Shared.start d) events
    ∃ io, s.disk.files = (save d.files path entries io).1 ∧
      ((save d.files path entries io).2 = true ↔ s.phase () = .returned true) := by
  intro s
  obtain ⟨io, hfiles, hok, hcomplete⟩ := Shared.single_replaced path d (saveJob entries) events
  refine ⟨io, ?_, ?_⟩
  · rw [save_of_replaced hcomplete]
    exact hfiles
  · rw [save_eq_true_iff, ← entriesText_complete_iff]
    exact ⟨fun h => hok.mp h.1, fun h => ⟨hok.mpr h, hcomplete (.inl (hok.mpr h))⟩⟩

/-- One process that saves a state or a list of entries leaves the store as it was or as it has to
be, wherever it stops. -/
theorem save_atomic (path : Path) (d : Disk) (events : List (SharedEvent Unit)) :
    (∀ state, AtomicSave UsageStateStore.load .ok UsageStateStore.save UsageStateStore.stateText
      path d state
      (final (UsageStateStore.store.saves path fun _ => state) (Shared.start d) events)) ∧
    ∀ entries, AtomicSave ModelRegistry.load .ok ModelRegistry.save
      (fun entries => (ModelRegistry.saveJob entries).content) path d entries
      (final (ModelRegistry.store.saves path fun _ => entries) (Shared.start d) events) := by
  constructor
  · intro state
    have hatomic := UsageStateStore.store.atomic path d state events
    refine atomicSave_of_files (fun _ _ => UsageStateStore.load_congr)
      (fun _ _ => UsageStateStore.load_save) (UsageStateStore.steps_refine path d state events)
      hatomic.kept fun hphase => ?_
    obtain ⟨job, hjob, -, hfile⟩ := hatomic.replaced hphase
    obtain ⟨-, rfl⟩ := UsageStateStore.saveJob_eq_some hjob
    exact hfile
  · intro entries
    have hatomic := ModelRegistry.store.atomic path d entries events
    refine atomicSave_of_files (fun _ _ => ModelRegistry.load_congr)
      (fun _ _ => ModelRegistry.load_save) (ModelRegistry.steps_refine path d entries events)
      hatomic.kept fun hphase => ?_
    obtain ⟨job, hjob, -, hfile⟩ := hatomic.replaced hphase
    cases hjob
    exact hfile

/-- What a load finds at the path: what was loaded there before the run, or one of the saved values,
as a whole. -/
structure WholeLoad {ι Value Result : Type*} (store : Store Value (Result × Value))
    (load : FileSystem → Path → Result × Value) (ok corrupted : Result) (path : Path) (d : Disk)
    (values : ι → Value) (opened : Option Bytes) : Prop where
  whole : store.OldOrSaved (d.files path).open values opened
  loaded : store.load opened = load d.files path ∨ ∃ p, store.load opened = (ok, values p)
  uncorrupted : (load d.files path).1 ≠ corrupted → (store.load opened).1 ≠ corrupted

theorem wholeLoad {ι Value Result : Type*} {store : Store Value (Result × Value)}
    {load : FileSystem → Path → Result × Value} {ok corrupted : Result} {path : Path} {d : Disk}
    {values : ι → Value} {opened : Option Bytes}
    (hload : ∀ fs path, store.load (fs path).open = load fs path)
    (hloaded : ∀ value, store.loaded value = (ok, value)) (hne : ok ≠ corrupted)
    (h : store.OldOrSaved (d.files path).open values opened) :
    WholeLoad store load ok corrupted path d values opened := by
  have hopened : store.load opened = load d.files path ∨
      ∃ p, store.load opened = (ok, values p) := by
    rcases h.load with hold | ⟨p, -, hp⟩
    · exact .inl (hold.trans (hload _ _))
    · exact .inr ⟨p, hp.trans (hloaded _)⟩
  refine ⟨h, hopened, fun hold => ?_⟩
  rcases hopened with hopened | ⟨p, hopened⟩
  · rwa [hopened]
  · rwa [hopened]

/-- Processes that keep out of the temporary file while another writes it are loaded whole: whatever
they save and however their steps and those of the loads are ordered otherwise. -/
theorem orderlySaves_whole {ι : Type*} [DecidableEq ι] (path : Path) (d : Disk)
    (events : List (SharedEvent ι)) (r : Nat) (opened : Option Bytes) :
    (∀ states : ι → UsageState, UsageStateStore.store.OrderlySaves path d states events →
      (final (UsageStateStore.store.saves path states) (Shared.start d) events).readers r =
        .done opened →
      WholeLoad UsageStateStore.store UsageStateStore.load .ok .corrupted path d states opened) ∧
    ∀ entries : ι → List RegistryEntry, ModelRegistry.store.OrderlySaves path d entries events →
      (final (ModelRegistry.store.saves path entries) (Shared.start d) events).readers r =
        .done opened →
      WholeLoad ModelRegistry.store ModelRegistry.load .ok .corrupted path d entries opened := by
  constructor
  · intro states horderly hdone
    exact wholeLoad UsageStateStore.store_load (fun _ => rfl) (by decide)
      (Store.orderly_oldOrSaved horderly hdone)
  · intro entries horderly hdone
    exact wholeLoad ModelRegistry.store_load (fun _ => rfl) (by decide)
      (Store.orderly_oldOrSaved horderly hdone)

def savedStates : Bool → UsageState
  | false => {}
  | true => { messagesUsedThisPeriod := 1 }

theorem savedStates_job (p : Bool) : UsageStateStore.store.job (savedStates p) =
    some { content := UsageStateStore.stateText (savedStates p), complete := true } := by
  cases p <;> rfl

private theorem stateText_ne_nil (state : UsageState) : UsageStateStore.stateText state ≠ [] := by
  rw [UsageStateStore.stateText, List.append_assoc]
  exact List.append_ne_nil_of_left_ne_nil (by decide) _

theorem orderlySaves_whole_turns :
    WholeLoad UsageStateStore.store UsageStateStore.load .ok .corrupted (text "usage") Disk.empty
      savedStates (some (UsageStateStore.stateText (savedStates false))) := by
  have hturns := @Shared.turns (text "usage") (fun p => UsageStateStore.store.job (savedStates p))
    _ _ (savedStates_job false) (savedStates_job true) rfl (stateText_ne_nil _)
  dsimp only at hturns
  have horderly : UsageStateStore.store.OrderlySaves (text "usage") Disk.empty savedStates
      (Shared.turnEvents (UsageStateStore.stateText (savedStates false)).length) := by
    unfold Store.OrderlySaves Store.saves
    exact hturns.1
  refine (orderlySaves_whole (text "usage") Disk.empty _ 0 _).1 savedStates horderly ?_
  unfold Store.saves
  exact hturns.2

/-- A process opens the temporary file of another that has written everything and is about to rename
it: the store is empty, and a load that comes in finds it corrupted. -/
theorem concurrentSaves_torn :
    (∀ p, UsageStateStore.Valid (savedStates p)) ∧
    (final (UsageStateStore.store.saves (text "usage") savedStates) (Shared.start Disk.empty)
      (Shared.tornEvents (UsageStateStore.stateText (savedStates false)).length)).readers 0 =
      .done (some []) ∧
    (UsageStateStore.store.load (some [])).1 = .corrupted ∧
    ¬WholeLoad UsageStateStore.store UsageStateStore.load .ok .corrupted (text "usage") Disk.empty
      savedStates (some []) := by
  have hcorrupted : (UsageStateStore.store.load (some [])).1 = .corrupted := rfl
  have htorn := @Shared.torn (text "usage") (fun p => UsageStateStore.store.job (savedStates p))
    _ _ (savedStates_job false) (savedStates_job true) rfl
  dsimp only at htorn
  refine ⟨fun p => (UsageStateStore.saveJob_eq_some (savedStates_job p)).1, ?_, hcorrupted, ?_⟩
  · unfold Store.saves
    exact htorn
  · intro h
    exact h.uncorrupted (by decide) hcorrupted

end EdgeMind
