import EdgeMind.Framework.SharedReaders
import EdgeMind.Framework.SingleReplace

/-!
# Stores of a value in a file

A store writes a value as the content of one file, through the replacement, and loads it back. Every
save is a process of its own, and a load is whatever a reader of the file makes of it.
-/

namespace EdgeMind.Framework

/-- A value without a job is refused before anything is opened. -/
structure Store (Value Result : Type*) where
  job : Value → Option Job
  load : Option Bytes → Result
  loaded : Value → Result
  load_job : ∀ value job', job value = some job' → job'.complete = true →
    load (some job'.content) = loaded value

namespace Store

variable {Value Result : Type*} (store : Store Value Result)

/-- Processes that each save one value at the path. -/
abbrev saves {ι : Type*} [DecidableEq ι] (path : Path) (values : ι → Value) :
    Shared ι → SharedEvent ι → Shared ι × Unit :=
  Shared.runStep path fun p => store.job (values p)

/-- What was opened is what was there, or all that one of the saves has to write. -/
def OldOrSaved {ι : Type*} (old : Option Bytes) (values : ι → Value) (opened : Option Bytes) :
    Prop :=
  opened = old ∨ ∃ p job, store.job (values p) = some job ∧ job.complete = true ∧
    opened = some job.content

/-- A run in which the saves keep out of each other's temporary file. -/
def OrderlySaves {ι : Type*} [DecidableEq ι] (path : Path) (d : Disk) (values : ι → Value)
    (events : List (SharedEvent ι)) : Prop :=
  ∀ e ∈ trace (store.saves path values) (Shared.start d) events,
    Shared.Orderly path e.before e.input

variable {store}

theorem orderly_oldOrSaved {ι : Type*} [DecidableEq ι] {path : Path} {d : Disk} {values : ι → Value}
    {events : List (SharedEvent ι)} (h : store.OrderlySaves path d values events) {r : Nat}
    {opened : Option Bytes}
    (hdone : (final (store.saves path values) (Shared.start d) events).readers r = .done opened) :
    store.OldOrSaved (d.files path).open values opened := by
  obtain ⟨node, hpublished, hopened⟩ := Shared.orderly_seen h hdone
  rcases hpublished with hold | ⟨p, job, hjob, hcomplete, hnode⟩
  · exact .inl (hopened.trans (by rw [hold]))
  · exact .inr ⟨p, job, hjob, hcomplete, hopened.trans (by rw [hnode]; rfl)⟩

theorem OldOrSaved.load {ι : Type*} {old opened : Option Bytes} {values : ι → Value}
    (h : store.OldOrSaved old values opened) :
    store.load opened = store.load old ∨
      ∃ p, (store.job (values p)).isSome ∧ store.load opened = store.loaded (values p) := by
  rcases h with h | ⟨p, job, hjob, hcomplete, h⟩
  · exact .inl (by rw [h])
  · refine .inr ⟨p, by rw [hjob]; rfl, ?_⟩
    rw [h]
    exact store.load_job (values p) job hjob hcomplete

variable (store)

/-- What one save leaves at the path, wherever it stops. -/
structure Atomic (path : Path) (d : Disk) (value : Value) (s : Shared Unit) : Prop where
  kept : s.phase () ≠ .returned true → s.disk.files path = d.files path
  replaced : s.phase () = .returned true → ∃ job, store.job value = some job ∧
    job.complete = true ∧ s.disk.files path = .file job.content true

variable {store}

theorem atomic (path : Path) (d : Disk) (value : Value) (events : List (SharedEvent Unit)) :
    store.Atomic path d value
      (final (store.saves path fun _ => value) (Shared.start d) events) := by
  cases hjob : store.job value with
  | none =>
      obtain ⟨hdisk, hphase⟩ := Shared.single_refused path d events
      rw [saves, hjob]
      exact ⟨fun _ => by rw [hdisk], fun h => absurd h hphase⟩
  | some job =>
      obtain ⟨io, hfiles, hok, hcomplete⟩ := Shared.single_replaced path d job events
      rw [saves, hjob]
      constructor
      · intro hphase
        have hio : io ≠ .ok := fun h => hphase (hok.mp h)
        rw [hfiles]
        apply replaceFile_failed
        cases io <;> simp_all [replaceFile]
      · intro hphase
        have hio := hok.mpr hphase
        refine ⟨job, hjob, hcomplete (.inl hio), ?_⟩
        rw [hfiles, hio, replaceFile_ok]

end Store

end EdgeMind.Framework
