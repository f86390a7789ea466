import EdgeMind.Framework.Disk
import EdgeMind.Framework.Run

/-!
# Processes that replace one file

Every process writes its content to the one temporary file and renames that over the target, and
readers open and read the target at any time. A step of any of them is one event. Opening, writing,
closing, renaming and removing interleave freely, so that processes can get at each other's
temporary file; what the readers see is stated for the runs in which they do not.
-/

namespace EdgeMind.Framework

/-- What a process is about to write, and whether it gets to the end of it. -/
structure Job where
  content : Bytes
  complete : Bool

inductive Phase
  | idle
  | writing (inode : Inode) (written rest : Bytes)
  /-- It has given up, or ended, before its rename. -/
  | stopped
  | written
  | removing
  | returned (result : Bool)
deriving DecidableEq

def Phase.inode? : Phase → Option Inode
  | .writing inode _ _ => some inode
  | _ => none

/-- Everything has been written and the file was closed. -/
def Phase.finished : Phase → Bool
  | .written | .removing | .returned _ => true
  | _ => false

inductive ReadPhase
  | idle
  | reading (inode : Inode) (got : Bytes)
  /-- What was read, or nothing if the target could not be opened. -/
  | done (opened : Option Bytes)
deriving DecidableEq

/-- `opener` is the last process that has opened the temporary file. -/
structure Shared (ι : Type*) where
  disk : Disk
  phase : ι → Phase
  opener : Option ι
  readers : Nat → ReadPhase

inductive SharedEvent (ι : Type*)
  | openTmp (p : ι) (ok : Bool)
  | writeTmp (p : ι) (count : Nat)
  /-- Flush and close; `good` is false where this fails, or the process returns or ends before. -/
  | closeTmp (p : ι) (good : Bool)
  | renameTmp (p : ι) (ok : Bool)
  | removeTmp (p : ι) (ok : Bool)
  | openTarget (r : Nat)
  | readTarget (r : Nat) (count : Nat)

namespace Shared

variable {ι : Type*}

def start (disk : Disk) : Shared ι where
  disk := disk
  phase := fun _ => .idle
  opener := none
  readers := fun _ => .idle

def setReader (s : Shared ι) (r : Nat) (reader : ReadPhase) : Shared ι :=
  { s with readers := Function.update s.readers r reader }

section Step

variable [DecidableEq ι] (path : Path) (jobs : ι → Option Job)

def setPhase (s : Shared ι) (p : ι) (phase : Phase) : Shared ι :=
  { s with phase := Function.update s.phase p phase }

/-- A process without a job gives up before it opens anything. -/
def openTmp (s : Shared ι) (p : ι) (ok : Bool) : Shared ι :=
  match s.phase p with
  | .idle =>
      match jobs p, (if ok then s.disk.truncate (tmpPath path) else none) with
      | some job, some (disk, inode) =>
          { s.setPhase p (.writing inode [] job.content) with disk, opener := some p }
      | _, _ => s.setPhase p .stopped
  | _ => s

def writeTmp (s : Shared ι) (p : ι) (count : Nat) : Shared ι :=
  match s.phase p with
  | .writing inode written rest =>
      { s.setPhase p (.writing inode (written ++ rest.take count) (rest.drop count)) with
        disk := s.disk.writeAt inode written.length (rest.take count) }
  | _ => s

def closeTmp (s : Shared ι) (p : ι) (good : Bool) : Shared ι :=
  match s.phase p with
  | .writing _ _ rest =>
      s.setPhase p (if good ∧ rest = [] ∧ (jobs p).any Job.complete then .written else .stopped)
  | _ => s

def renameTmp (s : Shared ι) (p : ι) (ok : Bool) : Shared ι :=
  match s.phase p with
  | .written =>
      if ok ∧ (s.disk.entry (tmpPath path)).isSome then
        { s.setPhase p (.returned true) with disk := s.disk.rename (tmpPath path) path }
      else s.setPhase p .removing
  | _ => s

def removeTmp (s : Shared ι) (p : ι) (ok : Bool) : Shared ι :=
  match s.phase p with
  | .removing =>
      { s.setPhase p (.returned false) with
        disk := if ok then s.disk.unlink (tmpPath path) else s.disk }
  | _ => s

def openTarget (s : Shared ι) (r : Nat) : Shared ι :=
  match s.readers r with
  | .idle =>
      match s.disk.entry path with
      | none => s.setReader r (.done none)
      | some inode =>
          if (s.disk.node inode).open = none then s.setReader r (.done none)
          else s.setReader r (.reading inode [])
  | _ => s

/-- Reads up to `count + 1` bytes; none are left at the end of the file. -/
def readTarget (s : Shared ι) (r : Nat) (count : Nat) : Shared ι :=
  match s.readers r with
  | .reading inode got =>
      let rest := ((s.disk.node inode).open.getD []).drop got.length
      if rest = [] then s.setReader r (.done (some got))
      else s.setReader r (.reading inode (got ++ rest.take (count + 1)))
  | _ => s

def step (s : Shared ι) : SharedEvent ι → Shared ι
  | .openTmp p ok => s.openTmp path jobs p ok
  | .writeTmp p count => s.writeTmp p count
  | .closeTmp p good => s.closeTmp jobs p good
  | .renameTmp p ok => s.renameTmp path p ok
  | .removeTmp p ok => s.removeTmp path p ok
  | .openTarget r => s.openTarget path r
  | .readTarget r count => s.readTarget r count

/-- The step as one of a run, which outputs nothing. -/
def runStep (s : Shared ι) (e : SharedEvent ι) : Shared ι × Unit := (s.step path jobs e, ())

/-- A process opens the temporary file only while no other process is writing it, and renames it
only if whoever opened it last has written everything. -/
def Orderly (s : Shared ι) : SharedEvent ι → Prop
  | .openTmp p ok => s.phase p = .idle → ok = true → ∀ q, q ≠ p →
      (s.phase q).inode? = none ∨ (s.phase q).inode? ≠ s.disk.entry (tmpPath path)
  | .renameTmp p ok => s.phase p = .written → ok = true → ∀ q, s.opener = some q →
      (s.phase q).finished = true
  | _ => True

end Step

theorem openTarget_frame (path : Path) (s : Shared ι) (r : Nat) :
    (s.openTarget path r).disk = s.disk ∧ (s.openTarget path r).phase = s.phase := by
  unfold openTarget
  split
  · split
    · exact ⟨rfl, rfl⟩
    · split <;> exact ⟨rfl, rfl⟩
  · exact ⟨rfl, rfl⟩

theorem readTarget_frame (s : Shared ι) (r count : Nat) :
    (s.readTarget r count).disk = s.disk ∧ (s.readTarget r count).phase = s.phase := by
  unfold readTarget
  split
  · dsimp only
    split <;> exact ⟨rfl, rfl⟩
  · exact ⟨rfl, rfl⟩

end Shared

end EdgeMind.Framework
