import EdgeMind.Framework.Bytes
import Mathlib.Logic.Function.Basic

/-!
# Files and their replacement

A file system maps path strings to what they name. A file is replaced by writing a temporary
file, flushing it and renaming it over the target; every step can fail, and a failed replacement
never touches the target.
-/

namespace EdgeMind.Framework

abbrev Path := Bytes

/-- What a path resolves to. A path whose status cannot be determined counts as `absent`, and a file that
opens can be read to its end. -/
inductive Node
  | absent
  | file (content : Bytes) (readable : Bool)
  /-- A directory, device or other object that is not a regular file. -/
  | special
deriving DecidableEq

/-- Open for reading. A directory opens, but nothing can be read from it. -/
def Node.open : Node → Option Bytes
  | .absent => none
  | .file content readable => if readable then some content else none
  | .special => some []

def Node.ofOpen : Option Bytes → Node
  | none => .absent
  | some content => .file content true

@[simp]
theorem Node.open_ofOpen (opened : Option Bytes) : (Node.ofOpen opened).open = opened := by
  cases opened <;> rfl

abbrev FileSystem := Path → Node

namespace FileSystem

def set (fs : FileSystem) (p : Path) (n : Node) : FileSystem := Function.update fs p n

@[simp]
theorem set_same (fs : FileSystem) (p : Path) (n : Node) : fs.set p n p = n := by
  simp [set]

theorem set_other (fs : FileSystem) {p q : Path} (n : Node) (h : q ≠ p) :
    fs.set p n q = fs q := by
  simp [set, h]

theorem set_set (fs : FileSystem) (p : Path) (m n : Node) : (fs.set p m).set p n = fs.set p n :=
  Function.update_idem _ _ _

end FileSystem

/-- How a replacement goes: to its end, or stopped at one of its steps. -/
inductive SaveOutcome
  | ok
  | openFails
  | writeFails (kept : Nat)
  | renameFails
deriving DecidableEq

def tmpPath (path : Path) : Path := path ++ text ".tmp"

theorem tmpPath_ne (path : Path) : tmpPath path ≠ path := by
  intro h
  have hl := congrArg List.length h
  rw [tmpPath, List.length_append] at hl
  have : (text ".tmp").length = 4 := rfl
  omega

/-- Write the content to the temporary file, then rename it over the target. -/
def replaceFile (fs : FileSystem) (path : Path) (content : Bytes) : SaveOutcome → FileSystem × Bool
  | .ok => ((fs.set (tmpPath path) .absent).set path (.file content true), true)
  | .openFails => (fs, false)
  | .writeFails kept => (fs.set (tmpPath path) (.file (content.take kept) true), false)
  | .renameFails => (fs.set (tmpPath path) .absent, false)

theorem replaceFile_ok (fs : FileSystem) (path : Path) (content : Bytes) :
    (replaceFile fs path content .ok).1 path = .file content true := by
  simp [replaceFile]

theorem replaceFile_failed (fs : FileSystem) (path : Path) (content : Bytes) (io : SaveOutcome)
    (h : (replaceFile fs path content io).2 = false) :
    (replaceFile fs path content io).1 path = fs path := by
  have hp := (tmpPath_ne path).symm
  cases io <;> simp_all [replaceFile, FileSystem.set_other]

/-- The paths that a replacement works on. -/
def storeFiles (path : Path) : List Path := [path, tmpPath path]

theorem replaceFile_other (fs : FileSystem) {path q : Path} (content : Bytes) (io : SaveOutcome)
    (h : q ∉ storeFiles path) : (replaceFile fs path content io).1 q = fs q := by
  rw [storeFiles, List.mem_cons, List.mem_singleton, not_or] at h
  cases io <;> simp [replaceFile, FileSystem.set_other, h.1, h.2]

/-- An operation on the files of one store: it leaves all others, and does the same wherever its own are
the same. -/
structure LocalTo (path : Path) {α : Type*} (f : FileSystem → FileSystem × α) : Prop where
  other : ∀ fs q, q ∉ storeFiles path → (f fs).1 q = fs q
  result : ∀ fs fs', (∀ q ∈ storeFiles path, fs q = fs' q) → (f fs).2 = (f fs').2
  own : ∀ fs fs', (∀ q ∈ storeFiles path, fs q = fs' q) →
    ∀ q ∈ storeFiles path, (f fs).1 q = (f fs').1 q

namespace LocalTo

variable {path : Path} {α β : Type*}

theorem keep (a : α) : LocalTo path fun fs => (fs, a) where
  other _ _ _ := rfl
  result _ _ _ := rfl
  own _ _ h := h

theorem replaceFile (content : Bytes) (io : SaveOutcome) :
    LocalTo path fun fs => Framework.replaceFile fs path content io where
  other fs q h := replaceFile_other fs content io h
  result fs fs' _ := by cases io <;> rfl
  own fs fs' h := by
    intro q hq
    have hsame := h q hq
    cases io <;>
      simp only [Framework.replaceFile, FileSystem.set, Function.update_apply, hsame]

theorem load {R : Type*} {load : FileSystem → R} {f : R → FileSystem → FileSystem × α}
    (hload : ∀ fs fs', fs path = fs' path → load fs = load fs') (h : ∀ r, LocalTo path (f r)) :
    LocalTo path fun fs => f (load fs) fs where
  other fs q hq := (h (load fs)).other fs q hq
  result fs fs' hsame := by
    rw [hload fs fs' (hsame path List.mem_cons_self)]
    exact (h _).result fs fs' hsame
  own fs fs' hsame := by
    rw [hload fs fs' (hsame path List.mem_cons_self)]
    exact (h _).own fs fs' hsame

theorem map {f : FileSystem → FileSystem × α} (h : LocalTo path f) (g : α → β) :
    LocalTo path fun fs => ((f fs).1, g (f fs).2) where
  other := h.other
  result fs fs' hsame := congrArg g (h.result fs fs' hsame)
  own := h.own

theorem ite {p : Prop} [Decidable p] {f g : FileSystem → FileSystem × α} (hf : LocalTo path f)
    (hg : LocalTo path g) : LocalTo path fun fs => if p then f fs else g fs := by
  split
  · exact hf
  · exact hg

end LocalTo

end EdgeMind.Framework
