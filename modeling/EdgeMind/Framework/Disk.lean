import EdgeMind.Framework.FileStore

/-!
# Files behind their names

A directory maps paths to files, and an open file stays the same file when it is renamed or its name
is taken away. Each step of a program that writes or reads files is one operation here; what the
paths show is the file system of the level above.
-/

namespace EdgeMind.Framework

abbrev Inode := Nat

/-- No two paths name one file, and files named later are new. -/
structure Disk where
  entry : Path → Option Inode
  node : Inode → Node
  next : Inode
  unshared : ∀ p q i, entry p = some i → entry q = some i → p = q
  used : ∀ p i, entry p = some i → i < next

namespace Disk

def empty : Disk where
  entry := fun _ => none
  node := fun _ => .absent
  next := 0
  unshared := by simp
  used := by simp

def files (d : Disk) : FileSystem := fun p =>
  match d.entry p with
  | none => .absent
  | some i => d.node i

theorem files_of_entry {d : Disk} {p : Path} {i : Inode} (h : d.entry p = some i) :
    d.files p = d.node i := by
  rw [files, h]

theorem files_of_none {d : Disk} {p : Path} (h : d.entry p = none) : d.files p = .absent := by
  rw [files, h]

def setNode (d : Disk) (i : Inode) (n : Node) : Disk :=
  { d with node := Function.update d.node i n }

@[simp]
theorem setNode_same (d : Disk) (i : Inode) (n : Node) : (d.setNode i n).node i = n := by
  simp [setNode]

theorem setNode_other (d : Disk) {i j : Inode} (n : Node) (h : j ≠ i) :
    (d.setNode i n).node j = d.node j := by
  simp [setNode, h]

theorem setNode_files {d : Disk} {p : Path} {i : Inode} (h : d.entry p = some i) (n : Node) :
    (d.setNode i n).files = d.files.set p n := by
  funext q
  by_cases hq : q = p
  · subst hq
    rw [FileSystem.set_same, files_of_entry (d := d.setNode i n) h, setNode_same]
  · rw [FileSystem.set_other _ _ hq]
    cases hentry : d.entry q with
    | none => rw [files_of_none hentry, files_of_none (d := d.setNode i n) hentry]
    | some j =>
        have hj : j ≠ i := by
          intro hj
          subst hj
          exact hq (d.unshared q p j hentry h)
        rw [files_of_entry hentry, files_of_entry (d := d.setNode i n) hentry, setNode_other _ _ hj]

/-- A new empty file under a path. -/
def create (d : Disk) (p : Path) : Disk where
  entry := Function.update d.entry p (some d.next)
  node := Function.update d.node d.next (.file [] true)
  next := d.next + 1
  unshared := by
    intro q r i hq hr
    have hfresh (q : Path) : d.entry q ≠ some d.next := fun h => Nat.lt_irrefl _ (d.used q _ h)
    by_cases hqp : q = p <;> by_cases hrp : r = p
    · rw [hqp, hrp]
    · rw [hqp, Function.update_self] at hq
      rw [Function.update_of_ne hrp, ← hq] at hr
      exact absurd hr (hfresh r)
    · rw [hrp, Function.update_self] at hr
      rw [Function.update_of_ne hqp, ← hr] at hq
      exact absurd hq (hfresh q)
    · rw [Function.update_of_ne hqp] at hq
      rw [Function.update_of_ne hrp] at hr
      exact d.unshared q r i hq hr
  used := by
    intro q i hq
    by_cases hqp : q = p
    · rw [hqp, Function.update_self] at hq
      cases hq
      exact Nat.lt_succ_self _
    · rw [Function.update_of_ne hqp] at hq
      exact (d.used q i hq).trans (Nat.lt_succ_self _)

def unlink (d : Disk) (p : Path) : Disk where
  entry := Function.update d.entry p none
  node := d.node
  next := d.next
  unshared := by
    intro q r i hq hr
    rw [Function.update_apply] at hq hr
    split at hq
    · cases hq
    · split at hr
      · cases hr
      · exact d.unshared q r i hq hr
  used := by
    intro q i hq
    rw [Function.update_apply] at hq
    split at hq
    · cases hq
    · exact d.used q i hq

/-- The file called `p` is called `q` from now on, and what was called `q` has no name. -/
def rename (d : Disk) (p q : Path) : Disk where
  entry := Function.update (d.unlink p).entry q (d.entry p)
  node := d.node
  next := d.next
  unshared := by
    intro x y i hx hy
    have hgone {z : Path} (hz : (d.unlink p).entry z = some i) : d.entry p ≠ some i := by
      intro hp
      have hentry := hz
      change Function.update d.entry p none z = some i at hentry
      by_cases hzp : z = p
      · rw [hzp, Function.update_self] at hentry
        cases hentry
      · rw [Function.update_of_ne hzp] at hentry
        exact hzp (d.unshared z p i hentry hp)
    by_cases hxq : x = q <;> by_cases hyq : y = q
    · rw [hxq, hyq]
    · rw [hxq, Function.update_self] at hx
      rw [Function.update_of_ne hyq] at hy
      exact absurd hx (hgone hy)
    · rw [hyq, Function.update_self] at hy
      rw [Function.update_of_ne hxq] at hx
      exact absurd hy (hgone hx)
    · rw [Function.update_of_ne hxq] at hx
      rw [Function.update_of_ne hyq] at hy
      exact (d.unlink p).unshared x y i hx hy
  used := by
    intro x i hx
    by_cases hxq : x = q
    · rw [hxq, Function.update_self] at hx
      exact d.used p i hx
    · rw [Function.update_of_ne hxq] at hx
      exact (d.unlink p).used x i hx

theorem unlink_entry_same (d : Disk) (p : Path) : (d.unlink p).entry p = none :=
  Function.update_self _ _ _

theorem unlink_entry_other (d : Disk) {p q : Path} (h : q ≠ p) :
    (d.unlink p).entry q = d.entry q :=
  Function.update_of_ne h _ _

theorem rename_entry_target (d : Disk) (p q : Path) : (d.rename p q).entry q = d.entry p :=
  Function.update_self _ _ _

theorem rename_entry_source (d : Disk) {p q : Path} (h : p ≠ q) : (d.rename p q).entry p = none :=
  (Function.update_of_ne h _ _).trans (d.unlink_entry_same p)

/-- Open for writing, truncated. It is assumed that who may not read a file may not write it either: one
that could be written only, as by a caller without the read permission, is taken not to open. -/
def truncate (d : Disk) (p : Path) : Option (Disk × Inode) :=
  match d.entry p with
  | none => some (d.create p, d.next)
  | some i =>
      match d.node i with
      | .file _ true => some (d.setNode i (.file [] true), i)
      | _ => none

/-- Bytes written at an offset; a gap before it is filled with zeros. -/
def overwrite (content : Bytes) (offset : Nat) (bytes : Bytes) : Bytes :=
  content.take offset ++ List.replicate (offset - content.length) 0 ++ bytes ++
    content.drop (offset + bytes.length)

def writeAt (d : Disk) (i : Inode) (offset : Nat) (bytes : Bytes) : Disk :=
  match d.node i with
  | .file content readable => d.setNode i (.file (overwrite content offset bytes) readable)
  | _ => d

theorem overwrite_end (content bytes : Bytes) :
    overwrite content content.length bytes = content ++ bytes := by
  simp [overwrite]

@[simp]
theorem writeAt_entry (d : Disk) (i : Inode) (offset : Nat) (bytes : Bytes) :
    (d.writeAt i offset bytes).entry = d.entry := by
  unfold writeAt
  split <;> rfl

@[simp]
theorem writeAt_next (d : Disk) (i : Inode) (offset : Nat) (bytes : Bytes) :
    (d.writeAt i offset bytes).next = d.next := by
  unfold writeAt
  split <;> rfl

theorem writeAt_other (d : Disk) {i j : Inode} (offset : Nat) (bytes : Bytes) (h : j ≠ i) :
    (d.writeAt i offset bytes).node j = d.node j := by
  unfold writeAt
  split
  · exact setNode_other _ _ h
  · rfl

theorem writeAt_end {d : Disk} {i : Inode} {content : Bytes} {readable : Bool}
    (h : d.node i = .file content readable) (bytes : Bytes) :
    d.writeAt i content.length bytes = d.setNode i (.file (content ++ bytes) readable) := by
  rw [writeAt, h]
  dsimp only
  rw [overwrite_end]

theorem writeAt_files_other (d : Disk) {i : Inode} (offset : Nat) (bytes : Bytes) {p : Path}
    (h : d.entry p ≠ some i) : (d.writeAt i offset bytes).files p = d.files p := by
  cases hentry : d.entry p with
  | none => rw [files_of_none hentry, files_of_none (by rw [writeAt_entry, hentry])]
  | some j =>
      have hj : j ≠ i := fun hj => h (hj ▸ hentry)
      rw [files_of_entry hentry, files_of_entry (by rw [writeAt_entry, hentry]),
        writeAt_other _ _ _ hj]

theorem create_files (d : Disk) (p : Path) :
    (d.create p).files = d.files.set p (.file [] true) := by
  funext q
  by_cases hq : q = p
  · subst hq
    have hentry : (d.create q).entry q = some d.next := Function.update_self _ _ _
    rw [FileSystem.set_same, files_of_entry hentry]
    exact Function.update_self _ _ _
  · have hentry : (d.create p).entry q = d.entry q := Function.update_of_ne hq _ _
    rw [FileSystem.set_other _ _ hq]
    cases hold : d.entry q with
    | none => rw [files_of_none hold, files_of_none (hentry.trans hold)]
    | some i =>
        have hi : i ≠ d.next := (d.used q i hold).ne
        rw [files_of_entry hold, files_of_entry (hentry.trans hold)]
        exact Function.update_of_ne hi _ _

theorem unlink_files (d : Disk) (p : Path) : (d.unlink p).files = d.files.set p .absent := by
  funext q
  by_cases hq : q = p
  · subst hq
    rw [FileSystem.set_same, files_of_none (d.unlink_entry_same q)]
  · rw [FileSystem.set_other _ _ hq, files, files, d.unlink_entry_other hq]
    rfl

theorem rename_files {d : Disk} {p q : Path} {i : Inode} (h : d.entry p = some i) (hne : q ≠ p) :
    (d.rename p q).files = (d.files.set p .absent).set q (d.node i) := by
  funext x
  by_cases hx : x = q
  · subst hx
    rw [FileSystem.set_same, files_of_entry ((d.rename_entry_target p x).trans h)]
    rfl
  · have hentry : (d.rename p q).entry x = (d.unlink p).entry x := Function.update_of_ne hx _ _
    rw [FileSystem.set_other _ _ hx, ← unlink_files, files, files, hentry]
    rfl

theorem truncate_spec {d d' : Disk} {p : Path} {i : Inode} (h : d.truncate p = some (d', i)) :
    d'.entry p = some i ∧ d'.node i = .file [] true ∧ d'.files = d.files.set p (.file [] true) ∧
      (∀ q, q ≠ p → d'.entry q = d.entry q) ∧ (∀ j, j ≠ i → d'.node j = d.node j) ∧
      (d.entry p = some i ∨ i = d.next) ∧ d.next ≤ d'.next := by
  unfold truncate at h
  split at h
  · next hentry =>
      cases h
      exact ⟨Function.update_self _ _ _, Function.update_self _ _ _, create_files d p,
        fun q hq => Function.update_of_ne hq _ _, fun j hj => Function.update_of_ne hj _ _,
        .inr rfl, Nat.le_succ _⟩
  · next j hentry =>
      split at h
      · cases h
        exact ⟨hentry, setNode_same _ _ _, setNode_files hentry _, fun _ _ => rfl,
          fun k hk => setNode_other _ _ hk, .inl hentry, le_rfl⟩
      · cases h

end Disk

end EdgeMind.Framework
