import EdgeMind.Framework.Cursor

/-!
# Traced readers over a stream

A stream has a position that nothing keeps inside its data: a read near the end returns fewer bytes
and a seek may go anywhere. A traced reader works on a stream and notes what it does; it follows a
reader over bounded cursors at a cursor if it returns the same there and every note is in order.
Following composes like the readers do, so a reader with its notes is compared with the one without
them piece by piece.
-/

namespace EdgeMind.Framework

structure FileStream where
  data : Bytes
  pos : Nat

def Cursor.stream (c : Cursor) : FileStream := ⟨c.data, c.pos⟩

/-- The notes, in order, and the result unless the reader fails. -/
def Traced (ε α : Type) : Type := FileStream → List ε × Option (α × FileStream)

namespace Traced

variable {ε α β γ : Type}

/-- Carry on behind a reader: with another result where it fails. -/
def andThen (p : Traced ε α) (failed : β) (k : α → FileStream → List ε × β) :
    FileStream → List ε × β := fun s =>
  match p s with
  | (notes, none) => (notes, failed)
  | (notes, some (a, s')) => (notes ++ (k a s').1, (k a s').2)

instance : Monad (Traced ε) where
  pure a := fun s => ([], some (a, s))
  bind p f := p.andThen none f

def record (e : ε) : Traced ε Unit := fun s => ([e], some ((), s))

def tellg : Traced ε Nat := fun s => ([], some (s.pos, s))

def fileSize : Traced ε Nat := fun s => ([], some (s.data.length, s))

def fail : Traced ε α := fun _ => ([], none)

/-- Fail unless the condition holds. -/
def require (b : Bool) : Traced ε Unit := if b then pure () else fail

def ofOption (o : Option α) : Traced ε α := fun s => ([], o.map fun a => (a, s))

def read (n : Nat) : Traced ε Bytes := fun s =>
  let got := (s.data.drop s.pos).take n
  ([], some (got, { s with pos := s.pos + got.length }))

def seekg (n : Nat) : Traced ε Unit := fun s => ([], some ((), { s with pos := s.pos + n }))

/-- Read a number of bytes and note the position the read leaves; fail if it came up short. -/
def readNoting (note : Nat → ε) (n : Nat) : Traced ε Bytes := do
  let got ← read n
  let pos ← tellg
  record (note pos)
  require (got.length = n)
  return got

def seekNoting (note : Nat → ε) (n : Nat) : Traced ε Unit := do
  seekg n
  let pos ← tellg
  record (note pos)

end Traced

/-- At the cursor the traced reader does what the other reader does, and its notes are in order for
a file of that size. -/
structure Follows {ε α : Type} (ok : Nat → ε → Prop) (p : Traced ε α) (q : Reader α) (c : Cursor) :
    Prop where
  notes : ∀ e ∈ (p c.stream).1, ok c.data.length e
  result : (p c.stream).2 = (q c).map fun r => (r.1, r.2.stream)
  data : ∀ a c', q c = some (a, c') → c'.data = c.data

namespace Follows

variable {ε α β : Type} {ok : Nat → ε → Prop} {p : Traced ε α} {q : Reader α} {c : Cursor}

theorem congr {r : Reader α} (h : Follows ok p q c) (heq : r c = q c) : Follows ok p r c where
  notes := h.notes
  result := by rw [heq, h.result]
  data := fun a c' hr => h.data a c' (heq ▸ hr)

theorem pure (a : α) : Follows ok (Pure.pure a) (Pure.pure a) c where
  notes := fun _ he => absurd he List.not_mem_nil
  result := rfl
  data := by
    intro b c' h
    cases h
    rfl

theorem run_none (h : Follows ok p q c) (hq : q c = none) :
    (p c.stream).2 = none := by
  rw [h.result, hq]
  rfl

theorem run_some (h : Follows ok p q c) {a : α} {c' : Cursor} (hq : q c = some (a, c')) :
    (p c.stream).2 = some (a, c'.stream) := by
  rw [h.result, hq]
  rfl

theorem andThen_none (h : Follows ok p q c) (hq : q c = none) {failed : β}
    {k : α → FileStream → List ε × β} :
    (∀ e ∈ (p.andThen failed k c.stream).1, ok c.data.length e) ∧
      (p.andThen failed k c.stream).2 = failed := by
  have hdef : p.andThen failed k c.stream = ((p c.stream).1, failed) := by
    rw [Traced.andThen]
    rcases hp : p c.stream with ⟨notes, _ | r⟩
    · rfl
    · cases (congrArg Prod.snd hp).symm.trans (h.run_none hq)
  rw [hdef]
  exact ⟨h.notes, rfl⟩

theorem andThen_some (h : Follows ok p q c) {a : α} {c' : Cursor} (hq : q c = some (a, c'))
    {failed r : β} {k : α → FileStream → List ε × β}
    (hk : (∀ e ∈ (k a c'.stream).1, ok c'.data.length e) ∧ (k a c'.stream).2 = r) :
    (∀ e ∈ (p.andThen failed k c.stream).1, ok c.data.length e) ∧
      (p.andThen failed k c.stream).2 = r := by
  have hdef : p.andThen failed k c.stream =
      ((p c.stream).1 ++ (k a c'.stream).1, (k a c'.stream).2) := by
    rw [Traced.andThen]
    rcases hp : p c.stream with ⟨notes, _ | r⟩
    · cases (congrArg Prod.snd hp).symm.trans (h.run_some hq)
    · cases (congrArg Prod.snd hp).symm.trans (h.run_some hq)
      rfl
  obtain ⟨hnotes, heq⟩ := hk
  rw [h.data a c' hq] at hnotes
  rw [hdef]
  exact ⟨List.forall_mem_append.mpr ⟨h.notes, hnotes⟩, heq⟩

theorem bind (h : Follows ok p q c) {f : α → Traced ε β} {g : α → Reader β}
    (hf : ∀ a c', q c = some (a, c') → Follows ok (f a) (g a) c') :
    Follows ok (p >>= f) (q >>= g) c := by
  have hbind : (q >>= g) c = (q c).bind fun r => g r.1 r.2 := rfl
  rcases hq : q c with _ | ⟨a, c'⟩
  · rw [hq, Option.bind_none] at hbind
    have hfailed : (∀ e ∈ (p.andThen none f c.stream).1, ok c.data.length e) ∧
        (p.andThen none f c.stream).2 = none := h.andThen_none hq
    obtain ⟨hnotes, hresult⟩ := hfailed
    refine ⟨hnotes, ?_, ?_⟩
    · rw [hbind]
      exact hresult
    · intro b c'' hb
      rw [hbind] at hb
      cases hb
  · rw [hq, Option.bind_some] at hbind
    have hnext : (∀ e ∈ (p.andThen none f c.stream).1, ok c.data.length e) ∧
        (p.andThen none f c.stream).2 = (f a c'.stream).2 :=
      h.andThen_some hq ⟨(hf a c' hq).notes, rfl⟩
    obtain ⟨hnotes, hresult⟩ := hnext
    refine ⟨hnotes, ?_, ?_⟩
    · rw [hbind]
      exact hresult.trans (hf a c' hq).result
    · intro b c'' hb
      rw [hbind] at hb
      exact ((hf a c' hq).data b c'' hb).trans (h.data a c' hq)

theorem map (h : Follows ok p q c) (f : α → β) : Follows ok (f <$> p) (f <$> q) c :=
  h.bind fun a _ _ => Follows.pure (f a)

theorem record {e : ε} {f : Unit → Traced ε β} {g : Reader β} (he : ok c.data.length e)
    (hf : Follows ok (f ()) g c) : Follows ok (Traced.record e >>= f) g c where
  notes := List.forall_mem_cons.mpr ⟨he, hf.notes⟩
  result := hf.result
  data := hf.data

theorem tellg {f : Nat → Traced ε β} {g : Reader β} (hf : Follows ok (f c.pos) g c) :
    Follows ok (Traced.tellg >>= f) g c :=
  ⟨hf.notes, hf.result, hf.data⟩

theorem fileSize {f : Nat → Traced ε β} {g : Reader β} (hf : Follows ok (f c.data.length) g c) :
    Follows ok (Traced.fileSize >>= f) g c :=
  ⟨hf.notes, hf.result, hf.data⟩

theorem fail : Follows ok (Traced.fail : Traced ε α) failure c where
  notes := fun _ he => absurd he List.not_mem_nil
  result := rfl
  data := by
    intro a c' h
    cases h

theorem require (b : Bool) : Follows ok (Traced.require b) (Reader.require b) c := by
  cases b with
  | false => exact fail
  | true => exact pure ()

theorem seq {f : Traced ε (α → β)} {g : Reader (α → β)} (hf : Follows ok f g c)
    (h : ∀ a c', g c = some (a, c') → Follows ok p q c') : Follows ok (f <*> p) (g <*> q) c := by
  rw [seq_eq_bind_map (f := g)]
  exact hf.bind fun a c' hg => (h a c' hg).map a

theorem guard {b : Bool} {f : Unit → Traced ε β} {g : Unit → Reader β}
    (hf : b = true → Follows ok (f ()) (g ()) c) :
    Follows ok (Traced.require b >>= f) (Reader.require b >>= g) c := by
  refine (require b).bind fun _ c' h => ?_
  cases b with
  | false => cases h
  | true =>
      cases h
      exact hf rfl

theorem ofOption (o : Option α) : Follows ok (Traced.ofOption o) (Reader.ofOption o) c := by
  cases o with
  | none => exact fail
  | some a => exact pure a

theorem readNoting {note : Nat → ε} (hnote : ∀ pos ≤ c.data.length, ok c.data.length (note pos))
    (n : Nat) : Follows ok (Traced.readNoting note n) (Reader.bytes n) c := by
  have hrest := c.rest_length
  have hle := c.le
  have hlen : (c.rest.take n).length = min n (c.data.length - c.pos) := by
    rw [List.length_take, hrest]
  have hrun : Traced.readNoting note n c.stream = ([note (c.pos + (c.rest.take n).length)],
      if (c.rest.take n).length = n then
        some (c.rest.take n, ⟨c.data, c.pos + (c.rest.take n).length⟩) else none) := by
    have hdef : Traced.readNoting note n c.stream =
        ((Traced.require ((c.rest.take n).length = n)).andThen none
          (fun _ s => ([], some (c.rest.take n, s)))
          ⟨c.data, c.pos + (c.rest.take n).length⟩).map
            (note (c.pos + (c.rest.take n).length) :: ·) id := rfl
    rw [hdef, Traced.andThen, Traced.require]
    by_cases h : (c.rest.take n).length = n
    · rw [decide_eq_true h, if_pos h]
      rfl
    · rw [decide_eq_false h, if_neg h]
      rfl
  refine ⟨?_, ?_, ?_⟩
  · rw [hrun]
    intro e he
    rw [List.mem_singleton.mp he]
    exact hnote _ (by omega)
  · rw [hrun, Reader.bytes, hlen]
    by_cases h : n ≤ c.data.length - c.pos
    · rw [dif_pos h, if_pos (by omega)]
      simp only [Option.map_some, Nat.min_eq_left h]
      rfl
    · rw [dif_neg h, if_neg (by omega)]
      rfl
  · intro a c' h
    rw [Reader.bytes] at h
    split at h
    · cases h
      rfl
    · cases h

theorem seekNoting {note : Nat → ε} {n : Nat} (hroom : c.pos + n ≤ c.data.length)
    (hnote : ok c.data.length (note (c.pos + n))) :
    Follows ok (Traced.seekNoting note n) ((fun _ => ()) <$> Reader.bytes n) c := by
  have hbytes : Reader.bytes n c = some (c.rest.take n, c.advance n (by omega)) :=
    dif_pos (by omega)
  have hskip : ((fun _ => ()) <$> Reader.bytes n : Reader Unit) c =
      (Reader.bytes n c).map fun r => ((), r.2) := by
    rw [hbytes]
    change (Reader.bytes n c).bind _ = _
    rw [hbytes]
    rfl
  refine ⟨?_, ?_, ?_⟩
  · intro e he
    rw [List.mem_singleton.mp he]
    exact hnote
  · rw [hskip, hbytes]
    rfl
  · intro a c' h
    rw [hskip, hbytes] at h
    cases h
    rfl

end Follows

end EdgeMind.Framework
