import EdgeMind.Framework.Bytes

/-!
# Bounded cursors and exact readers

A cursor is a position in a byte string that never passes its end. A reader consumes bytes at
the cursor or fails; it is *exact* for a language of tagged byte strings when it succeeds
precisely on the inputs that begin with a member of the language, returns the member's tag and
consumes the member. Exactness composes along sequencing, guards and bounded repetition, so the
language of a whole parser is read off its text.
-/

namespace EdgeMind.Framework

structure Cursor where
  data : Bytes
  pos : Nat
  le : pos ≤ data.length

namespace Cursor

def rest (c : Cursor) : Bytes := c.data.drop c.pos

def start (data : Bytes) : Cursor := ⟨data, 0, Nat.zero_le _⟩

@[simp]
theorem start_rest (data : Bytes) : (start data).rest = data := rfl

theorem rest_length (c : Cursor) : c.rest.length = c.data.length - c.pos := by
  simp [rest]

def advance (c : Cursor) (n : Nat) (h : n ≤ c.data.length - c.pos) : Cursor :=
  ⟨c.data, c.pos + n, by have := c.le; omega⟩

/-- Consuming `w` leads from the first cursor to the second. -/
def Consumes (c : Cursor) (w : Bytes) (c' : Cursor) : Prop :=
  c'.data = c.data ∧ c'.pos = c.pos + w.length ∧ c.rest = w ++ c'.rest

theorem ext_of {c c' : Cursor} (hd : c.data = c'.data) (hp : c.pos = c'.pos) : c = c' := by
  cases c; cases c'; simp_all

theorem advance_consumes (c : Cursor) (n : Nat) (h : n ≤ c.data.length - c.pos) :
    c.Consumes (c.rest.take n) (c.advance n h) := by
  have hlen : (c.rest.take n).length = n := by
    rw [List.length_take, rest_length]; omega
  refine ⟨rfl, ?_, ?_⟩
  · rw [hlen]; rfl
  · have hdrop : (c.advance n h).rest = c.rest.drop n := by
      simp [rest, advance, List.drop_drop]
    rw [hdrop, List.take_append_drop]

theorem consumes_nil_iff {c c' : Cursor} : c.Consumes [] c' ↔ c' = c := by
  constructor
  · intro h
    obtain ⟨hd, hp, _⟩ := h
    exact ext_of hd (by simpa using hp)
  · intro h
    subst h
    exact ⟨rfl, by simp, rfl⟩

theorem Consumes.trans {c c' c'' : Cursor} {u v : Bytes}
    (h : c.Consumes u c') (h' : c'.Consumes v c'') : c.Consumes (u ++ v) c'' := by
  refine ⟨h'.1.trans h.1, ?_, ?_⟩
  · rw [h'.2.1, h.2.1, List.length_append]; omega
  · rw [h.2.2, h'.2.2, List.append_assoc]

theorem Consumes.split {c c'' : Cursor} {u v : Bytes} (h : c.Consumes (u ++ v) c'') :
    ∃ c', c.Consumes u c' ∧ c'.Consumes v c'' := by
  obtain ⟨hd, hp, hr⟩ := h
  have hle := c''.le
  rw [List.length_append] at hp
  have hroom : u.length ≤ c.data.length - c.pos := by rw [hd] at hle; omega
  have hadv := c.advance_consumes u.length hroom
  have htake : c.rest.take u.length = u := by
    rw [hr, List.append_assoc, List.take_left']
    rfl
  rw [htake] at hadv
  refine ⟨_, hadv, hd, ?_, ?_⟩
  · rw [hp, hadv.2.1]; omega
  · apply (List.append_right_inj u).mp
    rw [← hadv.2.2, hr, List.append_assoc]

theorem Consumes.unique {c c' c'' : Cursor} {w : Bytes}
    (h : c.Consumes w c') (h' : c.Consumes w c'') : c' = c'' :=
  ext_of (h.1.trans h'.1.symm) (h.2.1.trans h'.2.1.symm)

theorem exists_consumes {c : Cursor} {w s : Bytes} (h : c.rest = w ++ s) :
    ∃ c', c.Consumes w c' ∧ c'.rest = s := by
  have hroom : w.length ≤ c.data.length - c.pos := by
    rw [← rest_length, h, List.length_append]; omega
  have hadv := c.advance_consumes w.length hroom
  rw [h, List.take_left' rfl] at hadv
  refine ⟨_, hadv, ?_⟩
  apply (List.append_right_inj w).mp
  rw [← hadv.2.2, h]

end Cursor

/-- A reader consumes bytes at the cursor and returns a value, or fails. -/
abbrev Reader := StateT Cursor Option

namespace Reader

variable {α β : Type}

/-- The reader succeeds exactly on the inputs that begin with a member of the language. -/
def Exact (p : Reader α) (L : α → Bytes → Prop) : Prop :=
  ∀ c a c', p c = some (a, c') ↔ ∃ w, L a w ∧ c.Consumes w c'

theorem Exact.congr {p : Reader α} {L M : α → Bytes → Prop} (h : Exact p L)
    (he : ∀ a w, L a w ↔ M a w) : Exact p M := by
  intro c a c'
  rw [h c a c']
  simp only [he]

theorem exact_pure (a : α) : Exact (pure a) fun b w => b = a ∧ w = [] := by
  intro c b c'
  have hp : (pure a : Reader α) c = some (a, c) := rfl
  rw [hp, Option.some.injEq, Prod.mk.injEq]
  constructor
  · intro h
    obtain ⟨rfl, rfl⟩ := h
    exact ⟨[], ⟨rfl, rfl⟩, Cursor.consumes_nil_iff.mpr rfl⟩
  · intro h
    obtain ⟨w, ⟨rfl, rfl⟩, hc⟩ := h
    exact ⟨rfl, (Cursor.consumes_nil_iff.mp hc).symm⟩

theorem exact_fail : Exact (failure : Reader α) fun _ _ => False := by
  intro c b c'
  have hp : (failure : Reader α) c = none := rfl
  simp [hp]

theorem Exact.bind {p : Reader α} {f : α → Reader β} {L : α → Bytes → Prop}
    {M : α → β → Bytes → Prop} (hp : Exact p L) (hf : ∀ a, Exact (f a) (M a)) :
    Exact (p >>= f) fun b w => ∃ a u v, L a u ∧ M a b v ∧ w = u ++ v := by
  intro c b c''
  have hb : (p >>= f) c = (p c).bind fun ac => f ac.1 ac.2 := rfl
  rw [hb, Option.bind_eq_some_iff]
  constructor
  · intro h
    obtain ⟨⟨a, c'⟩, h, h'⟩ := h
    obtain ⟨u, hu, hc⟩ := (hp c a c').mp h
    obtain ⟨v, hv, hc'⟩ := (hf a c' b c'').mp h'
    exact ⟨u ++ v, ⟨a, u, v, hu, hv, rfl⟩, hc.trans hc'⟩
  · intro h
    obtain ⟨w, ⟨a, u, v, hu, hv, rfl⟩, hc⟩ := h
    obtain ⟨c', h, h'⟩ := hc.split
    exact ⟨(a, c'), (hp c a c').mpr ⟨u, hu, h⟩, (hf a c' b c'').mpr ⟨v, hv, h'⟩⟩

theorem Exact.map {p : Reader α} {L : α → Bytes → Prop} (hp : Exact p L) (f : α → β) :
    Exact (f <$> p) fun b w => ∃ a, b = f a ∧ L a w := by
  have hm : f <$> p = p >>= fun a => pure (f a) := rfl
  rw [hm]
  refine (hp.bind fun a => exact_pure (f a)).congr ?_
  intro b w
  constructor
  · intro h
    obtain ⟨a, u, v, hu, ⟨rfl, rfl⟩, rfl⟩ := h
    exact ⟨a, rfl, by simpa using hu⟩
  · intro h
    obtain ⟨a, rfl, hw⟩ := h
    exact ⟨a, w, [], hw, ⟨rfl, rfl⟩, by simp⟩

/-- Fail unless the condition holds. -/
def require (b : Bool) : Reader Unit := if b then pure () else failure

theorem exact_require (b : Bool) : Exact (require b) fun _ w => b = true ∧ w = [] := by
  cases b
  · exact exact_fail.congr (by simp)
  · exact (exact_pure ()).congr (by simp)

theorem Exact.guard {b : Bool} {p : Reader α} {L : α → Bytes → Prop}
    (hp : b = true → Exact p L) :
    Exact (require b >>= fun _ => p) fun a w => b = true ∧ L a w := by
  cases b with
  | false => exact exact_fail.congr (by simp)
  | true => exact (hp rfl).congr (by simp)

def ofOption (o : Option α) : Reader α := fun c => o.map fun a => (a, c)

theorem exact_ofOption (o : Option α) : Exact (ofOption o) fun a w => o = some a ∧ w = [] := by
  cases o with
  | none => exact exact_fail.congr (by simp)
  | some a => exact (exact_pure a).congr (by simp [eq_comm])

/-- `n` bytes, returned. -/
def bytes (n : Nat) : Reader Bytes := fun c =>
  if h : n ≤ c.data.length - c.pos then some (c.rest.take n, c.advance n h) else none

theorem exact_bytes (n : Nat) : Exact (bytes n) fun a w => a = w ∧ w.length = n := by
  intro c a c'
  unfold bytes
  constructor
  · intro h
    split at h
    · rename_i hn
      simp only [Option.some.injEq, Prod.mk.injEq] at h
      obtain ⟨rfl, rfl⟩ := h
      refine ⟨_, ⟨rfl, ?_⟩, c.advance_consumes n hn⟩
      rw [List.length_take, Cursor.rest_length]; omega
    · simp at h
  · intro h
    obtain ⟨w, ⟨rfl, hlen⟩, hc⟩ := h
    have hroom : n ≤ c.data.length - c.pos := by
      rw [← Cursor.rest_length, hc.2.2, List.length_append]; omega
    have htake : c.rest.take n = a := by rw [hc.2.2, List.take_left' hlen]
    have hadv := c.advance_consumes n hroom
    rw [htake] at hadv
    rw [dif_pos hroom, htake, hadv.unique hc]

/-- Run a reader a given number of times for its effect on the cursor. -/
def times (p : Reader Unit) : Nat → Reader Unit
  | 0 => pure ()
  | n + 1 => p >>= fun _ => times p n

/-- Concatenations of `n` members of a language. -/
def Repeat (L : Bytes → Prop) : Nat → Bytes → Prop
  | 0, w => w = []
  | n + 1, w => ∃ u v, L u ∧ Repeat L n v ∧ w = u ++ v

theorem exact_times {p : Reader Unit} {L : Bytes → Prop} (hp : Exact p fun _ w => L w) (n : Nat) :
    Exact (times p n) fun _ w => Repeat L n w := by
  induction n with
  | zero => exact (exact_pure ()).congr (by simp [Repeat])
  | succ n ih =>
      refine (hp.bind fun _ => ih).congr ?_
      intro _ w
      constructor
      · intro h
        obtain ⟨_, u, v, hu, hv, rfl⟩ := h
        exact ⟨u, v, hu, hv, rfl⟩
      · intro h
        obtain ⟨u, v, hu, hv, rfl⟩ := h
        exact ⟨(), u, v, hu, hv, rfl⟩

theorem repeat_width (k n : Nat) (w : Bytes) :
    Repeat (fun u => u.length = k) n w ↔ w.length = k * n := by
  induction n generalizing w with
  | zero => simp [Repeat, List.length_eq_zero_iff]
  | succ n ih =>
      constructor
      · intro h
        obtain ⟨u, v, hu, hv, rfl⟩ := h
        rw [List.length_append, hu, (ih v).mp hv, Nat.mul_succ]
        omega
      · intro h
        have hw : k ≤ w.length := by rw [h, Nat.mul_succ]; omega
        refine ⟨w.take k, w.drop k, by simp [hw], (ih _).mpr ?_, (List.take_append_drop k w).symm⟩
        rw [List.length_drop, h, Nat.mul_succ]
        omega

end Reader

end EdgeMind.Framework
