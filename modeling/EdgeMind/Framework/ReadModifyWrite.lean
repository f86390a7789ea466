import Mathlib.Data.List.Induction

/-!
# Two clients that read, modify and write

Two clients each load the whole content of a store and later save what they made of it. Whatever the
order, the content at the end has the update of the client that saved last; it has the other update
beneath it exactly if that client loaded after the other had saved.
-/

namespace EdgeMind.Framework

inductive Client
  | first
  | second
deriving DecidableEq

def Client.other : Client → Client
  | .first => .second
  | .second => .first

theorem Client.eq_or_eq_other (c p : Client) : c = p ∨ c = p.other := by
  cases c <;> cases p <;> simp [other]

@[simp]
theorem Client.other_ne (p : Client) : p.other ≠ p := by
  cases p <;> nofun

@[simp]
theorem Client.other_other (p : Client) : p.other.other = p := by
  cases p <;> rfl

inductive Access
  | loads (c : Client)
  | saves (c : Client)
deriving DecidableEq

inductive Turn (σ : Type*)
  | idle
  | loaded (snapshot : σ)
  | done

structure SharedStore (κ σ : Type*) where
  content : κ
  phase : Client → Turn σ

namespace SharedStore

variable {κ σ : Type*} (load : κ → σ) (save : Client → σ → κ → κ)

def start (content : κ) : SharedStore κ σ := ⟨content, fun _ => .idle⟩

/-- A client loads once and saves once, in this order; the save sees the content of its moment, but
what it makes of it depends on what was loaded. -/
def step (t : SharedStore κ σ) : Access → Option (SharedStore κ σ)
  | .loads c =>
      match t.phase c with
      | .idle => some ⟨t.content, Function.update t.phase c (.loaded (load t.content))⟩
      | _ => none
  | .saves c =>
      match t.phase c with
      | .loaded snapshot => some ⟨save c snapshot t.content, Function.update t.phase c .done⟩
      | _ => none

def run (t : SharedStore κ σ) (accesses : List Access) : Option (SharedStore κ σ) :=
  accesses.foldlM (step load save) t

theorem step_loads {t t' : SharedStore κ σ} {c : Client}
    (h : step load save t (.loads c) = some t') :
    t.phase c = .idle ∧ t'.content = t.content ∧ t'.phase c = .loaded (load t.content) ∧
      t'.phase c.other = t.phase c.other := by
  unfold step at h
  dsimp only at h
  split at h
  · next hphase =>
      cases h
      exact ⟨hphase, rfl, Function.update_self .., Function.update_of_ne (Client.other_ne c) ..⟩
  · cases h

theorem step_saves {t t' : SharedStore κ σ} {c : Client}
    (h : step load save t (.saves c) = some t') :
    ∃ snapshot, t.phase c = .loaded snapshot ∧ t'.content = save c snapshot t.content ∧
      t'.phase c = .done ∧ t'.phase c.other = t.phase c.other := by
  unfold step at h
  dsimp only at h
  split at h
  · next snapshot hphase =>
      cases h
      exact ⟨snapshot, hphase, rfl, Function.update_self ..,
        Function.update_of_ne (Client.other_ne c) ..⟩
  · cases h

/-- A save leaves the update of what was loaded, for the contents of which some property is kept. -/
structure Writes (Good : σ → Prop) (update : Client → σ → σ) : Prop where
  load_save : ∀ c snapshot content, Good snapshot →
    load (save c snapshot content) = update c snapshot
  good : ∀ c snapshot, Good snapshot → Good (update c snapshot)

variable (update : Client → σ → σ) (s : σ)

/-- The orders of the steps, with the content and the phases they lead to. -/
inductive Reached : List Access → SharedStore κ σ → Prop
  | idle {t} (hcontent : load t.content = s) (hphase : ∀ c, t.phase c = .idle) : Reached [] t
  | loaded {t} (p) (hcontent : load t.content = s) (hp : t.phase p = .loaded s)
      (hother : t.phase p.other = .idle) : Reached [.loads p] t
  | saved {t} (p) (hcontent : load t.content = update p s) (hp : t.phase p = .done)
      (hother : t.phase p.other = .idle) : Reached [.loads p, .saves p] t
  | next {t} (p) (hcontent : load t.content = update p s) (hp : t.phase p = .done)
      (hother : t.phase p.other = .loaded (update p s)) :
      Reached [.loads p, .saves p, .loads p.other] t
  | serial {t} (p) (hcontent : load t.content = update p.other (update p s))
      (hphase : ∀ c, t.phase c = .done) :
      Reached [.loads p, .saves p, .loads p.other, .saves p.other] t
  | both {t} (p) (hcontent : load t.content = s) (hphase : ∀ c, t.phase c = .loaded s) :
      Reached [.loads p, .loads p.other] t
  | bothSaved {t} (p q) (hcontent : load t.content = update q s) (hq : t.phase q = .done)
      (hother : t.phase q.other = .loaded s) : Reached [.loads p, .loads p.other, .saves q] t
  | overlapped {t} (p q) (hcontent : load t.content = update q.other s)
      (hphase : ∀ c, t.phase c = .done) :
      Reached [.loads p, .loads p.other, .saves q, .saves q.other] t

variable {load save update s}

private theorem forall_client {P : Client → Prop} {p : Client} (hp : P p) (hother : P p.other)
    (c : Client) : P c := by
  rcases c.eq_or_eq_other p with rfl | rfl
  · exact hp
  · exact hother

theorem Reached.loads {accesses : List Access} {t t' : SharedStore κ σ} {c : Client}
    (h : Reached load update s accesses t) (hstep : step load save t (.loads c) = some t') :
    Reached load update s (accesses ++ [.loads c]) t' := by
  obtain ⟨hidle, hsame, hc, hother'⟩ := step_loads load save hstep
  have hcontent' : load t'.content = load t.content := congrArg load hsame
  cases h with
  | idle hcontent hphase =>
      rw [hcontent] at hcontent' hc
      exact .loaded c hcontent' hc (hother'.trans (hphase _))
  | loaded p hcontent hp hother =>
      rcases c.eq_or_eq_other p with rfl | rfl
      · rw [hp] at hidle
        cases hidle
      · rw [hcontent] at hcontent' hc
        rw [Client.other_other, hp] at hother'
        exact .both p hcontent' (forall_client hother' hc)
  | saved p hcontent hp hother =>
      rcases c.eq_or_eq_other p with rfl | rfl
      · rw [hp] at hidle
        cases hidle
      · rw [hcontent] at hcontent' hc
        rw [Client.other_other, hp] at hother'
        exact .next p hcontent' hother' hc
  | next p hcontent hp hother =>
      rcases c.eq_or_eq_other p with rfl | rfl
      · rw [hp] at hidle
        cases hidle
      · rw [hother] at hidle
        cases hidle
  | bothSaved p q hcontent hq hother =>
      rcases c.eq_or_eq_other q with rfl | rfl
      · rw [hq] at hidle
        cases hidle
      · rw [hother] at hidle
        cases hidle
  | both p hcontent hphase =>
      rw [hphase] at hidle
      cases hidle
  | serial p hcontent hphase | overlapped p q hcontent hphase =>
      rw [hphase] at hidle
      cases hidle

variable {Good : σ → Prop}

theorem Reached.saves (hwrites : Writes load save Good update) (hs : Good s)
    {accesses : List Access} {t t' : SharedStore κ σ} {c : Client}
    (h : Reached load update s accesses t) (hstep : step load save t (.saves c) = some t') :
    Reached load update s (accesses ++ [.saves c]) t' := by
  obtain ⟨snapshot, hloaded, hsaved, hc, hother'⟩ := step_saves load save hstep
  have hcontent' (hgood : Good snapshot) : load t'.content = update c snapshot := by
    rw [hsaved]
    exact hwrites.load_save c snapshot t.content hgood
  cases h with
  | idle hcontent hphase =>
      rw [hphase] at hloaded
      cases hloaded
  | loaded p hcontent hp hother =>
      rcases c.eq_or_eq_other p with rfl | rfl
      · rw [hp] at hloaded
        cases hloaded
        exact .saved c (hcontent' hs) hc (hother'.trans hother)
      · rw [hother] at hloaded
        cases hloaded
  | saved p hcontent hp hother =>
      rcases c.eq_or_eq_other p with rfl | rfl
      · rw [hp] at hloaded
        cases hloaded
      · rw [hother] at hloaded
        cases hloaded
  | next p hcontent hp hother =>
      rcases c.eq_or_eq_other p with rfl | rfl
      · rw [hp] at hloaded
        cases hloaded
      · rw [hother] at hloaded
        cases hloaded
        rw [Client.other_other, hp] at hother'
        exact .serial p (hcontent' (hwrites.good p s hs)) (forall_client hother' hc)
  | both p hcontent hphase =>
      rw [hphase] at hloaded
      cases hloaded
      exact .bothSaved p c (hcontent' hs) hc (hother'.trans (hphase _))
  | bothSaved p q hcontent hq hother =>
      rcases c.eq_or_eq_other q with rfl | rfl
      · rw [hq] at hloaded
        cases hloaded
      · rw [hother] at hloaded
        cases hloaded
        rw [Client.other_other, hq] at hother'
        exact .overlapped p q (hcontent' hs) (forall_client hother' hc)
  | serial p hcontent hphase | overlapped p q hcontent hphase =>
      rw [hphase] at hloaded
      cases hloaded

theorem run_reached (hwrites : Writes load save Good update) {content : κ}
    (hgood : Good (load content)) {accesses : List Access} {t : SharedStore κ σ}
    (h : run load save (start content) accesses = some t) :
    Reached load update (load content) accesses t := by
  induction accesses using List.reverseRecOn generalizing t with
  | nil =>
      cases h
      exact .idle rfl fun _ => rfl
  | append_singleton accesses a ih =>
      rw [run, List.foldlM_append, Option.bind_eq_bind, Option.bind_eq_some_iff] at h
      obtain ⟨t', hrun, hstep⟩ := h
      simp only [List.foldlM_cons, List.foldlM_nil, bind_pure] at hstep
      cases a with
      | loads c => exact (ih hrun).loads hstep
      | saves c => exact (ih hrun).saves hwrites hgood hstep

/-- The client saved, and only then did the other load. -/
def serially (p : Client) : List Access := [.loads p, .saves p, .loads p.other, .saves p.other]

/-- When both are done, the content has the update of the client that saved last, on top of the
other's if that had saved when it loaded, and on the content at the start otherwise. -/
theorem run_complete (hwrites : Writes load save Good update) {content : κ}
    (hgood : Good (load content)) {accesses : List Access} {t : SharedStore κ σ}
    (h : run load save (start content) accesses = some t) (hdone : ∀ c, t.phase c = .done) :
    ∃ p : Client, accesses.getLast? = some (.saves p.other) ∧
      load t.content = if accesses = serially p then update p.other (update p (load content))
        else update p.other (load content) := by
  cases run_reached hwrites hgood h with
  | idle hcontent hphase => cases (hphase .first).symm.trans (hdone .first)
  | loaded p hcontent hp hother => cases hp.symm.trans (hdone p)
  | saved p hcontent hp hother => cases hother.symm.trans (hdone p.other)
  | next p hcontent hp hother => cases hother.symm.trans (hdone p.other)
  | serial p hcontent hphase => exact ⟨p, rfl, hcontent.trans (if_pos rfl).symm⟩
  | both p hcontent hphase => cases (hphase p).symm.trans (hdone p)
  | bothSaved p q hcontent hq hother => cases hother.symm.trans (hdone q.other)
  | overlapped p q hcontent hphase =>
      exact ⟨q, rfl, hcontent.trans (if_neg (by simp [serially])).symm⟩

end SharedStore

end EdgeMind.Framework
