import EdgeMind.Framework.Run
import Mathlib.Data.List.Induction

/-!
# Threads under one lock

Threads take a lock, run a section of code on a shared state in many small steps, and let go of the
lock. Under any interleaving the shared state and the results are those of the sections run one after
the other, in the order in which they got the lock; and what holds throughout every section holds at
every moment of the interleaving.
-/

namespace EdgeMind.Framework

/-- The rest of a section: its result, or an access to the shared state and what follows, which
depends on the state as it was before the access. -/
inductive Locked (σ α : Type) : Type
  | done (result : α)
  | access (update : σ → σ) (next : σ → Locked σ α)

namespace Locked

variable {σ α β : Type}

def bind : Locked σ α → (α → Locked σ β) → Locked σ β
  | done a, f => f a
  | access update next, f => access update fun s => (next s).bind f

instance : Monad (Locked σ) where
  pure := done
  bind := bind

def read (f : σ → α) : Locked σ α := access id fun s => done (f s)

def modify (f : σ → σ) : Locked σ Unit := access f fun _ => done ()

def exec : Locked σ α → σ → σ × α
  | done a, s => (s, a)
  | access update next, s => (next s).exec (update s)

/-- A property of the shared state that holds at every moment of a section. -/
def Always (I : σ → Prop) : Locked σ α → σ → Prop
  | done _, s => I s
  | access update next, s => I s ∧ (next s).Always I (update s)

variable {I : σ → Prop}

theorem Always.before {p : Locked σ α} {s : σ} (h : p.Always I s) : I s := by
  cases p with
  | done a => exact h
  | access update next => exact h.1

/-- A section keeps `I` at every moment, and `Q` holds of the state and the result at its end. -/
structure Ensures (I : σ → Prop) (p : Locked σ α) (s : σ) (Q : σ → α → Prop) : Prop where
  always : p.Always I s
  after : Q (p.exec s).1 (p.exec s).2

namespace Ensures

variable {s : σ}

theorem pure {a : α} {Q : σ → α → Prop} (hs : I s) (h : Q s a) :
    Ensures I (Pure.pure a) s Q := ⟨hs, h⟩

theorem read {f : σ → α} {Q : σ → α → Prop} (hs : I s) (h : Q s (f s)) :
    Ensures I (Locked.read f) s Q := ⟨⟨hs, hs⟩, h⟩

theorem modify {f : σ → σ} {Q : σ → Unit → Prop} (hs : I s) (hfs : I (f s)) (h : Q (f s) ()) :
    Ensures I (Locked.modify f) s Q := ⟨⟨hs, hfs⟩, h⟩

theorem bind {p : Locked σ α} {f : α → Locked σ β} {Q : σ → β → Prop}
    (h : Ensures I p s fun s' a => Ensures I (f a) s' Q) : Ensures I (p >>= f) s Q := by
  change Ensures I (p.bind f) s Q
  induction p generalizing s with
  | done a => exact h.after
  | access update next ih =>
      obtain ⟨hs, hnext⟩ := h.always
      have hrest := ih s ⟨hnext, h.after⟩
      exact ⟨⟨hs, hrest.always⟩, hrest.after⟩

theorem imp {p : Locked σ α} {Q R : σ → α → Prop} (h : Ensures I p s Q)
    (hQR : ∀ s a, Q s a → R s a) : Ensures I p s R := ⟨h.always, hQR _ _ h.after⟩

end Ensures

inductive Leads (p : Locked σ α) (s : σ) : Locked σ α → σ → Prop
  | start : Leads p s p s
  | access {update : σ → σ} {next : σ → Locked σ α} {s' : σ}
      (h : Leads p s (.access update next) s') : Leads p s (next s') (update s')

theorem Leads.exec_eq {p q : Locked σ α} {s s' : σ} (h : Leads p s q s') :
    q.exec s' = p.exec s := by
  induction h with
  | start => rfl
  | access _ ih => exact ih

theorem Leads.always {p q : Locked σ α} {s s' : σ} (h : Leads p s q s') (hp : p.Always I s) :
    q.Always I s' := by
  induction h with
  | start => exact hp
  | access _ ih => exact ih.2

end Locked

/-- What a job does: a glance reads the shared state once without the lock, any other job has a
section. -/
structure Service (σ Job ω : Type) where
  glance : Job → Option (σ → ω)
  work : Job → Locked σ ω

inductive Place (σ Job ω : Type)
  | idle
  | waiting (job : Job)
  | inside (job : Job) (rest : Locked σ ω)

/-- The threads at the lock. What has entered a section, what was returned from one and what a glance
has told are recorded in order. -/
structure Threads (Thread σ Job ω : Type) where
  shared : σ
  phase : Thread → Place σ Job ω
  holder : Option Thread
  entered : List (Thread × Job)
  returned : List (Thread × ω)
  glanced : List (Job × ω)

/-- A step of a thread. -/
inductive Turns (Thread Job : Type)
  | glance (t : Thread) (job : Job)
  | arrive (t : Thread) (job : Job)
  | acquire (t : Thread)
  | access (t : Thread)
  | release (t : Thread)

namespace Threads

variable {Thread σ Job ω : Type}

def start (s : σ) : Threads Thread σ Job ω where
  shared := s
  phase _ := .idle
  holder := none
  entered := []
  returned := []
  glanced := []

section Serve

variable (service : Service σ Job ω)

def serve (s : σ) (i : Thread × Job) : σ × (Thread × ω) :=
  (((service.work i.2).exec s).1, i.1, ((service.work i.2).exec s).2)

def outputs (s : σ) (jobs : List (Thread × Job)) : List (Thread × ω) :=
  (trace (serve service) s jobs).map Entry.output

theorem outputs_concat (s : σ) (jobs : List (Thread × Job)) (i : Thread × Job) :
    outputs service s (jobs ++ [i]) =
      outputs service s jobs ++ [(serve service (final (serve service) s jobs) i).2] := by
  induction jobs generalizing s with
  | nil => rfl
  | cons j jobs ih => exact congrArg (_ :: ·) (ih (serve service s j).1)

end Serve

section Step

variable [DecidableEq Thread] (service : Service σ Job ω)

def step (m : Threads Thread σ Job ω) : Turns Thread Job → Option (Threads Thread σ Job ω)
  | .glance t job =>
      match m.phase t, service.glance job with
      | .idle, some look => some { m with glanced := m.glanced ++ [(job, look m.shared)] }
      | _, _ => none
  | .arrive t job =>
      match m.phase t, service.glance job with
      | .idle, none => some { m with phase := Function.update m.phase t (.waiting job) }
      | _, _ => none
  | .acquire t =>
      match m.phase t, m.holder with
      | .waiting job, none => some { m with
          phase := Function.update m.phase t (.inside job (service.work job))
          holder := some t
          entered := m.entered ++ [(t, job)] }
      | _, _ => none
  | .access t =>
      match m.phase t with
      | .inside job (.access update next) => some { m with
          shared := update m.shared
          phase := Function.update m.phase t (.inside job (next m.shared)) }
      | _ => none
  | .release t =>
      match m.phase t with
      | .inside _ (.done result) => some { m with
          phase := Function.update m.phase t .idle
          holder := none
          returned := m.returned ++ [(t, result)] }
      | _ => none

def run (m : Threads Thread σ Job ω) (turns : List (Turns Thread Job)) :
    Option (Threads Thread σ Job ω) :=
  turns.foldlM (step service) m

end Step

def finished (m : Threads Thread σ Job ω) : List (Thread × Job) :=
  if m.holder = none then m.entered else m.entered.dropLast

/-- While the lock is free, the state and the results are those of serving the jobs one after the
other; while it is held, the holder is on its way through its section and nobody else is in one. -/
structure Serial (service : Service σ Job ω) (s : σ) (m : Threads Thread σ Job ω) : Prop where
  holder : ∀ t job rest, m.phase t = .inside job rest → m.holder = some t
  free : m.holder = none →
    m.shared = final (serve service) s m.entered ∧ m.returned = outputs service s m.entered
  held : ∀ t, m.holder = some t → ∃ past job rest, m.entered = past ++ [(t, job)] ∧
    m.phase t = .inside job rest ∧
    (service.work job).Leads (final (serve service) s past) rest m.shared ∧
    m.returned = outputs service s past

variable {service : Service σ Job ω} {s : σ} {m m' : Threads Thread σ Job ω}

theorem Serial.start : Serial service s (start s : Threads Thread σ Job ω) where
  holder _ _ _ h := by cases h
  free _ := ⟨rfl, rfl⟩
  held _ h := by cases h

theorem Serial.returned (h : Serial service s m) :
    m.returned = outputs service s m.finished := by
  unfold finished
  cases hholder : m.holder with
  | none => exact (h.free hholder).2
  | some t =>
      obtain ⟨past, job, rest, hentered, -, -, hreturned⟩ := h.held t hholder
      rw [hreturned, hentered, if_neg (Option.some_ne_none t), List.dropLast_concat]

/-- `J` holds whenever the lock is free, `I` at every moment. -/
structure Guards (service : Service σ Job ω) (J I : σ → Prop) : Prop where
  free : ∀ s, J s → I s
  always : ∀ job s, J s → (service.work job).Always I s
  exec : ∀ job s, J s → J ((service.work job).exec s).1

theorem Guards.final {J I : σ → Prop} (hguards : Guards service J I) (h : J s)
    (jobs : List (Thread × Job)) : J (final (serve service) s jobs) :=
  final_invariant J (fun _ => True) (fun s i _ hs => hguards.exec i.2 s hs) h fun _ _ => trivial

variable [DecidableEq Thread]

private theorem inside_update {phase : Thread → Place σ Job ω} {t u : Thread} {p : Place σ Job ω}
    {job : Job} {rest : Locked σ ω} (h : Function.update phase t p u = .inside job rest) :
    (u = t ∧ p = .inside job rest) ∨ (u ≠ t ∧ phase u = .inside job rest) := by
  rcases eq_or_ne u t with rfl | hne
  · rw [Function.update_self] at h
    exact .inl ⟨rfl, h⟩
  · rw [Function.update_of_ne hne] at h
    exact .inr ⟨hne, h⟩

theorem Serial.glance (h : Serial service s m) {t : Thread} {job : Job}
    (hstep : step service m (.glance t job) = some m') : Serial service s m' := by
  unfold step at hstep
  dsimp only at hstep
  split at hstep
  · cases hstep
    exact ⟨h.holder, h.free, h.held⟩
  · cases hstep

theorem Serial.arrive (h : Serial service s m) {t : Thread} {job : Job}
    (hstep : step service m (.arrive t job) = some m') : Serial service s m' := by
  unfold step at hstep
  dsimp only at hstep
  split at hstep
  · next hidle _ =>
      cases hstep
      refine ⟨fun u j rest hu => ?_, h.free, fun u hu => ?_⟩
      · rcases inside_update hu with ⟨-, hu⟩ | ⟨-, hu⟩
        · cases hu
        · exact h.holder u j rest hu
      · obtain ⟨past, j, rest, hentered, hphase, hleads⟩ := h.held u hu
        have hne : u ≠ t := by
          rintro rfl
          cases hidle.symm.trans hphase
        exact ⟨past, j, rest, hentered, (Function.update_of_ne hne ..).trans hphase, hleads⟩
  · cases hstep

theorem Serial.acquire (h : Serial service s m) {t : Thread}
    (hstep : step service m (.acquire t) = some m') : Serial service s m' := by
  unfold step at hstep
  dsimp only at hstep
  split at hstep
  · next job hwaiting hfree =>
      cases hstep
      obtain ⟨hshared, hreturned⟩ := h.free hfree
      refine ⟨fun u j rest hu => ?_, nofun, fun u hu => ?_⟩
      · rcases inside_update hu with ⟨rfl, -⟩ | ⟨-, hu⟩
        · rfl
        · cases hfree.symm.trans (h.holder u j rest hu)
      · obtain rfl := Option.some.inj hu
        refine ⟨m.entered, job, service.work job, rfl, Function.update_self .., ?_, hreturned⟩
        rw [← hshared]
        exact .start
  · cases hstep

theorem Serial.access (h : Serial service s m) {t : Thread}
    (hstep : step service m (.access t) = some m') : Serial service s m' := by
  unfold step at hstep
  dsimp only at hstep
  split at hstep
  · next job update next hinside =>
      cases hstep
      have hholder := h.holder t _ _ hinside
      obtain ⟨past, j, rest, hentered, hphase, hleads, hreturned⟩ := h.held t hholder
      cases hinside.symm.trans hphase
      refine ⟨fun u j rest hu => ?_, fun hnone => ?_, fun u hu => ?_⟩
      · rcases inside_update hu with ⟨rfl, -⟩ | ⟨-, hu⟩
        · exact hholder
        · exact h.holder u j rest hu
      · cases hholder.symm.trans hnone
      · obtain rfl := Option.some.inj (hholder.symm.trans hu)
        exact ⟨past, job, _, hentered, Function.update_self .., hleads.access, hreturned⟩
  · cases hstep

theorem Serial.release (h : Serial service s m) {t : Thread}
    (hstep : step service m (.release t) = some m') : Serial service s m' := by
  unfold step at hstep
  dsimp only at hstep
  split at hstep
  · next job result hinside =>
      cases hstep
      have hholder := h.holder t _ _ hinside
      obtain ⟨past, j, rest, hentered, hphase, hleads, hreturned⟩ := h.held t hholder
      cases hinside.symm.trans hphase
      have hexec : (m.shared, result) =
          (service.work job).exec (final (serve service) s past) := hleads.exec_eq
      refine ⟨fun u j rest hu => ?_, fun _ => ⟨?_, ?_⟩, nofun⟩
      · rcases inside_update hu with ⟨-, hu⟩ | ⟨hne, hu⟩
        · cases hu
        · exact absurd (Option.some.inj ((h.holder u j rest hu).symm.trans hholder)) hne
      · change m.shared = _
        rw [hentered, final_append]
        exact congrArg Prod.fst hexec
      · change m.returned ++ _ = _
        rw [hentered, outputs_concat, hreturned]
        exact congrArg (fun r => outputs service s past ++ [(t, r)]) (congrArg Prod.snd hexec)
  · cases hstep

theorem run_concat {turns : List (Turns Thread Job)} {turn : Turns Thread Job}
    (h : run service m (turns ++ [turn]) = some m') :
    ∃ before, run service m turns = some before ∧ step service before turn = some m' := by
  rw [run, List.foldlM_append, Option.bind_eq_bind, Option.bind_eq_some_iff] at h
  obtain ⟨before, hrun, hstep⟩ := h
  simp only [List.foldlM_cons, List.foldlM_nil, bind_pure] at hstep
  exact ⟨before, hrun, hstep⟩

/-- The order in which the lock was got does not change later. -/
theorem run_entered {turns : List (Turns Thread Job)} (h : run service m turns = some m') :
    m.entered <+: m'.entered := by
  induction turns using List.reverseRecOn generalizing m' with
  | nil =>
      cases h
      exact List.prefix_rfl
  | append_singleton turns turn ih =>
      obtain ⟨before, hrun, hstep⟩ := run_concat h
      have hgrows : before.entered <+: m'.entered := by
        cases turn with
        | acquire t =>
            unfold step at hstep
            dsimp only at hstep
            split at hstep
            · cases hstep
              exact List.prefix_append _ _
            · cases hstep
        | _ =>
            unfold step at hstep
            dsimp only at hstep
            split at hstep
            · cases hstep
              exact List.prefix_rfl
            · cases hstep
      exact (ih hrun).trans hgrows

theorem run_serial {turns : List (Turns Thread Job)}
    (h : run service (start s) turns = some m) : Serial service s m := by
  induction turns using List.reverseRecOn generalizing m with
  | nil =>
      cases h
      exact .start
  | append_singleton turns turn ih =>
      obtain ⟨before, hrun, hstep⟩ := run_concat h
      cases turn with
      | glance t job => exact (ih hrun).glance hstep
      | arrive t job => exact (ih hrun).arrive hstep
      | acquire t => exact (ih hrun).acquire hstep
      | access t => exact (ih hrun).access hstep
      | release t => exact (ih hrun).release hstep

variable {J I : σ → Prop}

theorem run_always (hguards : Guards service J I) (h : J s) {turns : List (Turns Thread Job)}
    (hrun : run service (start s) turns = some m) : I m.shared := by
  have hserial := run_serial hrun
  cases hholder : m.holder with
  | none =>
      rw [(hserial.free hholder).1]
      exact hguards.free _ (hguards.final h m.entered)
  | some t =>
      obtain ⟨past, job, rest, -, -, hleads, -⟩ := hserial.held t hholder
      exact (hleads.always (hguards.always job _ (hguards.final h past))).before

end Threads

end EdgeMind.Framework
