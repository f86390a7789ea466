import EdgeMind.Framework.SharedReplace

/-!
# What the readers of a replaced file see

As long as the processes keep out of each other's temporary file, the target is always what was
there before or the complete content of one process, and no reader ever holds a file that changes.
-/

namespace EdgeMind.Framework

namespace Shared

variable {ι : Type*}

section Invariant

variable (path : Path) (jobs : ι → Option Job) (old : Node)

/-- The content that was there, or the complete content of one of the processes. -/
def Published (node : Node) : Prop :=
  node = old ∨ ∃ p job, jobs p = some job ∧ job.complete = true ∧ node = .file job.content true

/-- What a reader may see. -/
def Seen (opened : Option Bytes) : Prop := ∃ node, Published jobs old node ∧ opened = node.open

/-- The file holds what some process had to write. -/
def Holds (d : Disk) (inode : Inode) (p : ι) : Prop :=
  ∃ job, jobs p = some job ∧ job.complete = true ∧ d.node inode = .file job.content true

structure Inv (s : Shared ι) : Prop where
  target : Published jobs old (s.disk.files path)
  /-- A file that is open for writing is neither the target nor open for reading. -/
  hidden : ∀ p i, (s.phase p).inode? = some i → i < s.disk.next ∧ s.disk.entry path ≠ some i ∧
    ∀ r got, s.readers r ≠ .reading i got
  started : ∀ p i w rest, s.phase p = .writing i w rest →
    ∃ job, jobs p = some job ∧ job.content = w ++ rest
  /-- Whoever writes the file called the temporary file has opened it last. -/
  linked : ∀ p i w rest, s.phase p = .writing i w rest → s.disk.entry (tmpPath path) = some i →
    s.opener = some p ∧ s.disk.node i = .file w true
  latest : ∀ p i j, s.opener = some p → (s.phase p).inode? = some i →
    s.disk.entry (tmpPath path) = some j → j = i
  finished : ∀ p j, s.opener = some p → (s.phase p).finished = true →
    s.disk.entry (tmpPath path) = some j → ∃ q, Holds jobs s.disk j q
  unopened : s.opener = none → ∀ p, (s.phase p).finished = false ∧ (s.phase p).inode? = none
  reader : ∀ r i got, s.readers r = .reading i got → i < s.disk.next ∧
    s.disk.entry (tmpPath path) ≠ some i ∧
    ∃ content, (s.disk.node i).open = some content ∧ got <+: content ∧ Seen jobs old (some content)
  done : ∀ r opened, s.readers r = .done opened → Seen jobs old opened

variable {path jobs old}

theorem inv_start {d : Disk} (h : d.files path = old) : Inv path jobs old (start d) where
  target := .inl h
  hidden := by simp [start, Phase.inode?]
  started := by simp [start]
  linked := by simp [start]
  latest := by simp [start]
  finished := by simp [start]
  unopened := by simp [start, Phase.inode?, Phase.finished]
  reader := by simp [start]
  done := by simp [start]

/-- The temporary file is no longer called that; whatever is the target now is published, and nobody
writes it. -/
theorem Inv.withoutTmp {s : Shared ι} (h : Inv path jobs old s) {d : Disk}
    (hnode : d.node = s.disk.node) (hnext : d.next = s.disk.next)
    (htmp : d.entry (tmpPath path) = none) (htarget : Published jobs old (d.files path))
    (hwriter : ∀ p i, (s.phase p).inode? = some i → d.entry path ≠ some i) :
    Inv path jobs old { s with disk := d } where
  target := htarget
  hidden := by
    intro q i hi
    obtain ⟨hlt, -, halone⟩ := h.hidden q i hi
    exact ⟨hnext ▸ hlt, hwriter q i hi, halone⟩
  started := h.started
  linked := by
    intro q i w rest hw hentry
    rw [htmp] at hentry
    cases hentry
  latest := by
    intro q i j hopener hi hentry
    rw [htmp] at hentry
    cases hentry
  finished := by
    intro q j hopener hq hentry
    rw [htmp] at hentry
    cases hentry
  unopened := h.unopened
  reader := by
    intro r i got hr
    obtain ⟨hlt, -, hcontent⟩ := h.reader r i got hr
    refine ⟨hnext ▸ hlt, ?_, hnode ▸ hcontent⟩
    rw [htmp]
    nofun
  done := h.done

theorem Inv.unlink {s : Shared ι} (h : Inv path jobs old s) :
    Inv path jobs old { s with disk := s.disk.unlink (tmpPath path) } := by
  have hne : path ≠ tmpPath path := (tmpPath_ne path).symm
  refine h.withoutTmp rfl rfl (s.disk.unlink_entry_same _) ?_ fun q i hi => ?_
  · rw [Disk.unlink_files, FileSystem.set_other _ _ hne]
    exact h.target
  · rw [s.disk.unlink_entry_other hne]
    exact (h.hidden q i hi).2.1

theorem Inv.rename {s : Shared ι} (h : Inv path jobs old s) {p : ι} {inode : Inode}
    (hopener : s.opener = some p) (hfinished : (s.phase p).finished = true)
    (hentry : s.disk.entry (tmpPath path) = some inode) :
    Inv path jobs old { s with disk := s.disk.rename (tmpPath path) path } := by
  have hpath : (s.disk.rename (tmpPath path) path).entry path = some inode :=
    (s.disk.rename_entry_target _ _).trans hentry
  obtain ⟨q, job, hjob, hcomplete, hnode⟩ := h.finished p inode hopener hfinished hentry
  refine h.withoutTmp rfl rfl (s.disk.rename_entry_source (tmpPath_ne path)) ?_ fun q i hi => ?_
  · rw [Disk.files_of_entry hpath]
    exact .inr ⟨q, job, hjob, hcomplete, hnode⟩
  · rw [hpath]
    intro heq
    cases hphase : s.phase q with
    | writing j w rest =>
        rw [hphase] at hi
        cases hi
        cases heq
        -- A writer of the temporary file has opened it last, and is not finished.
        have hq := (h.linked q _ w rest hphase hentry).1
        cases Option.some.inj (hopener.symm.trans hq)
        rw [hphase] at hfinished
        cases hfinished
    | _ =>
        rw [hphase] at hi
        cases hi

theorem Inv.opened {s : Shared ι} (h : Inv path jobs old s) {p : ι}
    (hp : (s.phase p).finished = true ∨ (s.phase p).inode? ≠ none) : s.opener ≠ none := by
  intro hnone
  obtain ⟨hfinished, hinode⟩ := h.unopened hnone p
  rcases hp with hp | hp
  · rw [hfinished] at hp
    cases hp
  · exact hp hinode

theorem setReader_same (s : Shared ι) (r : Nat) (reader : ReadPhase) :
    (s.setReader r reader).readers r = reader :=
  Function.update_self _ _ _

theorem setReader_other (s : Shared ι) {r r' : Nat} (reader : ReadPhase) (h : r' ≠ r) :
    (s.setReader r reader).readers r' = s.readers r' :=
  Function.update_of_ne h _ _

theorem Inv.finishReader {s : Shared ι} (h : Inv path jobs old s) (r : Nat) {opened : Option Bytes}
    (hseen : Seen jobs old opened) : Inv path jobs old (s.setReader r (.done opened)) := by
  have hreader (r' : Nat) (i : Inode) (got : Bytes)
      (hr : (s.setReader r (.done opened)).readers r' = .reading i got) :
      s.readers r' = .reading i got := by
    by_cases heq : r' = r
    · rw [heq, setReader_same] at hr
      cases hr
    · exact (setReader_other s _ heq).symm.trans hr
  exact { h with
    hidden := by
      intro q i hi
      obtain ⟨hlt, htarget, halone⟩ := h.hidden q i hi
      exact ⟨hlt, htarget, fun r' got hr => halone r' got (hreader r' i got hr)⟩
    reader := fun r' i got hr => h.reader r' i got (hreader r' i got hr)
    done := by
      intro r' opened' hr
      by_cases heq : r' = r
      · rw [heq, setReader_same] at hr
        cases hr
        exact hseen
      · exact h.done r' opened' ((setReader_other s _ heq).symm.trans hr) }

theorem Inv.continueReader {s : Shared ι} (h : Inv path jobs old s) (r : Nat) {i : Inode}
    {got content : Bytes} (hlt : i < s.disk.next) (htmp : s.disk.entry (tmpPath path) ≠ some i)
    (hwriter : ∀ p, (s.phase p).inode? ≠ some i) (hopen : (s.disk.node i).open = some content)
    (hgot : got <+: content) (hseen : Seen jobs old (some content)) :
    Inv path jobs old (s.setReader r (.reading i got)) where
  target := h.target
  hidden := by
    intro q j hj
    obtain ⟨hlt, htarget, halone⟩ := h.hidden q j hj
    refine ⟨hlt, htarget, fun r' got' hr => ?_⟩
    by_cases heq : r' = r
    · rw [heq, setReader_same] at hr
      cases hr
      exact hwriter q hj
    · exact halone r' got' ((setReader_other s _ heq).symm.trans hr)
  started := h.started
  linked := h.linked
  latest := h.latest
  finished := h.finished
  unopened := h.unopened
  reader := by
    intro r' j got' hr
    by_cases heq : r' = r
    · rw [heq, setReader_same] at hr
      cases hr
      exact ⟨hlt, htmp, content, hopen, hgot, hseen⟩
    · exact h.reader r' j got' ((setReader_other s _ heq).symm.trans hr)
  done := by
    intro r' opened hr
    by_cases heq : r' = r
    · rw [heq, setReader_same] at hr
      cases hr
    · exact h.done r' opened ((setReader_other s _ heq).symm.trans hr)

theorem Inv.openTarget {s : Shared ι} (h : Inv path jobs old s) (r : Nat) :
    Inv path jobs old (Shared.openTarget path s r) := by
  unfold Shared.openTarget
  split
  · split
    · next hentry =>
        refine h.finishReader r ⟨s.disk.files path, h.target, ?_⟩
        rw [Disk.files_of_none hentry]
        rfl
    · next inode hentry =>
        have hfile := Disk.files_of_entry hentry
        split
        · next hopen =>
            refine h.finishReader r ⟨s.disk.files path, h.target, ?_⟩
            rw [hfile, hopen]
        · next hopen =>
            obtain ⟨content, hcontent⟩ := Option.ne_none_iff_exists'.mp hopen
            refine h.continueReader r (s.disk.used _ _ hentry) (fun heq => ?_) (fun p hp => ?_)
              hcontent (List.nil_prefix) ⟨s.disk.files path, h.target, ?_⟩
            · exact tmpPath_ne path (s.disk.unshared _ _ _ heq hentry)
            · exact (h.hidden p inode hp).2.1 hentry
            · rw [hfile, hcontent]
  · exact h

theorem Inv.readTarget {s : Shared ι} (h : Inv path jobs old s) (r count : Nat) :
    Inv path jobs old (Shared.readTarget s r count) := by
  unfold Shared.readTarget
  split
  · next inode got hreader =>
      obtain ⟨hlt, htmp, content, hopen, hgot, hseen⟩ := h.reader r inode got hreader
      obtain ⟨rest, hrest⟩ := hgot
      rw [hopen, Option.getD_some, ← hrest, List.drop_left]
      dsimp only
      split
      · next hnil =>
          rw [hnil, List.append_nil] at hrest
          exact h.finishReader r (hrest ▸ hseen)
      · refine h.continueReader r hlt htmp (fun p hp => ?_) hopen ?_ hseen
        · exact (h.hidden p inode hp).2.2 r got hreader
        · rw [← hrest]
          exact List.prefix_append_right_inj got |>.mpr (List.take_prefix _ _)
  · exact h

variable [DecidableEq ι]

theorem setPhase_same (s : Shared ι) (p : ι) (phase : Phase) : (s.setPhase p phase).phase p = phase :=
  Function.update_self _ _ _

theorem setPhase_other (s : Shared ι) {p q : ι} (phase : Phase) (h : q ≠ p) :
    (s.setPhase p phase).phase q = s.phase q :=
  Function.update_of_ne h _ _

theorem Inv.setPhase {s : Shared ι} (h : Inv path jobs old s) (p : ι) {phase : Phase}
    (hclosed : phase.inode? = none)
    (hfinished : phase.finished = true → s.opener ≠ none ∧ (s.opener = some p →
      ∀ j, s.disk.entry (tmpPath path) = some j → ∃ q, Holds jobs s.disk j q)) :
    Inv path jobs old (s.setPhase p phase) := by
  have hwriting (q : ι) (i : Inode) (hq : ((s.setPhase p phase).phase q).inode? = some i) :
      q ≠ p ∧ (s.setPhase p phase).phase q = s.phase q := by
    by_cases hqp : q = p
    · rw [hqp, setPhase_same, hclosed] at hq
      cases hq
    · exact ⟨hqp, setPhase_other s phase hqp⟩
  exact {
    target := h.target
    hidden := by
      intro q i hq
      rw [(hwriting q i hq).2] at hq
      exact h.hidden q i hq
    started := by
      intro q i w rest hq
      rw [(hwriting q i (by rw [hq]; rfl)).2] at hq
      exact h.started q i w rest hq
    linked := by
      intro q i w rest hq
      rw [(hwriting q i (by rw [hq]; rfl)).2] at hq
      exact h.linked q i w rest hq
    latest := by
      intro q i j hopener hq
      rw [(hwriting q i hq).2] at hq
      exact h.latest q i j hopener hq
    finished := by
      intro q j hopener hq hentry
      by_cases hqp : q = p
      · subst hqp
        rw [setPhase_same] at hq
        exact (hfinished hq).2 hopener j hentry
      · rw [setPhase_other s phase hqp] at hq
        exact h.finished q j hopener hq hentry
    unopened := by
      intro hopener q
      by_cases hqp : q = p
      · rw [hqp, setPhase_same]
        refine ⟨Bool.eq_false_iff.mpr fun hf => (hfinished hf).1 hopener, hclosed⟩
      · rw [setPhase_other s phase hqp]
        exact h.unopened hopener q
    reader := h.reader
    done := h.done }

theorem Inv.openTmp {s : Shared ι} (h : Inv path jobs old s) {p : ι} {job : Job} {disk : Disk}
    {inode : Inode} (hjob : jobs p = some job)
    (htruncate : s.disk.truncate (tmpPath path) = some (disk, inode))
    (hexclusive : ∀ q, q ≠ p →
      (s.phase q).inode? = none ∨ (s.phase q).inode? ≠ s.disk.entry (tmpPath path)) :
    Inv path jobs old
      { s.setPhase p (.writing inode [] job.content) with disk, opener := some p } := by
  obtain ⟨hentry, hnode, hfiles, hentries, hnodes, hfrom, hnext⟩ := Disk.truncate_spec htruncate
  have hlt : inode < disk.next := disk.used _ _ hentry
  have hpath : disk.entry path = s.disk.entry path := hentries path (tmpPath_ne path).symm
  have hpathNe : disk.entry path ≠ some inode := fun heq =>
    tmpPath_ne path (disk.unshared _ _ _ hentry heq)
  -- Whatever was open or called something else is another file.
  have hother (i : Inode) (hi : i < s.disk.next) (htmp : s.disk.entry (tmpPath path) ≠ some i) :
      i ≠ inode := by
    intro heq
    rcases hfrom with hfrom | hfrom
    · exact htmp (heq ▸ hfrom)
    · rw [heq, hfrom] at hi
      exact Nat.lt_irrefl _ hi
  have hreaders (r : Nat) (i : Inode) (got : Bytes) (hr : s.readers r = .reading i got) :
      i ≠ inode :=
    hother i (h.reader r i got hr).1 (h.reader r i got hr).2.1
  have hwriters (q : ι) (i : Inode) (hq : q ≠ p) (hi : (s.phase q).inode? = some i) :
      i ≠ inode := by
    refine hother i (h.hidden q i hi).1 ?_
    rcases hexclusive q hq with hnone | hne
    · rw [hnone] at hi
      cases hi
    · rw [hi] at hne
      exact hne.symm
  have hself := setPhase_same s p (.writing inode [] job.content)
  have hphase (q : ι) (hq : q ≠ p) := setPhase_other s (.writing inode [] job.content) hq
  exact {
    target := by
      rw [hfiles, FileSystem.set_other _ _ (tmpPath_ne path).symm]
      exact h.target
    hidden := by
      intro q i hi
      by_cases hq : q = p
      · rw [hq, hself] at hi
        cases hi
        exact ⟨hlt, hpathNe, fun r got hr => hreaders r _ got hr rfl⟩
      · rw [hphase q hq] at hi
        obtain ⟨hi, htarget, halone⟩ := h.hidden q i hi
        exact ⟨hi.trans_le hnext, hpath ▸ htarget, halone⟩
    started := by
      intro q i w rest hw
      by_cases hq : q = p
      · rw [hq, hself] at hw
        cases hw
        exact ⟨job, hq ▸ hjob, rfl⟩
      · rw [hphase q hq] at hw
        exact h.started q i w rest hw
    linked := by
      intro q i w rest hw hlinked
      by_cases hq : q = p
      · rw [hq, hself] at hw
        cases hw
        exact ⟨hq ▸ rfl, hnode⟩
      · rw [hphase q hq] at hw
        exact absurd (Option.some.inj (hlinked.symm.trans hentry))
          (hwriters q i hq (by rw [hw]; rfl))
    latest := by
      intro q i j hopener hi hj
      cases hopener
      rw [hself] at hi
      cases hi
      exact Option.some.inj (hj.symm.trans hentry)
    finished := by
      intro q j hopener hfinished
      cases hopener
      rw [hself] at hfinished
      cases hfinished
    unopened := nofun
    reader := by
      intro r i got hr
      obtain ⟨hi, -, content, hopen, hgot, hseen⟩ := h.reader r i got hr
      have hne := hreaders r i got hr
      refine ⟨hi.trans_le hnext, fun heq => ?_, content, ?_, hgot, hseen⟩
      · exact hne (Option.some.inj (heq.symm.trans hentry))
      · rw [hnodes i hne]
        exact hopen
    done := h.done }

theorem Inv.writeTmp {s : Shared ι} (h : Inv path jobs old s) {p : ι} {inode : Inode}
    {written rest : Bytes} (hphase : s.phase p = .writing inode written rest) (count : Nat) :
    Inv path jobs old
      { s.setPhase p (.writing inode (written ++ rest.take count) (rest.drop count)) with
        disk := s.disk.writeAt inode written.length (rest.take count) } := by
  obtain ⟨hlt, htarget, halone⟩ := h.hidden p inode (by rw [hphase]; rfl)
  have hself := setPhase_same s p (.writing inode (written ++ rest.take count) (rest.drop count))
  have hother (q : ι) (hq : q ≠ p) :=
    setPhase_other s (.writing inode (written ++ rest.take count) (rest.drop count)) hq
  have hinode (q : ι) : ((s.setPhase p (.writing inode (written ++ rest.take count)
      (rest.drop count))).phase q).inode? = (s.phase q).inode? := by
    by_cases hq : q = p
    · rw [hq, hself, hphase]
      rfl
    · rw [hother q hq]
  have hfinished (q : ι) : ((s.setPhase p (.writing inode (written ++ rest.take count)
      (rest.drop count))).phase q).finished = (s.phase q).finished := by
    by_cases hq : q = p
    · rw [hq, hself, hphase]
      rfl
    · rw [hother q hq]
  exact {
    target := by
      rw [Disk.writeAt_files_other _ _ _ htarget]
      exact h.target
    hidden := by
      intro q i hi
      rw [hinode] at hi
      rw [Disk.writeAt_entry, Disk.writeAt_next]
      exact h.hidden q i hi
    started := by
      intro q i w r hw
      by_cases hq : q = p
      · rw [hq, hself] at hw
        cases hw
        obtain ⟨job, hjob, hcontent⟩ := h.started p _ _ _ hphase
        refine ⟨job, hq ▸ hjob, ?_⟩
        rw [hcontent, List.append_assoc, List.take_append_drop]
      · rw [hother q hq] at hw
        exact h.started q i w r hw
    linked := by
      intro q i w r hw hentry
      rw [Disk.writeAt_entry] at hentry
      by_cases hq : q = p
      · rw [hq, hself] at hw
        cases hw
        obtain ⟨hopener, hnode⟩ := h.linked p _ _ _ hphase hentry
        refine ⟨hq ▸ hopener, ?_⟩
        rw [Disk.writeAt_end hnode, Disk.setNode_same]
      · rw [hother q hq] at hw
        obtain ⟨hopener, hnode⟩ := h.linked q i w r hw hentry
        -- The file called the temporary file has one writer only.
        have hne : i ≠ inode := by
          intro heq
          have hp := (h.linked p _ _ _ hphase (heq ▸ hentry)).1
          exact hq (Option.some.inj (hopener.symm.trans hp))
        exact ⟨hopener, (Disk.writeAt_other _ _ _ hne).trans hnode⟩
    latest := by
      intro q i j hopener hi hentry
      rw [hinode] at hi
      rw [Disk.writeAt_entry] at hentry
      exact h.latest q i j hopener hi hentry
    finished := by
      intro q j hopener hq hentry
      rw [hfinished] at hq
      rw [Disk.writeAt_entry] at hentry
      obtain ⟨r, job, hjob, hcomplete, hnode⟩ := h.finished q j hopener hq hentry
      have hne : j ≠ inode := by
        intro heq
        have hp := (h.linked p _ _ _ hphase (heq ▸ hentry)).1
        have hqp : q = p := Option.some.inj (hopener.symm.trans hp)
        rw [hqp, hphase] at hq
        cases hq
      exact ⟨r, job, hjob, hcomplete, (Disk.writeAt_other _ _ _ hne).trans hnode⟩
    unopened := by
      intro hopener q
      rw [hinode, hfinished]
      exact h.unopened hopener q
    reader := by
      intro r i got hr
      obtain ⟨hi, htmp, content, hopen, hgot, hseen⟩ := h.reader r i got hr
      have hne : i ≠ inode := by
        intro heq
        exact halone r got (heq ▸ hr)
      rw [Disk.writeAt_entry, Disk.writeAt_next]
      refine ⟨hi, htmp, content, ?_, hgot, hseen⟩
      rw [Disk.writeAt_other _ _ _ hne]
      exact hopen
    done := h.done }

theorem Inv.closeTmp {s : Shared ι} (h : Inv path jobs old s) (p : ι) (good : Bool) :
    Inv path jobs old (Shared.closeTmp jobs s p good) := by
  unfold Shared.closeTmp
  split
  · next inode written rest hphase =>
      split
      · next hgood =>
          obtain ⟨-, rfl, hcomplete⟩ := hgood
          have hopened := h.opened (.inr (by rw [hphase]; nofun))
          refine h.setPhase p rfl fun _ => ⟨hopened, fun hopener j hentry => ?_⟩
          have hj := h.latest p inode j hopener (by rw [hphase]; rfl) hentry
          obtain ⟨-, hnode⟩ := h.linked p _ _ _ hphase (hj ▸ hentry)
          obtain ⟨job, hjob, hcontent⟩ := h.started p _ _ _ hphase
          rw [hjob] at hcomplete
          refine ⟨p, job, hjob, hcomplete, ?_⟩
          rw [hcontent, List.append_nil, hj]
          exact hnode
      · exact h.setPhase p rfl nofun
  · exact h

theorem Inv.renameTmp {s : Shared ι} (h : Inv path jobs old s) (p : ι) (ok : Bool)
    (horderly : Orderly path s (.renameTmp p ok)) :
    Inv path jobs old (Shared.renameTmp path s p ok) := by
  unfold Shared.renameTmp
  split
  · next hphase =>
      have hopened := h.opened (.inl (by rw [hphase]; rfl))
      split
      · next hrename =>
          obtain ⟨hok, hlinked⟩ := hrename
          obtain ⟨inode, hentry⟩ := Option.isSome_iff_exists.mp hlinked
          obtain ⟨q, hopener⟩ := Option.ne_none_iff_exists'.mp hopened
          have hrenamed := h.rename hopener (horderly hphase hok q hopener) hentry
          refine hrenamed.setPhase p rfl fun _ => ⟨hopened, fun _ j hj => ?_⟩
          rw [s.disk.rename_entry_source (tmpPath_ne path)] at hj
          cases hj
      · refine h.setPhase p rfl fun _ => ⟨hopened, fun hopener j hj => ?_⟩
        exact h.finished p j hopener (by rw [hphase]; rfl) hj
  · exact h

theorem Inv.removeTmp {s : Shared ι} (h : Inv path jobs old s) (p : ι) (ok : Bool) :
    Inv path jobs old (Shared.removeTmp path s p ok) := by
  unfold Shared.removeTmp
  split
  · next hphase =>
      have hopened := h.opened (.inl (by rw [hphase]; rfl))
      split
      · refine h.unlink.setPhase p rfl fun _ => ⟨hopened, fun _ j hj => ?_⟩
        rw [s.disk.unlink_entry_same] at hj
        cases hj
      · refine h.setPhase p rfl fun _ => ⟨hopened, fun hopener j hj => ?_⟩
        exact h.finished p j hopener (by rw [hphase]; rfl) hj
  · exact h

theorem Inv.step {s : Shared ι} (h : Inv path jobs old s) (e : SharedEvent ι)
    (horderly : Orderly path s e) : Inv path jobs old (s.step path jobs e) := by
  cases e with
  | openTmp p ok =>
      change Inv path jobs old (Shared.openTmp path jobs s p ok)
      unfold Shared.openTmp
      split
      · next hidle =>
          split
          · next job disk inode hjob hopen =>
              split at hopen
              · next hok => exact h.openTmp hjob hopen (horderly hidle hok)
              · cases hopen
          · exact h.setPhase p rfl nofun
      · exact h
  | writeTmp p count =>
      change Inv path jobs old (Shared.writeTmp s p count)
      unfold Shared.writeTmp
      split
      · next inode written rest hphase => exact h.writeTmp hphase count
      · exact h
  | closeTmp p good => exact h.closeTmp p good
  | renameTmp p ok => exact h.renameTmp p ok horderly
  | removeTmp p ok => exact h.removeTmp p ok
  | openTarget r => exact h.openTarget r
  | readTarget r count => exact h.readTarget r count

/-- Over every run of orderly steps the readers see what was there or what one process had to write,
as a whole. -/
theorem orderly_seen {d : Disk} {events : List (SharedEvent ι)}
    (h : ∀ e ∈ trace (runStep path jobs) (start d) events, Orderly path e.before e.input)
    {r : Nat} {opened : Option Bytes}
    (hdone : (final (runStep path jobs) (start d) events).readers r = .done opened) :
    Seen jobs (d.files path) opened := by
  have hfinal := final_of_trace (Inv path jobs (d.files path)) (Orderly path)
    (fun s e horderly hs => hs.step e horderly) (inv_start rfl) h
  exact hfinal.done r opened hdone

end Invariant

/-- One process has saved when another starts to write; the reader has opened the target before. -/
def turnEvents (length : Nat) : List (SharedEvent Bool) := [
  .openTmp false true, .writeTmp false length, .closeTmp false true, .renameTmp false true,
  .openTmp true true, .openTarget 0, .readTarget 0 length, .writeTmp true 1, .readTarget 0 0]

theorem turns (path : Path) {jobs : Bool → Option Job} {a b : Job} (ha : jobs false = some a)
    (hb : jobs true = some b) (hcomplete : a.complete = true) (hcontent : a.content ≠ []) :
    (∀ e ∈ trace (runStep path jobs) (start Disk.empty) (turnEvents a.content.length),
      Orderly path e.before e.input) ∧
    (final (runStep path jobs) (start Disk.empty) (turnEvents a.content.length)).readers 0 =
      .done (some a.content) := by
  have hne := tmpPath_ne path
  have htake : a.content.take (a.content.length + 1) = a.content :=
    List.take_of_length_le (Nat.le_succ _)
  constructor
  · simp [trace, turnEvents, runStep, step, openTmp, writeTmp, closeTmp, renameTmp, openTarget,
      readTarget, start, ha, hb, hcomplete, Disk.truncate, Disk.empty, setPhase, setReader,
      Disk.create, Disk.writeAt, Disk.setNode, Disk.rename, Disk.unlink, Node.open, Disk.overwrite,
      hcontent, hne, hne.symm, Orderly, Phase.inode?, Phase.finished]
  · simp [final, turnEvents, runStep, step, openTmp, writeTmp, closeTmp, renameTmp, openTarget,
      readTarget, start, ha, hb, hcomplete, Disk.truncate, Disk.empty, setPhase, setReader,
      Disk.create, Disk.writeAt, Disk.setNode, Disk.rename, Disk.unlink, Node.open, Disk.overwrite,
      hcontent, hne, hne.symm, htake]

/-- One process has written its content when another truncates the temporary file, and renames it. -/
def tornEvents (length : Nat) : List (SharedEvent Bool) := [
  .openTmp false true, .writeTmp false length, .closeTmp false true, .openTmp true true,
  .renameTmp false true, .openTarget 0, .readTarget 0 0]

theorem torn (path : Path) {jobs : Bool → Option Job} {a b : Job} (ha : jobs false = some a)
    (hb : jobs true = some b) (hcomplete : a.complete = true) :
    (final (runStep path jobs) (start Disk.empty) (tornEvents a.content.length)).readers 0 =
      .done (some []) := by
  simp [final, tornEvents, runStep, step, openTmp, writeTmp, closeTmp, renameTmp, openTarget,
    readTarget, start, ha, hb, hcomplete, Disk.truncate, Disk.empty, setPhase, setReader,
    Disk.create, Disk.writeAt, Disk.setNode, Disk.rename, Node.open, Disk.overwrite]

end Shared

end EdgeMind.Framework
