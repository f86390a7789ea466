import EdgeMind.Framework.SharedReplace

/-!
# One process that replaces a file

Wherever a single process stops, the files are as some outcome of the whole replacement leaves them:
the steps refine the replacement in one piece.
-/

namespace EdgeMind.Framework

namespace Shared

variable (path : Path) (d : Disk) (job : Job)

/-- What the files are at each phase of the process. -/
def Alone (s : Shared Unit) : Prop :=
  match s.phase () with
  | .idle => s.disk.files = d.files
  | .writing inode written rest =>
      job.content = written ++ rest ∧ s.disk.entry (tmpPath path) = some inode ∧
        s.disk.files = d.files.set (tmpPath path) (.file written true)
  | .stopped => s.disk.files = d.files ∨
      ∃ kept, s.disk.files = d.files.set (tmpPath path) (.file (job.content.take kept) true)
  | .written => job.complete = true ∧
      s.disk.files = d.files.set (tmpPath path) (.file job.content true)
  | .removing => job.complete = true ∧
      s.disk.files = d.files.set (tmpPath path) (.file job.content true)
  | .returned true => job.complete = true ∧
      s.disk.files = (d.files.set (tmpPath path) .absent).set path (.file job.content true)
  | .returned false => job.complete = true ∧
      (s.disk.files = d.files.set (tmpPath path) .absent ∨
        s.disk.files = d.files.set (tmpPath path) (.file job.content true))

variable {path d job}

theorem setPhase_unit (s : Shared Unit) (phase : Phase) : (s.setPhase () phase).phase () = phase := by
  simp [Shared.setPhase]

theorem Alone.openTmp {s : Shared Unit} (h : Alone path d job s) (ok : Bool) :
    Alone path d job (s.openTmp path (fun _ => some job) () ok) := by
  unfold Shared.openTmp
  split
  · next hidle =>
      rw [Alone, hidle] at h
      split
      · next job' disk inode hjob hopen =>
          cases hjob
          split at hopen
          · obtain ⟨hentry, -, hfiles, -⟩ := Disk.truncate_spec hopen
            rw [Alone]
            simp only [setPhase_unit]
            exact ⟨rfl, hentry, hfiles.trans (by rw [h])⟩
          · cases hopen
      · rw [Alone, setPhase_unit]
        exact .inl h
  · exact h

theorem Alone.writeTmp {s : Shared Unit} (h : Alone path d job s) (count : Nat) :
    Alone path d job (s.writeTmp () count) := by
  unfold Shared.writeTmp
  split
  · next inode written rest hphase =>
      rw [Alone, hphase] at h
      obtain ⟨hcontent, hentry, hfiles⟩ := h
      have hnode : s.disk.node inode = .file written true := by
        rw [← Disk.files_of_entry hentry, hfiles, FileSystem.set_same]
      rw [Alone]
      simp only [setPhase_unit]
      refine ⟨?_, ?_, ?_⟩
      · rw [List.append_assoc, List.take_append_drop, hcontent]
      · rw [Disk.writeAt_entry, hentry]
      · rw [Disk.writeAt_end hnode, Disk.setNode_files hentry, hfiles, FileSystem.set_set]
  · exact h

theorem Alone.closeTmp {s : Shared Unit} (h : Alone path d job s) (good : Bool) :
    Alone path d job (s.closeTmp (fun _ => some job) () good) := by
  unfold Shared.closeTmp
  split
  · next inode written rest hphase =>
      rw [Alone, hphase] at h
      obtain ⟨hcontent, -, hfiles⟩ := h
      by_cases hgood : good ∧ rest = [] ∧ (some job).any Job.complete
      · rw [if_pos hgood, Alone, setPhase_unit]
        obtain ⟨-, rfl, hcomplete⟩ := hgood
        rw [List.append_nil] at hcontent
        exact ⟨hcomplete, hfiles.trans (by rw [hcontent])⟩
      · rw [if_neg hgood, Alone, setPhase_unit]
        refine .inr ⟨written.length, ?_⟩
        rw [hcontent, List.take_left]
        exact hfiles
  · exact h

theorem Alone.renameTmp {s : Shared Unit} (h : Alone path d job s) (ok : Bool) :
    Alone path d job (s.renameTmp path () ok) := by
  unfold Shared.renameTmp
  split
  · next hphase =>
      rw [Alone, hphase] at h
      obtain ⟨hcomplete, hfiles⟩ := h
      split
      · next hrename =>
          obtain ⟨inode, hentry⟩ := Option.isSome_iff_exists.mp hrename.2
          have hnode : s.disk.node inode = .file job.content true := by
            rw [← Disk.files_of_entry hentry, hfiles, FileSystem.set_same]
          rw [Alone]
          simp only [setPhase_unit]
          refine ⟨hcomplete, ?_⟩
          rw [Disk.rename_files hentry (tmpPath_ne path).symm, hfiles, FileSystem.set_set, hnode]
      · rw [Alone, setPhase_unit]
        exact ⟨hcomplete, hfiles⟩
  · exact h

theorem Alone.removeTmp {s : Shared Unit} (h : Alone path d job s) (ok : Bool) :
    Alone path d job (s.removeTmp path () ok) := by
  unfold Shared.removeTmp
  split
  · next hphase =>
      rw [Alone, hphase] at h
      obtain ⟨hcomplete, hfiles⟩ := h
      rw [Alone]
      simp only [setPhase_unit]
      refine ⟨hcomplete, ?_⟩
      split
      · refine .inl ?_
        rw [Disk.unlink_files, hfiles, FileSystem.set_set]
      · exact .inr hfiles
  · exact h

theorem Alone.congr {s s' : Shared Unit} (h : Alone path d job s)
    (hframe : s'.disk = s.disk ∧ s'.phase = s.phase) : Alone path d job s' := by
  unfold Alone
  rw [hframe.1, hframe.2]
  exact h

theorem Alone.step {s : Shared Unit} (h : Alone path d job s) (e : SharedEvent Unit) :
    Alone path d job (s.step path (fun _ => some job) e) := by
  cases e with
  | openTmp p ok => exact h.openTmp ok
  | writeTmp p count => exact h.writeTmp count
  | closeTmp p good => exact h.closeTmp good
  | renameTmp p ok => exact h.renameTmp ok
  | removeTmp p ok => exact h.removeTmp ok
  | openTarget r => exact h.congr (s.openTarget_frame path r)
  | readTarget r count => exact h.congr (s.readTarget_frame r count)

/-- Whatever phase the process is in, the replacement in one piece has an outcome that leaves the
files the same way. -/
theorem Alone.outcome {s : Shared Unit} (h : Alone path d job s) :
    ∃ io, s.disk.files = (replaceFile d.files path job.content io).1 ∧
      (io = .ok ↔ s.phase () = .returned true) ∧
      (io = .ok ∨ io = .renameFails → job.complete = true) := by
  have hwhole : job.content.take job.content.length = job.content := List.take_length
  cases hphase : s.phase () with
  | idle =>
      rw [Alone, hphase] at h
      exact ⟨.openFails, h, by simp, by simp⟩
  | writing inode written rest =>
      rw [Alone, hphase] at h
      obtain ⟨hcontent, -, hfiles⟩ := h
      refine ⟨.writeFails written.length, ?_, by simp, by simp⟩
      rw [replaceFile, hcontent, List.take_left]
      exact hfiles
  | stopped =>
      rw [Alone, hphase] at h
      rcases h with h | ⟨kept, h⟩
      · exact ⟨.openFails, h, by simp, by simp⟩
      · exact ⟨.writeFails kept, h, by simp, by simp⟩
  | written =>
      rw [Alone, hphase] at h
      refine ⟨.writeFails job.content.length, ?_, by simp, by simp⟩
      rw [replaceFile, hwhole]
      exact h.2
  | removing =>
      rw [Alone, hphase] at h
      refine ⟨.writeFails job.content.length, ?_, by simp, by simp⟩
      rw [replaceFile, hwhole]
      exact h.2
  | returned result =>
      rw [Alone, hphase] at h
      cases result with
      | true => exact ⟨.ok, h.2, by simp, fun _ => h.1⟩
      | false =>
          obtain ⟨hcomplete, h | h⟩ := h
          · exact ⟨.renameFails, h, by simp, fun _ => hcomplete⟩
          · refine ⟨.writeFails job.content.length, ?_, by simp, by simp⟩
            rw [replaceFile, hwhole]
            exact h

/-- A process alone, after any steps: some outcome of the replacement in one piece leaves the files
as they are, and the process has returned `true` just where that outcome is the good one. -/
theorem single_replaced (path : Path) (d : Disk) (job : Job) (events : List (SharedEvent Unit)) :
    ∃ io, (final (runStep path fun _ => some job) (start d) events).disk.files =
        (replaceFile d.files path job.content io).1 ∧
      (io = .ok ↔ (final (runStep path fun _ => some job) (start d) events).phase () =
        .returned true) ∧ (io = .ok ∨ io = .renameFails → job.complete = true) := by
  have hstart : Alone path d job (start d) := rfl
  have hfinal := @final_of_trace _ _ _ (runStep path fun _ => some job) (Alone path d job)
    (fun _ _ => True) (fun s e _ hs => hs.step e) _ hstart events (fun _ _ => trivial)
  exact hfinal.outcome

variable (d) in
/-- A process that never opens anything. -/
def Refused (s : Shared Unit) : Prop := s.disk = d ∧ (s.phase () = .idle ∨ s.phase () = .stopped)

theorem Refused.step {s : Shared Unit} (h : Refused d s) (e : SharedEvent Unit) :
    Refused d (s.step path (fun _ => none) e) := by
  obtain ⟨hdisk, hphase⟩ := h
  have hkeep : Refused d s := ⟨hdisk, hphase⟩
  cases e with
  | openTmp p ok =>
      change Refused d (Shared.openTmp path (fun _ => none) s () ok)
      unfold Shared.openTmp
      split
      · exact ⟨hdisk, .inr (setPhase_unit s .stopped)⟩
      · exact hkeep
  | writeTmp p count =>
      change Refused d (Shared.writeTmp s () count)
      rcases hphase with hphase | hphase <;> rw [Shared.writeTmp, hphase] <;> exact hkeep
  | closeTmp p good =>
      change Refused d (Shared.closeTmp (fun _ => none) s () good)
      rcases hphase with hphase | hphase <;> rw [Shared.closeTmp, hphase] <;> exact hkeep
  | renameTmp p ok =>
      change Refused d (Shared.renameTmp path s () ok)
      rcases hphase with hphase | hphase <;> rw [Shared.renameTmp, hphase] <;> exact hkeep
  | removeTmp p ok =>
      change Refused d (Shared.removeTmp path s () ok)
      rcases hphase with hphase | hphase <;> rw [Shared.removeTmp, hphase] <;> exact hkeep
  | openTarget r =>
      obtain ⟨hdisk', hphase'⟩ := s.openTarget_frame path r
      exact ⟨hdisk'.trans hdisk, hphase'.symm ▸ hphase⟩
  | readTarget r count =>
      obtain ⟨hdisk', hphase'⟩ := s.readTarget_frame r count
      exact ⟨hdisk'.trans hdisk, hphase'.symm ▸ hphase⟩

theorem single_refused (path : Path) (d : Disk) (events : List (SharedEvent Unit)) :
    (final (runStep path fun _ => none) (start d) events).disk = d ∧
      (final (runStep path fun _ => none) (start d) events).phase () ≠ .returned true := by
  have hstart : Refused d (start d) := ⟨rfl, .inl rfl⟩
  have hfinal := @final_of_trace _ _ _ (runStep path fun _ => none) (Refused d)
    (fun _ _ => True) (fun s e _ hs => hs.step e) _ hstart events (fun _ _ => trivial)
  refine ⟨hfinal.1, fun hreturned => ?_⟩
  rcases hfinal.2 with h | h <;> rw [h] at hreturned <;> cases hreturned

end Shared

end EdgeMind.Framework
