import EdgeMind.Api.Calls
import EdgeMind.Core.UsageRuns
import EdgeMind.Usage.Charges

/-!
# What a runtime charges

A load charges nothing. A generation charges as many tokens as pieces were handed to its callback, at the
time of its record, and nothing where it is not ready or not admitted.
-/

namespace EdgeMind

open Framework UsageAccounting UsageManager

namespace UsageRun

/-- The charges are counted in the state file of the configuration. -/
abbrev Charges (config : RuntimeConfig) (usage : FileSystem) (points : List UsagePoint)
    (charges : List (Int × Nat)) : Prop :=
  Charged config.usageStatePath usage points charges

section Charges

variable {config : RuntimeConfig} {w : World} {points : List UsagePoint} {charges : List (Int × Nat)}

private theorem concat_ne_nil (p : UsagePoint) : points ++ [p] ≠ [] :=
  List.append_ne_nil_of_right_ne_nil _ (List.cons_ne_nil _ _)

theorem load_charged (hconfig : validateConfig config = [])
    (htracked : Clocked points → Tracks config w.usage points)
    (h : Clocked points → Charges config w.usage points charges) (r : Runtime) {input : LoadInput}
    (hadmission : input.admissionSave = .ok) (hsession : input.sessionSave = .ok)
    (hclocked : Clocked (points ++ (r.load w config input).effects.filterMap Effect.point?)) :
    Charges config (r.load w config input).world.usage
      (points ++ (r.load w config input).effects.filterMap Effect.point?) charges := by
  obtain ⟨hreset, hmax⟩ := policy_pos hconfig
  have hpoints := load_points r w config hadmission hsession
  dsimp only at hpoints
  rcases hpoints with ⟨hpoints, husage⟩ | ⟨hpoints, husage⟩ | ⟨hpoints, husage⟩
  · rw [hpoints, List.append_nil] at hclocked ⊢
    rw [husage]
    exact h hclocked
  · rw [hpoints] at hclocked ⊢
    rw [husage]
    exact (h hclocked.left).check (htracked hclocked.left) hclocked
  · rw [hpoints, List.append_cons] at hclocked ⊢
    rw [husage]
    have hearlier := hclocked.left
    have hcheck := ((htracked hearlier.left).check hearlier hreset hmax).1
    exact ((h hearlier.left).check (htracked hearlier.left) hearlier).session hcheck
      (concat_ne_nil _) hclocked

theorem generate_charged (hconfig : validateConfig config = []) {r : Runtime}
    (hr : Configured config r) (htracked : Clocked points → Tracks config w.usage points)
    (h : Clocked points → Charges config w.usage points charges) (prompt : Bytes)
    {input : GenerateInput} (hadmission : input.admissionSave = .ok)
    (hrecord : input.recordSave = .ok)
    (hclocked : Clocked (points ++ (r.generate w prompt input).effects.filterMap Effect.point?)) :
    Charges config (r.generate w prompt input).world.usage
      (points ++ (r.generate w prompt input).effects.filterMap Effect.point?)
      (charges ++ [(input.recordNow, (r.pieces w prompt input).length)]) := by
  obtain ⟨hreset, hmax⟩ := policy_pos hconfig
  have hready (h : r.isReady = true) := hr (Bool.and_eq_true_iff.mp h).1
  have hnone (hnot : ¬r.Admits w input) : (r.pieces w prompt input).length = 0 := by
    rw [Runtime.pieces, if_neg hnot]
    rfl
  have hcase := Runtime.generate_transactions (fun h => (hready h).2.1) w prompt input
  dsimp only at hcase
  rcases hcase with ⟨hno, heffects, husage⟩ | ⟨hyes, hdenied, heffects, husage⟩ |
    ⟨hyes, hallowed, heffects, husage⟩
  · rw [heffects, List.filterMap_nil, List.append_nil] at hclocked ⊢
    rw [husage, hnone fun hadmits => hno hadmits.1]
    exact (h hclocked).nothing _
  · obtain ⟨hpolicy, hmanager, -⟩ := hready hyes
    have hnot : ¬r.Admits w input := by
      rintro ⟨-, hadmits⟩
      rw [hmanager] at hadmits
      exact hdenied hadmits
    rw [hpolicy, hadmission] at heffects husage
    rw [heffects] at hclocked ⊢
    rw [husage, hnone hnot]
    exact ((h hclocked.left).check (htracked hclocked.left) hclocked).nothing _
  · obtain ⟨hpolicy, hmanager, -⟩ := hready hyes
    have hadmits : r.Admits w input := ⟨hyes, by rw [hmanager]; exact hallowed⟩
    have hpieces : r.pieces w prompt input = (r.engine.generate prompt input.llama).pieces :=
      if_pos hadmits
    rw [hpolicy, hadmission, hrecord] at heffects husage
    have hpoints : (r.generate w prompt input).effects.filterMap Effect.point? =
        [checkPoint w.usage config.usageStatePath (toUsagePolicy config) input.admissionNow,
          recordPoint (checkPoint w.usage config.usageStatePath (toUsagePolicy config)
            input.admissionNow).usage config.usageStatePath (toUsagePolicy config)
            (r.engine.generate prompt input.llama).pieces.length input.recordNow] := by
      rw [heffects, List.filterMap_append, List.filterMap_append,
        Runtime.filterMap_llama fun _ => rfl]
      rfl
    rw [hpoints, List.append_cons] at hclocked ⊢
    rw [husage, hpieces]
    have hearlier := hclocked.left
    have hcheck := ((htracked hearlier.left).check hearlier hreset hmax).1
    exact ((h hearlier.left).check (htracked hearlier.left) hearlier).record hcheck
      (concat_ne_nil _) _ hclocked

end Charges

end UsageRun

end EdgeMind
