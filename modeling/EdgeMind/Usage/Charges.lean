import EdgeMind.Usage.Enforcement

/-!
# What is charged in a period

The token counter of the state file is the sum of what was charged since the start of its period. A
charge is the time of a record and its tokens.
-/

namespace EdgeMind

open Framework

def chargedSince (start : Int) (charges : List (Int × Nat)) : Nat :=
  ((charges.filter fun charge => start ≤ charge.1).map Prod.snd).sum

theorem chargedSince_append (start : Int) (charges more : List (Int × Nat)) :
    chargedSince start (charges ++ more) = chargedSince start charges + chargedSince start more := by
  simp [chargedSince]

theorem chargedSince_singleton (start : Int) (charge : Int × Nat) :
    chargedSince start [charge] = if start ≤ charge.1 then charge.2 else 0 := by
  unfold chargedSince
  split <;> simp [*]

theorem chargedSince_eq_zero {start : Int} {charges : List (Int × Nat)}
    (h : ∀ charge ∈ charges, charge.2 ≠ 0 → charge.1 < start) : chargedSince start charges = 0 := by
  apply List.sum_eq_zero
  intro tokens htokens
  obtain ⟨charge, hcharge, rfl⟩ := List.mem_map.mp htokens
  obtain ⟨hmem, hstart⟩ := List.mem_filter.mp hcharge
  rw [decide_eq_true_iff] at hstart
  by_contra hne
  exact absurd (h charge hmem hne) (not_lt.mpr hstart)

namespace UsageManager

open UsageAccounting

/-- The charges are those of recorded generations, and the state file counts them. -/
structure Charged (statePath : Path) (usage : FileSystem) (points : List UsagePoint)
    (charges : List (Int × Nat)) : Prop where
  recorded : ∀ charge ∈ charges, charge.2 ≠ 0 →
    ∃ p ∈ points, p.transaction = .recordGeneration ∧ p.now = charge.1
  stored : ∀ state, UsageStateStore.load usage statePath = (.ok, state) →
    state.tokensUsedThisPeriod =
      min (chargedSince state.periodStartUnix charges : Int) UsageState.maxSaneCounter

section Transactions

variable {statePath : Path} {policy : UsagePolicy} {maxTokens : Int} {usage : FileSystem}
  {points : List UsagePoint} {charges : List (Int × Nat)} {now : Int}

theorem charged_nil (h : usage statePath = .absent) : Charged statePath usage [] [] where
  recorded _ hcharge := absurd hcharge List.not_mem_nil
  stored state hload := by
    rw [UsageStateStore.load, h] at hload
    cases hload

theorem Charged.nothing (h : Charged statePath usage points charges) (time : Int) :
    Charged statePath usage points (charges ++ [(time, 0)]) where
  recorded charge hcharge hne := by
    rcases List.mem_append.mp hcharge with hcharge | hcharge
    · exact h.recorded charge hcharge hne
    · rw [List.mem_singleton.mp hcharge] at hne
      exact absurd rfl hne
  stored state hload := by
    rw [h.stored state hload, chargedSince_append, chargedSince_singleton]
    simp

theorem Charged.recorded_left (h : Charged statePath usage points charges) (more : List UsagePoint) :
    ∀ charge ∈ charges, charge.2 ≠ 0 →
      ∃ p ∈ points ++ more, p.transaction = .recordGeneration ∧ p.now = charge.1 := by
  intro charge hcharge hne
  obtain ⟨p, hp, hrecord⟩ := h.recorded charge hcharge hne
  exact ⟨p, List.mem_append_left more hp, hrecord⟩

theorem Charged.late {state : UsageState} (h : Charged statePath usage points charges)
    (haccounted : Accounted policy maxTokens points state)
    (hlate : state.periodStartUnix + policy.resetPeriodSeconds ≤ now) :
    chargedSince now charges = 0 := by
  apply chargedSince_eq_zero
  intro charge hcharge hne
  obtain ⟨p, hp, hrecord, hnow⟩ := h.recorded charge hcharge hne
  have hrunning := haccounted.running p hp hrecord
  omega

theorem Charged.current {state : UsageState} (h : Charged statePath usage points charges)
    (hload : UsageStateStore.load usage statePath = (.ok, state))
    (haccounted : Accounted policy maxTokens points state) (hclock : ∀ p ∈ points, p.now ≤ now) :
    (currentState policy state now).tokensUsedThisPeriod =
      min (chargedSince (currentState policy state now).periodStartUnix charges : Int)
        UsageState.maxSaneCounter := by
  rcases haccounted.current hclock with ⟨hsame, -⟩ | ⟨hrolled, hlate⟩
  · rw [hsame]
    exact h.stored state hload
  · rw [hrolled]
    change 0 = min (chargedSince now charges : Int) _
    rw [h.late haccounted hlate]
    rfl

theorem Charged.check (h : Charged statePath usage points charges)
    (htracked : Tracked statePath policy maxTokens usage points)
    (hclocked : Clocked (points ++ [checkPoint usage statePath policy now])) :
    Charged statePath (checkPoint usage statePath policy now).usage
      (points ++ [checkPoint usage statePath policy now]) charges where
  recorded := h.recorded_left _
  stored state hstate := by
    obtain ⟨hclock, hnow⟩ : (∀ q ∈ points, q.now ≤ now) ∧
        1 ≤ now ∧ now ≤ UsageState.maxSaneTimestamp := hclocked.last
    rcases htracked.stored with ⟨rfl, hload⟩ | ⟨stored, hload, haccounted⟩
    · have hrolled : periodHasRolledOver policy {} now = true :=
        (periodHasRolledOver_iff policy {} now).mpr (.inl le_rfl)
      rw [checkPoint_load hload (.inr ⟨hrolled, rfl⟩) hnow, currentState_rolled hrolled] at hstate
      obtain rfl := (Prod.mk.inj hstate).2
      change 0 = min (chargedSince now charges : Int) _
      rw [chargedSince_eq_zero]
      · rfl
      · intro charge hcharge hne
        obtain ⟨p, hp, -⟩ := h.recorded charge hcharge hne
        cases hp
    · rw [checkPoint_load hload (.inl rfl) hnow] at hstate
      obtain rfl := (Prod.mk.inj hstate).2
      exact h.current hload haccounted hclock

theorem Charged.session (h : Charged statePath usage points charges)
    (htracked : Tracked statePath policy maxTokens usage points) (hpoints : points ≠ [])
    (hclocked : Clocked (points ++ [sessionPoint usage statePath now])) :
    Charged statePath (sessionPoint usage statePath now).usage
      (points ++ [sessionPoint usage statePath now]) charges where
  recorded := h.recorded_left _
  stored state hstate := by
    have hnow : 1 ≤ now ∧ now ≤ UsageState.maxSaneTimestamp := hclocked.last.2
    obtain ⟨stored, hload, haccounted⟩ := htracked.stored.resolve_left fun h => hpoints h.1
    have hvalid := (haccounted.session hnow).valid
    have hafter : UsageStateStore.load (sessionPoint usage statePath now).usage statePath =
        (.ok, { stored with sessionStartUnix := now }) := by
      unfold sessionPoint sessionStart
      dsimp only
      rw [hload, if_neg (show UsageStateLoadResult.ok ≠ .corrupted by decide)]
      exact UsageStateStore.load_save
        ((UsageStateStore.save_eq_true_iff _ _ _ _).mpr ⟨rfl, hvalid⟩)
    rw [hafter] at hstate
    obtain rfl := (Prod.mk.inj hstate).2
    exact h.stored stored hload

theorem current_valid {state : UsageState} (haccounted : Accounted policy maxTokens points state)
    (hclock : ∀ p ∈ points, p.now ≤ now) (hnow : 1 ≤ now ∧ now ≤ UsageState.maxSaneTimestamp) :
    UsageStateStore.Valid (currentState policy state now) ∧
      (currentState policy state now).periodStartUnix ≤ now := by
  rcases haccounted.current hclock with ⟨hsame, -⟩ | ⟨hrolled, -⟩
  · obtain ⟨p, hp, hstart⟩ := haccounted.started
    rw [hsame, ← hstart]
    exact ⟨haccounted.valid, hclock p hp⟩
  · rw [hrolled]
    exact ⟨(rollOverPeriod_valid_iff haccounted.valid now).mpr ⟨by omega, hnow.2⟩, le_rfl⟩

theorem Charged.record (h : Charged statePath usage points charges)
    (htracked : Tracked statePath policy maxTokens usage points) (hpoints : points ≠ [])
    (tokens : Nat)
    (hclocked : Clocked (points ++ [recordPoint usage statePath policy tokens now])) :
    Charged statePath (recordPoint usage statePath policy tokens now).usage
      (points ++ [recordPoint usage statePath policy tokens now]) (charges ++ [(now, tokens)]) where
  recorded charge hcharge hne := by
    rcases List.mem_append.mp hcharge with hcharge | hcharge
    · exact h.recorded_left _ charge hcharge hne
    · rw [List.mem_singleton.mp hcharge]
      exact ⟨_, List.mem_append_right _ (List.mem_singleton_self _), rfl, rfl⟩
  stored state hstate := by
    obtain ⟨hclock, hnow⟩ : (∀ q ∈ points, q.now ≤ now) ∧
        1 ≤ now ∧ now ≤ UsageState.maxSaneTimestamp := hclocked.last
    obtain ⟨stored, hload, haccounted⟩ := htracked.stored.resolve_left fun h => hpoints h.1
    have hcurrent := h.current hload haccounted hclock
    obtain ⟨hvalid, hstart⟩ := current_valid haccounted hclock hnow
    have htokens : (0 : Int) ≤ tokens := Int.natCast_nonneg tokens
    have hafter : UsageStateStore.load (recordPoint usage statePath policy tokens now).usage
        statePath = (.ok, addGeneration (currentState policy stored now) tokens) := by
      unfold recordPoint recordGeneration
      dsimp only
      rw [if_neg (not_lt.mpr htokens), hload,
        if_neg (show UsageStateLoadResult.ok ≠ .corrupted by decide)]
      exact UsageStateStore.load_save
        ((UsageStateStore.save_eq_true_iff _ _ _ _).mpr ⟨rfl, addGeneration_valid hvalid htokens⟩)
    rw [hafter] at hstate
    obtain rfl := (Prod.mk.inj hstate).2
    rw [addGeneration_eq hvalid htokens]
    dsimp only
    rw [chargedSince_append, chargedSince_singleton, if_pos hstart, hcurrent]
    omega

end Transactions

end UsageManager

end EdgeMind
