import EdgeMind.Usage.Manager

/-!
# Truncated usage files

The format has no end marker, but a file that breaks off anywhere before the digits of its last field
is corrupted. What is loaded from one that breaks off in these digits is the state that was written
with an earlier session start, which admits no more than the state itself.
-/

namespace EdgeMind

open Framework

namespace UsageStateStore

def stateLines (state : UsageState) : List Bytes :=
  kMagicLine :: (stateFields state).map fun kv => kv.1 ++ 61 :: kv.2

theorem stateText_eq_unlines (state : UsageState) : stateText state = unlines (stateLines state) := by
  have hnl : text "\n" = [10] := rfl
  have heq : text "=" = [61] := rfl
  simp only [stateText, stateLines, stateFields, fieldLine, unlines, hnl, heq, List.map_cons,
    List.map_nil, List.flatMap_cons, List.flatMap_nil, List.append_nil, List.append_assoc,
    List.cons_append, List.nil_append]

theorem newline_notMem_stateLines (state : UsageState) :
    ∀ line ∈ stateLines state, (10 : UInt8) ∉ line := by
  have hfield {key : Bytes} (z : Int) (hkey : (10 : UInt8) ∉ key) :
      (10 : UInt8) ∉ key ++ 61 :: intDecimal z := by
    rw [List.mem_append, List.mem_cons, not_or, not_or]
    exact ⟨hkey, by decide, newline_notMem_intDecimal z⟩
  simp only [stateLines, stateFields, List.map_cons, List.map_nil, List.forall_mem_cons]
  exact ⟨by decide, hfield _ (by decide), hfield _ (by decide), hfield _ (by decide),
    hfield _ (by decide), hfield _ (by decide), by simp⟩

theorem lines_stateText (state : UsageState) : lines (stateText state) = stateLines state := by
  have h := lines_unlines_append [] (newline_notMem_stateLines state)
  rwa [List.append_nil, lines_nil, List.append_nil, ← stateText_eq_unlines] at h

theorem load_of_lines {fs fs' : FileSystem} {path : Path} {content content' : Bytes}
    (h : (fs path).open = some content) (h' : (fs' path).open = some content')
    (hlines : lines content = lines content') : load fs path = load fs' path := by
  rw [load, load, h, h']
  dsimp only
  rw [hlines]

theorem load_opened {fs : FileSystem} {path : Path} {content : Bytes}
    (h : (fs path).open = some content) :
    load fs path = (.corrupted, {}) ∨ ∃ rest fields state, lines content = kMagicLine :: rest ∧
      collectFields rest [] = some fields ∧ parseState fields = some state := by
  rw [load, h]
  dsimp only
  split
  · exact .inl rfl
  · next magicLine rest hlines =>
      by_cases hmagic : magicLine = kMagicLine
      · rw [if_neg (not_not_intro hmagic)]
        split
        · exact .inl rfl
        · next state hparse =>
            obtain ⟨fields, hfields, hstate⟩ := Option.bind_eq_some_iff.mp hparse
            exact .inr ⟨rest, fields, state, by rw [hlines, hmagic], hfields, hstate⟩
      · rw [if_pos hmagic]
        exact .inl rfl

theorem collectFields_lookup {ls : List Bytes} {acc fields : Fields} {key value : Bytes}
    (h : collectFields ls acc = some fields) (hvalue : fields.lookup key = some value) :
    acc.lookup key = some value ∨ key ++ 61 :: value ∈ ls := by
  induction ls generalizing acc with
  | nil =>
      cases h
      exact .inl hvalue
  | cons line ls ih =>
      rw [collectFields] at h
      split at h
      · exact (ih h).imp_right (List.mem_cons_of_mem line)
      · split at h
        · cases h
        · next k v hsplit =>
            split at h
            · cases h
            · rcases ih h with hacc | hmem
              · rw [List.lookup_cons] at hacc
                split at hacc
                · next hkey =>
                    cases hacc
                    rw [eq_of_beq hkey, ← splitFirst_eq_some hsplit]
                    exact .inr List.mem_cons_self
                · exact .inl hacc
              · exact .inr (List.mem_cons_of_mem line hmem)

theorem parseState_sessionStart {fields : Fields} {state : UsageState}
    (h : parseState fields = some state) : ∃ value z,
      fields.lookup (text "session_start_unix") = some value ∧ strictly strtoll value = some z := by
  obtain ⟨parsed, h, -⟩ := Option.bind_eq_some_iff.mp h
  unfold parseFields at h
  obtain ⟨_, -, h⟩ := Option.bind_eq_some_iff.mp h
  obtain ⟨_, _, -, -, h⟩ := parse_field h
  obtain ⟨_, -, h⟩ := Option.bind_eq_some_iff.mp h
  obtain ⟨_, _, -, -, h⟩ := parse_field h
  obtain ⟨_, _, -, -, h⟩ := parse_field h
  obtain ⟨_, _, -, -, h⟩ := parse_field h
  obtain ⟨value, z, hvalue, hz, -⟩ := parse_field h
  exact ⟨value, z, hvalue, hz⟩

private theorem sessionStart_notMem (state : UsageState) (value : Bytes) :
    text "session_start_unix" ++ 61 :: value ∉ (stateLines state).dropLast := by
  have hcut (k v : Bytes) (hk : (61 : UInt8) ∉ k)
      (h : text "session_start_unix" ++ 61 :: value = k ++ 61 :: v) :
      text "session_start_unix" = k := by
    have hsplit := splitFirst_append 61 (text "session_start_unix") value (by decide)
    rw [h, splitFirst_append 61 k v hk, Option.some.injEq, Prod.mk.injEq] at hsplit
    exact hsplit.1.symm
  intro h
  simp only [stateLines, stateFields, List.map_cons, List.map_nil, List.dropLast_cons_cons,
    List.dropLast_singleton, List.mem_cons, List.not_mem_nil, or_false] at h
  rcases h with h | h | h | h | h
  · cases h
  · exact absurd (hcut _ _ (by decide) h) (by decide)
  · exact absurd (hcut _ _ (by decide) h) (by decide)
  · exact absurd (hcut _ _ (by decide) h) (by decide)
  · exact absurd (hcut _ _ (by decide) h) (by decide)

private theorem stateLines_concat (state : UsageState) :
    stateLines state = (stateLines state).dropLast ++
      [text "session_start_unix" ++ 61 :: intDecimal state.sessionStartUnix] :=
  rfl

private theorem cut_last {state : UsageState} {whole rest : List Bytes} {next cut value : Bytes}
    (hlines : stateLines state = whole ++ next :: rest) (hcut : cut <+: next)
    (hmem : text "session_start_unix" ++ 61 :: value ∈ whole ++ lines cut) :
    whole = (stateLines state).dropLast ∧ cut = text "session_start_unix" ++ 61 :: value ∧
      value <+: intDecimal state.sessionStartUnix := by
  have hno := sessionStart_notMem state
  have hdrop : (stateLines state).dropLast = whole ++ (next :: rest).dropLast := by
    rw [hlines, List.dropLast_append_of_ne_nil (List.cons_ne_nil next rest)]
  have hline : cut = text "session_start_unix" ++ 61 :: value := by
    have hlast := (List.mem_append.mp hmem).resolve_left
      fun h => hno value (hdrop ▸ List.mem_append_left _ h)
    have hnl : (10 : UInt8) ∉ cut := fun h =>
      newline_notMem_stateLines state next (by simp [hlines]) (hcut.subset h)
    by_cases hnil : cut = []
    · rw [hnil] at hlast
      cases hlast
    · rw [lines_unterminated hnl hnil, List.mem_singleton] at hlast
      exact hlast.symm
  subst hline
  have hrest : rest = [] := by
    by_contra hne
    obtain ⟨more, rfl⟩ := hcut
    refine hno (value ++ more) ?_
    rw [hdrop, List.dropLast_cons_of_ne_nil hne]
    simp
  subst hrest
  have hconcat := stateLines_concat state
  rw [hlines] at hconcat
  obtain ⟨hwhole, hnext⟩ := List.append_inj' hconcat rfl
  rw [← hlines] at hwhole
  cases hnext
  rw [List.prefix_append_right_inj, List.cons_prefix_cons] at hcut
  exact ⟨hwhole, rfl, hcut.2⟩

/-- A file that breaks off is corrupted or holds the state with digits of its session start cut
off. -/
theorem load_truncated {state : UsageState} (h : Valid state) {fs : FileSystem} {path : Path}
    {kept : Bytes} (hfile : (fs path).open = some kept) (hkept : kept <+: stateText state)
    (hne : kept ≠ stateText state) :
    load fs path = (.corrupted, {}) ∨ ∃ sessionStartUnix,
      load fs path = (.ok, { state with sessionStartUnix }) ∧
        sessionStartUnix ≤ state.sessionStartUnix ∧
        (0 < state.sessionStartUnix → 0 < sessionStartUnix) := by
  rcases load_opened hfile with hcorrupted | ⟨fieldLines, fields, parsed, hlines, hfields, hparse⟩
  · exact .inl hcorrupted
  obtain ⟨value, z, hvalue, hz⟩ := parseState_sessionStart hparse
  have hmem := (collectFields_lookup hfields hvalue).resolve_left (by simp)
  have hmem := List.mem_cons_of_mem kMagicLine hmem
  rw [stateText_eq_unlines] at hkept hne
  obtain ⟨whole, next, rest, cut, hstate, hcut, rfl⟩ := prefix_unlines hkept hne
  have hwhole : ∀ line ∈ whole, (10 : UInt8) ∉ line := fun line hline =>
    newline_notMem_stateLines state line (hstate ▸ List.mem_append_left _ hline)
  rw [← hlines, lines_unlines_append cut hwhole] at hmem
  obtain ⟨hdrop, rfl, hdigits⟩ := cut_last hstate hcut hmem
  have hvalue : value ≠ [] := by
    rintro rfl
    cases hz
  have hstart := h.sessionStart_nonneg
  rw [intDecimal, if_neg (by omega)] at hdigits
  obtain ⟨k, rfl, hpos⟩ := decimal_prefix hdigits hvalue
  have hle := Nat.div_le_self state.sessionStartUnix.natAbs (10 ^ k)
  generalize state.sessionStartUnix.natAbs / 10 ^ k = start at hpos hle hmem hlines hfile
  refine .inr ⟨start, ?_, by omega, by omega⟩
  have hvalid : Valid { state with sessionStartUnix := start } := { h with
    sessionStart_nonneg := by dsimp only; omega
    sessionStart_le := by have := h.sessionStart_le; dsimp only; omega }
  -- Up to the newline that is missing at its end, the file is the one of that state.
  let whole' : FileSystem := fun _ => .file (stateText { state with sessionStartUnix := start }) true
  have hload : load whole' path = (.ok, { state with sessionStartUnix := start }) :=
    load_stateText hvalid rfl
  rw [← hload]
  refine load_of_lines hfile rfl ?_
  have hprinted : intDecimal (start : Int) = decimal start := by
    rw [intDecimal, if_neg (by omega), Int.natAbs_natCast]
  have hconcat := stateLines_concat { state with sessionStartUnix := (start : Int) }
  have hnl := newline_notMem_stateLines { state with sessionStartUnix := (start : Int) }
    (text "session_start_unix" ++ 61 :: decimal start) (by rw [hconcat, hprinted]; simp)
  rw [lines_unlines_append _ hwhole, lines_stateText, hconcat, hdrop, hprinted,
    lines_unterminated hnl (by simp)]
  rfl

end UsageStateStore

open UsageAccounting in
theorem UsageManager.allowed_of_earlier {policy : UsagePolicy} {state : UsageState} {now : Int}
    {sessionStartUnix : Int} (hle : sessionStartUnix ≤ state.sessionStartUnix)
    (hpos : 0 < state.sessionStartUnix → 0 < sessionStartUnix)
    (h : (evaluate policy (currentState policy { state with sessionStartUnix } now) now).allowed =
      true) : (evaluate policy (currentState policy state now) now).allowed = true := by
  have hcounters : currentState policy { state with sessionStartUnix } now =
      { currentState policy state now with sessionStartUnix } := by
    have hrolled : periodHasRolledOver policy { state with sessionStartUnix } now =
        periodHasRolledOver policy state now := rfl
    rw [currentState, currentState, hrolled]
    split <;> rfl
  rw [hcounters, evaluate_allowed_iff] at h
  rw [evaluate_allowed_iff]
  obtain ⟨htime, hcounted⟩ := h
  refine ⟨fun hlate => htime ?_, hcounted⟩
  rw [TimeExhausted, currentState_sessionStart] at hlate
  obtain ⟨hlimit, hstarted, hnow, helapsed⟩ := hlate
  refine ⟨hlimit, hpos hstarted, ?_, ?_⟩
  · dsimp only
    omega
  · dsimp only
    omega

/-- A usage file that breaks off before its end is corrupted or admits nothing that the whole file
does not admit, under any policy and at any time. -/
theorem truncated_usage_admits {fs fs' : FileSystem} {path : Path} {state : UsageState}
    {written kept : Bytes} (hvalid : UsageStateStore.validateState state = true)
    (hwritten : ((UsageStateStore.save fs path state .ok).1 path).open = some written)
    (hkept : kept <+: written) (hne : kept ≠ written) (hfile : (fs' path).open = some kept) :
    (UsageStateStore.load fs' path).1 = .corrupted ∨
      ∃ state', UsageStateStore.load fs' path = (.ok, state') ∧
        ∀ (policy : UsagePolicy) (now : Int) (outcome outcome' : SaveOutcome),
          (UsageManager.checkAdmission fs' path policy now outcome).2.allowed = true →
          (UsageManager.checkAdmission (UsageStateStore.save fs path state .ok).1 path policy now
            outcome').2.allowed = true := by
  rw [UsageStateStore.validateState_iff] at hvalid
  have hsaved : (UsageStateStore.save fs path state .ok).1 path =
      .file (UsageStateStore.stateText state) true :=
    UsageStateStore.save_file ((UsageStateStore.save_eq_true_iff _ _ _ _).mpr ⟨rfl, hvalid⟩)
  rw [hsaved] at hwritten
  cases hwritten
  rcases UsageStateStore.load_truncated hvalid hfile hkept hne with hload | hload
  · exact .inl (by rw [hload])
  · obtain ⟨sessionStartUnix, hload, hle, hpos⟩ := hload
    refine .inr ⟨_, hload, fun policy now outcome outcome' hallowed => ?_⟩
    rw [UsageManager.checkAdmission_decision, UsageStateStore.load_stateText hvalid hsaved]
    rw [UsageManager.checkAdmission_decision, hload] at hallowed
    exact UsageManager.allowed_of_earlier hle hpos hallowed

/-- A file that lacks the last digits of its session start is loaded, and denies what the whole file
denies. -/
theorem truncated_usage_admits_cut :
    let state : UsageState := { periodStartUnix := 1700000000, sessionStartUnix := 1700000000 }
    let cut : FileSystem := fun _ => .file ((UsageStateStore.stateText state).take 145) true
    (UsageStateStore.load cut (text "u")).2.sessionStartUnix = 17000 ∧
      (UsageManager.checkAdmission cut (text "u") { sessionTimeLimitSeconds := 3600 } 1700003600
        .ok).2.allowed = false := by
  intro state cut
  have hload : UsageStateStore.load cut (text "u") =
      (.ok, { state with sessionStartUnix := 17000 }) := by
    decide +kernel
  have hdenied : (UsageManager.checkAdmission
      (UsageStateStore.save (fun _ => .absent) (text "u") state .ok).1 (text "u")
      { sessionTimeLimitSeconds := 3600 } 1700003600 .ok).2.allowed = false := by
    decide +kernel
  have hcut := @truncated_usage_admits (fun _ => .absent) cut (text "u") state
    (UsageStateStore.stateText state) ((UsageStateStore.stateText state).take 145) (by decide) rfl
    (List.take_prefix _ _) (by decide +kernel) rfl
  rw [hload] at hcut ⊢
  obtain ⟨state', -, hadmits⟩ := hcut.resolve_left (by decide)
  refine ⟨rfl, Bool.eq_false_iff.mpr fun hallowed => ?_⟩
  have h := hadmits { sessionTimeLimitSeconds := 3600 } 1700003600 .ok .ok hallowed
  rw [hdenied] at h
  cases h

end EdgeMind
