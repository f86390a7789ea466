import EdgeMind.Framework.FileStore
import EdgeMind.Framework.Lines
import EdgeMind.Usage.Accounting

/-!
# The usage state file

Loading accepts a file only as a whole: the magic line, five well-formed fields and values in their
ranges. Saving refuses what loading would not accept back, so a saved state is loaded unchanged.
-/

namespace EdgeMind

open Framework

inductive UsageStateLoadResult
  | ok
  | notFound
  | corrupted
deriving DecidableEq

namespace UsageStateStore

def kMagicLine : Bytes := text "SYJ_EDGEMIND_USAGE_STATE_V1"

/-- The loop over the lines after the magic line; blank lines are skipped. -/
def collectFields : List Bytes → Fields → Option Fields
  | [], fields => some fields
  | line :: rest, fields =>
      if line = [] then collectFields rest fields
      else
        match splitFirst 61 line with
        | none => none
        | some (key, value) => if key = [] then none else collectFields rest ((key, value) :: fields)

def validateState (state : UsageState) : Bool :=
  if state.version ≠ UsageState.usageStateVersion then false
  else if state.periodStartUnix < 0 ∨ state.periodStartUnix > UsageState.maxSaneTimestamp then false
  else if state.sessionStartUnix < 0 ∨ state.sessionStartUnix > UsageState.maxSaneTimestamp then
    false
  else if state.messagesUsedThisPeriod < 0 ∨
      state.messagesUsedThisPeriod > UsageState.maxSaneCounter then false
  else if state.tokensUsedThisPeriod < 0 ∨
      state.tokensUsedThisPeriod > UsageState.maxSaneCounter then false
  else true

def requiredKeys : List Bytes := [
  text "version", text "period_start_unix", text "messages_used_this_period",
  text "tokens_used_this_period", text "session_start_unix"]

/-- The state the fields spell out, before its ranges are checked. -/
def parseFields (fields : Fields) : Option UsageState := do
  guard (requiredKeys.all fun key => (fields.lookup key).isSome)
  let version ← strictly strtoll (← fields.lookup (text "version"))
  guard (0 ≤ version ∧ version ≤ 0x7fffffff)
  let periodStartUnix ← strictly strtoll (← fields.lookup (text "period_start_unix"))
  let messagesUsedThisPeriod ←
    strictly strtoll (← fields.lookup (text "messages_used_this_period"))
  let tokensUsedThisPeriod ← strictly strtoll (← fields.lookup (text "tokens_used_this_period"))
  let sessionStartUnix ← strictly strtoll (← fields.lookup (text "session_start_unix"))
  return { version, periodStartUnix, messagesUsedThisPeriod, tokensUsedThisPeriod,
           sessionStartUnix }

def parseState (fields : Fields) : Option UsageState :=
  (parseFields fields).bind fun parsed => if validateState parsed then some parsed else none

/-- The state is the default one unless the result is `ok`. -/
def load (fs : FileSystem) (path : Path) : UsageStateLoadResult × UsageState :=
  match (fs path).open with
  | none => (.notFound, {})
  | some content =>
      match lines content with
      | [] => (.corrupted, {})
      | magicLine :: rest =>
          if magicLine ≠ kMagicLine then (.corrupted, {})
          else
            match (collectFields rest []).bind parseState with
            | none => (.corrupted, {})
            | some parsed => (.ok, parsed)

def stateText (state : UsageState) : Bytes :=
  kMagicLine ++ text "\n" ++
    (fieldLine (text "version") (intDecimal state.version) ++
    fieldLine (text "period_start_unix") (intDecimal state.periodStartUnix) ++
    fieldLine (text "messages_used_this_period") (intDecimal state.messagesUsedThisPeriod) ++
    fieldLine (text "tokens_used_this_period") (intDecimal state.tokensUsedThisPeriod) ++
    fieldLine (text "session_start_unix") (intDecimal state.sessionStartUnix))

def save (fs : FileSystem) (path : Path) (state : UsageState) (outcome : SaveOutcome) :
    FileSystem × Bool :=
  if ¬validateState state then (fs, false)
  else replaceFile fs path (stateText state) outcome

theorem parse_field {β : Type} {fields : Fields} {key : Bytes} {rest : Int → Option β} {b : β}
    (h : ((fields.lookup key).bind fun s => (strictly strtoll s).bind rest) = some b) :
    ∃ s z, fields.lookup key = some s ∧ strictly strtoll s = some z ∧ rest z = some b := by
  obtain ⟨s, hs, h⟩ := Option.bind_eq_some_iff.mp h
  obtain ⟨z, hz, h⟩ := Option.bind_eq_some_iff.mp h
  exact ⟨s, z, hs, hz, h⟩

structure Valid (state : UsageState) : Prop where
  version : state.version = UsageState.usageStateVersion
  periodStart_nonneg : 0 ≤ state.periodStartUnix
  periodStart_le : state.periodStartUnix ≤ UsageState.maxSaneTimestamp
  sessionStart_nonneg : 0 ≤ state.sessionStartUnix
  sessionStart_le : state.sessionStartUnix ≤ UsageState.maxSaneTimestamp
  messages_nonneg : 0 ≤ state.messagesUsedThisPeriod
  messages_le : state.messagesUsedThisPeriod ≤ UsageState.maxSaneCounter
  tokens_nonneg : 0 ≤ state.tokensUsedThisPeriod
  tokens_le : state.tokensUsedThisPeriod ≤ UsageState.maxSaneCounter

theorem validateState_iff (state : UsageState) : validateState state = true ↔ Valid state := by
  unfold validateState
  constructor
  · intro h
    split_ifs at h with hver hper hses hmes htok
    simp only [not_not, not_or, not_lt] at *
    exact ⟨hver, hper.1, hper.2, hses.1, hses.2, hmes.1, hmes.2, htok.1, htok.2⟩
  · intro h
    obtain ⟨hver, hp0, hp1, hs0, hs1, hm0, hm1, ht0, ht1⟩ := h
    rw [if_neg (not_not_intro hver), if_neg (by omega), if_neg (by omega), if_neg (by omega),
      if_neg (by omega)]

theorem valid_default : Valid {} := (validateState_iff _).mp rfl

theorem load_valid (fs : FileSystem) (path : Path) : Valid (load fs path).2 := by
  unfold load
  split
  · exact valid_default
  · split
    · exact valid_default
    · split
      · exact valid_default
      · split
        · exact valid_default
        · next hparse =>
            obtain ⟨fields, -, hstate⟩ := Option.bind_eq_some_iff.mp hparse
            obtain ⟨parsed, -, hvalid⟩ := Option.bind_eq_some_iff.mp hstate
            split at hvalid
            · next hv =>
                cases hvalid
                exact (validateState_iff _).mp hv
            · cases hvalid

/-- The fields of a state, in the order in which they are written. -/
def stateFields (state : UsageState) : Fields := [
  (text "version", intDecimal state.version),
  (text "period_start_unix", intDecimal state.periodStartUnix),
  (text "messages_used_this_period", intDecimal state.messagesUsedThisPeriod),
  (text "tokens_used_this_period", intDecimal state.tokensUsedThisPeriod),
  (text "session_start_unix", intDecimal state.sessionStartUnix)]

private theorem stateFields_lines (state : UsageState) (rest : Bytes) :
    collectFields (lines ((stateFields state).flatMap (fun kv => fieldLine kv.1 kv.2) ++ rest)) [] =
      collectFields (lines rest) (stateFields state).reverse := by
  have hline (key : Bytes) (z : Int) (rest : Bytes) (fields : Fields) (hne : key ≠ [])
      (heq : (61 : UInt8) ∉ key) (hnl : (10 : UInt8) ∉ key) :
      collectFields (lines (fieldLine key (intDecimal z) ++ rest)) fields =
        collectFields (lines rest) ((key, intDecimal z) :: fields) := by
    rw [lines_fieldLine rest hnl (newline_notMem_intDecimal z), collectFields, if_neg (by simp),
      splitFirst_append 61 key _ heq]
    dsimp only
    rw [if_neg hne]
  simp only [stateFields, List.flatMap_cons, List.flatMap_nil, List.append_nil, List.append_assoc]
  rw [hline _ _ _ _ (by decide) (by decide) (by decide),
    hline _ _ _ _ (by decide) (by decide) (by decide),
    hline _ _ _ _ (by decide) (by decide) (by decide),
    hline _ _ _ _ (by decide) (by decide) (by decide),
    hline _ _ _ _ (by decide) (by decide) (by decide)]
  rfl

theorem parseState_stateFields {state : UsageState} (h : Valid state) :
    parseState (stateFields state).reverse = some state := by
  have hpresent : (requiredKeys.all fun key =>
      ((stateFields state).reverse.lookup key).isSome) = true := rfl
  have hversion : (stateFields state).reverse.lookup (text "version") =
      some (intDecimal state.version) := rfl
  have hperiod : (stateFields state).reverse.lookup (text "period_start_unix") =
      some (intDecimal state.periodStartUnix) := rfl
  have hmessages : (stateFields state).reverse.lookup (text "messages_used_this_period") =
      some (intDecimal state.messagesUsedThisPeriod) := rfl
  have htokens : (stateFields state).reverse.lookup (text "tokens_used_this_period") =
      some (intDecimal state.tokensUsedThisPeriod) := rfl
  have hsession : (stateFields state).reverse.lookup (text "session_start_unix") =
      some (intDecimal state.sessionStartUnix) := rfl
  have hread (z : Int) (h0 : 0 ≤ z) (h1 : z ≤ UsageState.maxSaneCounter) :
      strictly strtoll (intDecimal z) = some z := by
    unfold UsageState.maxSaneCounter at h1
    exact strictly_strtoll_intDecimal z (by omega) (by omega)
  have hstamp : UsageState.maxSaneTimestamp ≤ UsageState.maxSaneCounter := by decide
  have hone : state.version = 1 := h.version
  have hfields : parseFields (stateFields state).reverse = some state := by
    simp only [parseFields, hpresent, hversion, hperiod, hmessages, htokens, hsession, hone,
      hread 1 (by decide) (by decide),
      hread _ h.periodStart_nonneg (h.periodStart_le.trans hstamp),
      hread _ h.messages_nonneg h.messages_le, hread _ h.tokens_nonneg h.tokens_le,
      hread _ h.sessionStart_nonneg (h.sessionStart_le.trans hstamp), guard, Option.bind_eq_bind,
      Option.bind_some, if_true, Option.pure_def]
    rw [if_pos (by decide), Option.bind_some, ← hone]
  rw [parseState, hfields, Option.bind_some, if_pos ((validateState_iff state).mpr h)]

theorem save_eq_true_iff (fs : FileSystem) (path : Path) (state : UsageState)
    (outcome : SaveOutcome) :
    (save fs path state outcome).2 = true ↔ outcome = .ok ∧ Valid state := by
  rw [← validateState_iff]
  unfold save
  split
  · next h => simp [h]
  · next h => cases outcome <;> simp [replaceFile, not_not.mp h]

theorem load_stateText {fs : FileSystem} {path : Path} {state : UsageState} (h : Valid state)
    (hfile : fs path = .file (stateText state) true) : load fs path = (.ok, state) := by
  have hopen : (fs path).open = some (stateText state) := by rw [hfile]; rfl
  have hmagic : (10 : UInt8) ∉ kMagicLine := by decide
  have hbody : stateText state =
      kMagicLine ++ 10 :: (stateFields state).flatMap fun kv => fieldLine kv.1 kv.2 := by
    have hnl : text "\n" = [10] := rfl
    simp only [stateText, stateFields, hnl, List.flatMap_cons, List.flatMap_nil, List.append_nil,
      List.append_assoc, List.singleton_append]
  have hcollect := stateFields_lines state []
  rw [List.append_nil, lines_nil, collectFields] at hcollect
  rw [load, hopen]
  dsimp only
  rw [hbody, lines_terminated _ _ hmagic]
  dsimp only
  rw [if_neg (not_not_intro rfl), hcollect, Option.bind_some, parseState_stateFields h]

theorem save_file {fs : FileSystem} {path : Path} {state : UsageState} {outcome : SaveOutcome}
    (h : (save fs path state outcome).2 = true) :
    (save fs path state outcome).1 path = .file (stateText state) true := by
  obtain ⟨rfl, hvalid⟩ := (save_eq_true_iff fs path state outcome).mp h
  rw [save, if_neg (not_not_intro ((validateState_iff state).mpr hvalid))]
  exact replaceFile_ok _ _ _

theorem load_save {fs : FileSystem} {path : Path} {state : UsageState} {outcome : SaveOutcome}
    (h : (save fs path state outcome).2 = true) :
    load (save fs path state outcome).1 path = (.ok, state) :=
  load_stateText ((save_eq_true_iff fs path state outcome).mp h).2 (save_file h)

theorem save_failed {fs : FileSystem} {path : Path} {state : UsageState} {outcome : SaveOutcome}
    (h : (save fs path state outcome).2 = false) :
    (save fs path state outcome).1 path = fs path := by
  unfold save at h ⊢
  split at h
  · next hv => rw [if_pos hv]
  · next hv =>
      rw [if_neg hv]
      exact replaceFile_failed _ _ _ _ h

theorem load_congr {fs fs' : FileSystem} {path : Path} (h : fs path = fs' path) :
    load fs path = load fs' path := by
  rw [load, load, h]

theorem save_local (path : Path) (state : UsageState) (outcome : SaveOutcome) :
    LocalTo path fun fs => save fs path state outcome := by
  unfold save
  exact .ite (.keep false) (.replaceFile _ outcome)

theorem load_fresh {fs : FileSystem} {path : Path} (h : (load fs path).1 ≠ .ok) :
    (load fs path).2 = {} := by
  unfold load at h ⊢
  split at h
  · rfl
  · split at h
    · rfl
    · split at h
      · rw [if_pos ‹_›]
      · rw [if_neg ‹_›]
        split at h
        · rfl
        · exact absurd rfl h

/-- The states that are saved are those that pass the check, and they are loaded unchanged; whatever
the file holds, a state that is loaded passes the check, and any other load leaves the fresh one. -/
theorem usageState_codec (fs : FileSystem) (path : Path) :
    (∀ state, ((save fs path state .ok).2 = true ↔ validateState state = true) ∧
      (validateState state = true →
        load (save fs path state .ok).1 path = (.ok, state))) ∧
    ((load fs path).1 = .ok → validateState (load fs path).2 = true ∧ Valid (load fs path).2) ∧
    ((load fs path).1 ≠ .ok → (load fs path).2 = {}) := by
  have hvalid := load_valid fs path
  refine ⟨fun state => ?_, fun _ => ⟨(validateState_iff _).mpr hvalid, hvalid⟩, load_fresh⟩
  have hsave : (save fs path state .ok).2 = true ↔ validateState state = true := by
    rw [save_eq_true_iff, validateState_iff, and_iff_right rfl]
  exact ⟨hsave, fun h => load_save (hsave.mpr h)⟩

end UsageStateStore

end EdgeMind
