import EdgeMind.Model.RegistryBlocks
import EdgeMind.Usage.StateStore

/-!
# Numbers in the stored files

Both stores hand the text of a number to the C conversions, which pass over white space, take a plus
sign and negate an unsigned number. A file that is loaded spells its numbers as its format has them
exactly if none of the texts that are read begins in one of these ways.
-/

namespace EdgeMind

open Framework

theorem strictParseI64_toInt {s : Bytes} {v : Int64} (h : strictParseI64 s = some v) :
    strictly strtoll s = some v.toInt := by
  obtain ⟨z, hz, rfl⟩ := Option.map_eq_some_iff.mp h
  obtain ⟨-, -, -, -, -, -, hlow, hhigh⟩ := strictly_strtoll_scan hz
  rw [Int64.toInt_ofInt_of_le hlow hhigh]
  exact hz

theorem strictParseU64_toNat {s : Bytes} {v : UInt64} (h : strictParseU64 s = some v) :
    strictly strtoull s = some v.toNat := by
  obtain ⟨n, hn, rfl⟩ := Option.map_eq_some_iff.mp h
  obtain ⟨neg, u, -, -, -, heq, hlt⟩ := strictly_strtoull_scan hn
  have hlt : n < 2 ^ 64 := by
    rw [heq]
    split
    · exact Nat.mod_lt _ (by decide)
    · exact hlt
  rw [UInt64.toNat_ofNat_of_lt' hlt]
  exact hn

theorem statusToInt_intToStatus {v : Int} {status : VerificationStatus}
    (h : intToStatus v = some status) : statusToInt status = v := by
  unfold intToStatus at h
  split at h
  · cases h
  · next hrange =>
      rw [not_or, not_lt, gt_iff_lt, not_lt] at hrange
      obtain ⟨hlow, hhigh⟩ := hrange
      change 0 ≤ v at hlow
      change v ≤ 10 at hhigh
      obtain ⟨n, rfl⟩ := Int.eq_ofNat_of_zero_le hlow
      have hn : n ≤ 10 := by omega
      rw [Int.toNat_natCast] at h
      interval_cases n <;> cases h <;> rfl

namespace ModelRegistry

/-- The text of a field that is read, in the last of its lines. -/
def fieldText (block : List Bytes) (key : Bytes) : Option Bytes :=
  (blockFields block).bind (List.lookup key)

/-- The fields that are numbers: whether they are signed, and their values in an entry. -/
def entryNumbers (e : RegistryEntry) : List (Bytes × Bool × Int) := [
  (text "file_size_bytes", false, e.fileSizeBytes.toNat),
  (text "verification_status", true, statusToInt e.verificationStatus),
  (text "verified_at_unix", true, e.verifiedAtUnix.toInt)]

def numericFields : List (Bytes × Bool) := [
  (text "file_size_bytes", false), (text "verification_status", true),
  (text "verified_at_unix", true)]

/-- The numbers of the entry are spelt out in its block. -/
def StrictEntry (block : List Bytes) (e : RegistryEntry) : Prop :=
  ∀ number ∈ entryNumbers e, ∃ s, fieldText block number.1 = some s ∧
    Denotes number.2.1 s number.2.2

/-- A number of the block begins as only the conversions allow. -/
def LenientBlock (block : List Bytes) : Prop :=
  ∃ field ∈ numericFields, ∃ s, fieldText block field.1 = some s ∧ lenientStart field.2 s = true

/-- Every block can be read although a number is not spelt as the format has it. -/
def LenientRegistry (content : Bytes) : Prop :=
  ∃ blocks, Readable content blocks ∧ ∃ block ∈ blocks, LenientBlock block

theorem FieldOf.size {e : RegistryEntry} {value : Bytes}
    (h : FieldOf e (text "file_size_bytes") value) : strictParseU64 value = some e.fileSizeBytes := by
  generalize hkey : text "file_size_bytes" = key at h
  cases h with
  | fileSizeBytes h => exact h
  | _ => exact absurd hkey (by decide)

theorem FieldOf.status {e : RegistryEntry} {value : Bytes}
    (h : FieldOf e (text "verification_status") value) :
    ∃ status, strictParseI64 value = some status ∧
      status.toInt = statusToInt e.verificationStatus := by
  generalize hkey : text "verification_status" = key at h
  cases h with
  | verificationStatus h hstatus => exact ⟨_, h, (statusToInt_intToStatus hstatus).symm⟩
  | _ => exact absurd hkey (by decide)

theorem FieldOf.time {e : RegistryEntry} {value : Bytes}
    (h : FieldOf e (text "verified_at_unix") value) :
    strictParseI64 value = some e.verifiedAtUnix := by
  generalize hkey : text "verified_at_unix" = key at h
  cases h with
  | verifiedAtUnix h => exact h
  | _ => exact absurd hkey (by decide)

theorem strictEntry_iff {block : List Bytes} {e : RegistryEntry} (h : readBlock block = some e) :
    StrictEntry block e ↔ ¬LenientBlock block := by
  obtain ⟨fields, hfields, he⟩ := Option.bind_eq_some_iff.mp h
  have hfield (key : Bytes) (hkey : key ∈ kFieldOrder) :
      ∃ s, fieldText block key = some s ∧ FieldOf e key s := by
    rw [fieldText, hfields]
    exact fieldsToEntry_fieldOf he key hkey
  obtain ⟨size, hsize, hsizeOf⟩ := hfield (text "file_size_bytes") (by decide)
  obtain ⟨status, hstatus, hstatusOf⟩ := hfield (text "verification_status") (by decide)
  obtain ⟨time, htime, htimeOf⟩ := hfield (text "verified_at_unix") (by decide)
  obtain ⟨v, hv, hvalue⟩ := hstatusOf.status
  have hsizeIff := strictly_strtoull_denotes (strictParseU64_toNat hsizeOf.size)
  have hstatusIff := strictly_strtoll_denotes (strictParseI64_toInt hv)
  have htimeIff := strictly_strtoll_denotes (strictParseI64_toInt htimeOf.time)
  rw [hvalue] at hstatusIff
  simp only [StrictEntry, entryNumbers, LenientBlock, numericFields, List.forall_mem_cons,
    List.exists_mem_cons_iff, hsize, hstatus, htime, Option.some.injEq, exists_eq_left', hsizeIff,
    hstatusIff, htimeIff]
  simp

end ModelRegistry

namespace UsageStateStore

/-- The fields of a state file, if the file holds a state. -/
def stateFileFields (content : Bytes) : Option Fields :=
  match lines content with
  | [] => none
  | magicLine :: rest =>
      if magicLine ≠ kMagicLine then none
      else (collectFields rest []).filter fun fields => (parseState fields).isSome

def stateNumbers (state : UsageState) : List (Bytes × Int) := [
  (text "version", state.version), (text "period_start_unix", state.periodStartUnix),
  (text "messages_used_this_period", state.messagesUsedThisPeriod),
  (text "tokens_used_this_period", state.tokensUsedThisPeriod),
  (text "session_start_unix", state.sessionStartUnix)]

/-- The numbers of the state are spelt out in the fields. -/
def StrictState (fields : Fields) (state : UsageState) : Prop :=
  ∀ number ∈ stateNumbers state, ∃ s, fields.lookup number.1 = some s ∧ Denotes true s number.2

/-- The file holds a state although a number is not spelt as the format has it. -/
def LenientState (content : Bytes) : Prop :=
  ∃ fields, stateFileFields content = some fields ∧ ∃ key ∈ requiredKeys, ∃ s,
    fields.lookup key = some s ∧ lenientStart true s = true

theorem load_fields {fs : FileSystem} {path : Path} {content : Bytes}
    (h : (fs path).open = some content) :
    load fs path =
      match (stateFileFields content).bind parseState with
      | none => (.corrupted, {})
      | some state => (.ok, state) := by
  rw [load, h]
  dsimp only
  unfold stateFileFields
  cases lines content with
  | nil => rfl
  | cons magicLine rest =>
      dsimp only
      split
      · rfl
      · congr 1
        cases collectFields rest [] with
        | none => rfl
        | some fields =>
            rw [Option.filter_some]
            split
            · rfl
            · next hparse =>
                rw [Bool.not_eq_true, Option.isSome_eq_false_iff, Option.isNone_iff_eq_none] at hparse
                rw [Option.bind_some, hparse]
                rfl

theorem parseState_stateFileFields {content : Bytes} {fields : Fields}
    (h : stateFileFields content = some fields) : ∃ state, parseState fields = some state := by
  unfold stateFileFields at h
  split at h
  · cases h
  · split at h
    · cases h
    · exact Option.isSome_iff_exists.mp (Option.filter_eq_some_iff.mp h).2

theorem strictState_iff {fields : Fields} {state : UsageState} (h : parseState fields = some state) :
    StrictState fields state ↔
      ¬∃ key ∈ requiredKeys, ∃ s, fields.lookup key = some s ∧ lenientStart true s = true := by
  obtain ⟨parsed, h, hvalid⟩ := Option.bind_eq_some_iff.mp h
  split at hvalid
  case isFalse => cases hvalid
  cases hvalid
  unfold parseFields at h
  obtain ⟨-, -, h⟩ := Option.bind_eq_some_iff.mp h
  obtain ⟨s0, z0, h0, d0, h⟩ := parse_field h
  obtain ⟨-, -, h⟩ := Option.bind_eq_some_iff.mp h
  obtain ⟨s1, z1, h1, d1, h⟩ := parse_field h
  obtain ⟨s2, z2, h2, d2, h⟩ := parse_field h
  obtain ⟨s3, z3, h3, d3, h⟩ := parse_field h
  obtain ⟨s4, z4, h4, d4, h⟩ := parse_field h
  cases h
  simp only [StrictState, stateNumbers, requiredKeys, List.forall_mem_cons,
    List.exists_mem_cons_iff, h0, h1, h2, h3, h4, Option.some.injEq, exists_eq_left',
    strictly_strtoll_denotes d0, strictly_strtoll_denotes d1, strictly_strtoll_denotes d2,
    strictly_strtoll_denotes d3, strictly_strtoll_denotes d4]
  simp

end UsageStateStore

/-- A file that either store loads spells out its numbers exactly if no text of a number begins as
only the conversions allow. -/
theorem strictNumbers_iff {fs : FileSystem} {path : Path} {content : Bytes}
    (h : (fs path).open = some content) :
    ((∀ entries, ModelRegistry.load fs path = (.ok, entries) →
        ∃ blocks, registryBlocks content = some blocks ∧
          List.Forall₂ ModelRegistry.StrictEntry blocks entries) ↔
      ¬ModelRegistry.LenientRegistry content) ∧
    ((∀ state, UsageStateStore.load fs path = (.ok, state) →
        UsageStateStore.Valid state ∧ ∃ fields,
          UsageStateStore.stateFileFields content = some fields ∧
            UsageStateStore.StrictState fields state) ↔
      ¬UsageStateStore.LenientState content) := by
  refine ⟨ModelRegistry.load_forall_iff (fun _ _ => ModelRegistry.strictEntry_iff) h, ?_⟩
  have hvalid := UsageStateStore.load_valid fs path
  rw [UsageStateStore.load_fields h] at hvalid ⊢
  unfold UsageStateStore.LenientState
  cases hfields : UsageStateStore.stateFileFields content with
  | none => simp
  | some fields =>
      rw [hfields, Option.bind_some] at hvalid
      rw [Option.bind_some]
      obtain ⟨state, hstate⟩ := UsageStateStore.parseState_stateFileFields hfields
      rw [hstate] at hvalid ⊢
      simp only [Prod.mk.injEq, true_and, Option.some.injEq, exists_eq_left', forall_eq',
        UsageStateStore.strictState_iff hstate]
      exact and_iff_right hvalid

/-- The lines of an entry of a file that is said to have the given size. -/
def sizedBlock (size : Bytes) : List Bytes :=
  (entryFields { modelId := text "a" }).map fun kv =>
    kv.1 ++ 61 :: if kv.1 = text "file_size_bytes" then size else kv.2

def sizedRegistry (size : Bytes) : Bytes :=
  kMagicLine ++ 10 :: (sizedBlock size).flatMap (· ++ [10])

/-- A negative size is loaded as a large one. -/
theorem strictNumbers_negative :
    let fs : FileSystem := fun _ => .file (sizedRegistry (text "-1")) true
    ModelRegistry.load fs (text "r") =
        (.ok, [{ modelId := text "a", fileSizeBytes := 18446744073709551615 }]) ∧
      ¬∃ blocks, registryBlocks (sizedRegistry (text "-1")) = some blocks ∧
        List.Forall₂ ModelRegistry.StrictEntry blocks
          [{ modelId := text "a", fileSizeBytes := 18446744073709551615 }] := by
  intro fs
  have hblocks : registryBlocks (sizedRegistry (text "-1")) = some [sizedBlock (text "-1")] := by
    decide +kernel
  have hsize : ModelRegistry.fieldText (sizedBlock (text "-1")) (text "file_size_bytes") =
      some (text "-1") := by
    decide +kernel
  refine ⟨by decide +kernel, ?_⟩
  rintro ⟨blocks, hread, hstrict⟩
  cases hblocks.symm.trans hread
  obtain ⟨s, hs, hdenotes⟩ := (List.forall₂_cons.mp hstrict).1 _ List.mem_cons_self
  cases hsize.symm.trans hs
  exact absurd hdenotes.start (by decide)

/-- The file of a fresh state spells out its numbers. -/
theorem strictNumbers_fresh : ∃ fields,
    UsageStateStore.stateFileFields (UsageStateStore.stateText {}) = some fields ∧
      UsageStateStore.StrictState fields {} := by
  let fs : FileSystem := fun _ => .file (UsageStateStore.stateText {}) true
  have hload : UsageStateStore.load fs (text "u") = (.ok, {}) :=
    UsageStateStore.load_stateText UsageStateStore.valid_default rfl
  have hplain : ((UsageStateStore.stateFileFields (UsageStateStore.stateText {})).getD []).all
      (fun kv => !lenientStart true kv.2) = true := by
    decide +kernel
  refine ((@strictNumbers_iff fs (text "u") (UsageStateStore.stateText {}) rfl).2.mpr ?_ {} hload).2
  rintro ⟨fields, hfields, key, -, s, hs, hlenient⟩
  obtain ⟨before, after, hsplit, -⟩ := List.lookup_eq_some_iff.mp hs
  rw [hfields, Option.getD_some, hsplit, List.all_append, List.all_cons, hlenient] at hplain
  simp at hplain

end EdgeMind
