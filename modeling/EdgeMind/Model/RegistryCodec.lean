import EdgeMind.Model.Registry

/-!
# The registry codec

What a successful save writes is read back as the same list of entries, for all field contents and
all numbers of their types. Escaping keeps the delimiters out of the encoded fields, so a line is
cut where it was joined, and each entry is flushed by its own blank line.
-/

namespace EdgeMind

open Framework

private theorem hexVal_digit {n : Nat} (h : n < 16) :
    hexVal ((text "0123456789ABCDEF").getD n 0) = some n := by
  have hall : ∀ k : Fin 16, hexVal ((text "0123456789ABCDEF").getD k.val 0) = some k.val := by
    decide
  exact hall ⟨n, h⟩

private theorem join_nibbles (c : UInt8) :
    UInt8.ofNat (((c.toNat / 16) <<< 4) ||| (c.toNat % 16)) = c := by
  have hmod : c.toNat % 16 < 2 ^ 4 := Nat.mod_lt _ (by decide)
  rw [Nat.or_comm, shiftLeft_or_value _ _ 4 hmod]
  apply UInt8.toNat_inj.mp
  have hc := c.toNat_lt
  rw [UInt8.toNat_ofNat']
  omega

private theorem percentDecode_encodeByte (c : UInt8) (rest : Bytes) :
    percentDecode (percentEncodeByte c ++ rest) = (percentDecode rest).map (c :: ·) := by
  have hc := c.toNat_lt
  unfold percentEncodeByte
  split
  · change percentDecode (37 :: (text "0123456789ABCDEF").getD (c.toNat / 16) 0 ::
      (text "0123456789ABCDEF").getD (c.toNat % 16) 0 :: rest) = _
    rw [percentDecode, hexVal_digit (by omega), hexVal_digit (by omega)]
    cases h : percentDecode rest with
    | none => rfl
    | some out =>
        simp only [Option.bind_eq_bind, Option.bind_some, join_nibbles]
        rfl
  · next h =>
      have hne : c ≠ 37 := by
        intro h
        subst h
        exact h rfl
      rw [List.singleton_append, percentDecode]
      · cases percentDecode rest <;> rfl
      · exact fun _ _ _ he _ => hne he
      · exact hne

theorem percentDecode_encode (s : Bytes) : percentDecode (percentEncode s) = some s := by
  induction s with
  | nil => rfl
  | cons c s ih =>
      rw [percentEncode, List.flatMap_cons, ← percentEncode, percentDecode_encodeByte, ih]
      rfl

theorem newline_notMem_percentEncode (s : Bytes) : (10 : UInt8) ∉ percentEncode s := by
  intro hmem
  obtain ⟨c, -, hc⟩ := List.mem_flatMap.mp hmem
  unfold percentEncodeByte at hc
  split at hc
  · rcases List.mem_cons.mp hc with h | h
    · exact absurd h (by decide)
    · exact absurd (mem_of_mem_hexByte rfl h) (by decide)
  · next h =>
      rw [List.mem_singleton] at hc
      subst hc
      exact h rfl

theorem strictParseU64_decimal (n : UInt64) : strictParseU64 (decimal n.toNat) = some n := by
  rw [strictParseU64, strictly_strtoull_decimal n.toNat n.toNat_lt, Option.map_some,
    UInt64.ofNat_toNat]

theorem strictParseI64_intDecimal (z : Int64) : strictParseI64 (intDecimal z.toInt) = some z := by
  rw [strictParseI64, strictly_strtoll_intDecimal z.toInt z.le_toInt z.toInt_lt, Option.map_some,
    Int64.ofInt_toInt]

theorem intToStatus_statusToInt (s : VerificationStatus) :
    intToStatus (statusToInt s) = some s := by
  cases s <;> rfl

private theorem statusToInt_range (s : VerificationStatus) :
    0 ≤ statusToInt s ∧ statusToInt s ≤ 10 := by
  cases s <;> decide

private theorem strictParse_status (s : VerificationStatus) :
    ∃ v, strictParseI64 (intDecimal (statusToInt s)) = some v ∧ v.toInt = statusToInt s := by
  have hs := statusToInt_range s
  refine ⟨Int64.ofInt (statusToInt s), ?_, Int64.toInt_ofInt_of_le (by omega) (by omega)⟩
  rw [strictParseI64, strictly_strtoll_intDecimal _ (by omega) (by omega), Option.map_some]

/-- The fields of an entry, in the order in which they are written. -/
def entryFields (e : RegistryEntry) : Fields := [
  (text "model_id", percentEncode e.modelId),
  (text "display_name", percentEncode e.displayName),
  (text "local_path", percentEncode e.localPath),
  (text "file_size_bytes", decimal e.fileSizeBytes.toNat),
  (text "format", percentEncode e.format),
  (text "architecture", percentEncode e.architecture),
  (text "quantization", percentEncode e.quantization),
  (text "verification_status", intDecimal (statusToInt e.verificationStatus)),
  (text "verified_at_unix", intDecimal e.verifiedAtUnix.toInt),
  (text "expected_checksum_sha256", percentEncode e.expectedChecksumSha256)]

theorem entryToLines_eq (e : RegistryEntry) :
    entryToLines e = (entryFields e).flatMap fun kv => fieldLine kv.1 kv.2 := by
  simp only [entryToLines, entryFields, List.flatMap_cons, List.flatMap_nil, List.append_nil,
    List.append_assoc]

theorem entryFields_key (e : RegistryEntry) : (entryFields e).map Prod.fst = kFieldOrder := rfl

private theorem entryFields_newline (e : RegistryEntry) :
    ∀ kv ∈ entryFields e, (10 : UInt8) ∉ kv.2 := by
  have henc := newline_notMem_percentEncode
  simp only [entryFields, List.forall_mem_cons, henc, newline_notMem_decimal,
    newline_notMem_intDecimal, not_false_eq_true, true_and]
  simp

theorem kFieldOrder_plain : ∀ key ∈ kFieldOrder, key ≠ [] ∧ (61 : UInt8) ∉ key ∧
    (10 : UInt8) ∉ key := by
  decide

theorem fieldsToEntry_entryFields (e : RegistryEntry) (h : e.modelId ≠ []) :
    fieldsToEntry (entryFields e).reverse = some e := by
  have hpresent : (kFieldOrder.all fun key => ((entryFields e).reverse.lookup key).isSome) = true :=
    rfl
  have hid : (entryFields e).reverse.lookup (text "model_id") = some (percentEncode e.modelId) := rfl
  have hname : (entryFields e).reverse.lookup (text "display_name") =
      some (percentEncode e.displayName) := rfl
  have hpath : (entryFields e).reverse.lookup (text "local_path") =
      some (percentEncode e.localPath) := rfl
  have hsize : (entryFields e).reverse.lookup (text "file_size_bytes") =
      some (decimal e.fileSizeBytes.toNat) := rfl
  have hformat : (entryFields e).reverse.lookup (text "format") =
      some (percentEncode e.format) := rfl
  have harch : (entryFields e).reverse.lookup (text "architecture") =
      some (percentEncode e.architecture) := rfl
  have hquant : (entryFields e).reverse.lookup (text "quantization") =
      some (percentEncode e.quantization) := rfl
  have hstatus : (entryFields e).reverse.lookup (text "verification_status") =
      some (intDecimal (statusToInt e.verificationStatus)) := rfl
  have htime : (entryFields e).reverse.lookup (text "verified_at_unix") =
      some (intDecimal e.verifiedAtUnix.toInt) := rfl
  have hsum : (entryFields e).reverse.lookup (text "expected_checksum_sha256") =
      some (percentEncode e.expectedChecksumSha256) := rfl
  obtain ⟨v, hv, hvi⟩ := strictParse_status e.verificationStatus
  have hrange : -2 ^ 31 ≤ statusToInt e.verificationStatus ∧
      statusToInt e.verificationStatus ≤ 2 ^ 31 - 1 := by
    have := statusToInt_range e.verificationStatus
    omega
  simp only [fieldsToEntry, decodeFields, hpresent, hid, hname, hpath, hsize, hformat, harch, hquant, hstatus,
    htime, hsum, percentDecode_encode, strictParseU64_decimal, strictParseI64_intDecimal, hv, hvi,
    hrange, h, intToStatus_statusToInt, guard, Option.bind_eq_bind, Option.bind_some, if_true,
    if_false, Option.pure_def, and_self]

namespace ModelRegistry

private theorem loadLoop_field {key value : Bytes} (hk : key ∈ kFieldOrder) (rest : List Bytes)
    (fields : Fields) (out : List RegistryEntry) :
    loadLoop ((key ++ 61 :: value) :: rest) fields out =
      loadLoop rest ((key, value) :: fields) out := by
  obtain ⟨hne, heq, -⟩ := kFieldOrder_plain key hk
  rw [loadLoop, if_neg (by simp), splitFirst_append 61 key value heq]
  dsimp only
  rw [if_neg hne, if_neg (not_not_intro hk)]

private theorem loadLoop_fields (kvs : Fields) (rest : Bytes) (fields : Fields)
    (out : List RegistryEntry) (hkeys : ∀ kv ∈ kvs, kv.1 ∈ kFieldOrder)
    (hvalues : ∀ kv ∈ kvs, (10 : UInt8) ∉ kv.2) :
    loadLoop (lines ((kvs.flatMap fun kv => fieldLine kv.1 kv.2) ++ rest)) fields out =
      loadLoop (lines rest) (kvs.reverse ++ fields) out := by
  induction kvs generalizing fields with
  | nil => rfl
  | cons kv kvs ih =>
      have hk := hkeys kv List.mem_cons_self
      have hplain := (kFieldOrder_plain kv.1 hk).2.2
      rw [List.flatMap_cons, List.append_assoc,
        lines_fieldLine _ hplain (hvalues kv List.mem_cons_self), loadLoop_field hk,
        ih _ (fun x hx => hkeys x (List.mem_cons_of_mem kv hx))
          (fun x hx => hvalues x (List.mem_cons_of_mem kv hx)),
        List.reverse_cons, List.append_assoc, List.singleton_append]

theorem loadLoop_entry {e : RegistryEntry} (h : e.modelId ≠ []) (rest : Bytes)
    (out : List RegistryEntry) :
    loadLoop (lines (entryToLines e ++ text "\n" ++ rest)) [] out =
      loadLoop (lines rest) [] (out ++ [e]) := by
  have hkeys : ∀ kv ∈ entryFields e, kv.1 ∈ kFieldOrder := by
    intro kv hkv
    rw [← entryFields_key e]
    exact List.mem_map_of_mem hkv
  have hnl : text "\n" ++ rest = 10 :: rest := rfl
  have hflush : flushEntry (entryFields e).reverse out = some (out ++ [e]) := by
    rw [flushEntry, if_neg (by simp [entryFields]), fieldsToEntry_entryFields e h]
    rfl
  rw [List.append_assoc, entryToLines_eq, loadLoop_fields _ _ _ _ hkeys (entryFields_newline e),
    hnl, lines_newline, List.append_nil, loadLoop, if_pos rfl, hflush]

theorem entriesText_complete_iff (entries : List RegistryEntry) :
    (entriesText entries).2 = true ↔ ∀ e ∈ entries, e.modelId ≠ [] := by
  induction entries with
  | nil => simp [entriesText]
  | cons e es ih =>
      rw [entriesText, List.forall_mem_cons, ← ih]
      split
      · next h => simp [h]
      · next h => simp [h]

theorem loadLoop_entriesText (entries out : List RegistryEntry)
    (h : ∀ e ∈ entries, e.modelId ≠ []) :
    loadLoop (lines (entriesText entries).1) [] out = (.ok, out ++ entries) := by
  induction entries generalizing out with
  | nil => simp [entriesText, loadLoop, flushEntry]
  | cons e es ih =>
      have he := h e List.mem_cons_self
      rw [entriesText, if_neg he]
      dsimp only
      rw [loadLoop_entry he, ih _ (fun x hx => h x (List.mem_cons_of_mem e hx)),
        List.append_assoc, List.singleton_append]

theorem save_eq_true_iff (fs : FileSystem) (path : Path) (entries : List RegistryEntry)
    (outcome : SaveOutcome) : (save fs path entries outcome).2 = true ↔
      outcome = .ok ∧ ∀ e ∈ entries, e.modelId ≠ [] := by
  rw [← entriesText_complete_iff]
  unfold save
  dsimp only
  split
  · next h => cases outcome <;> simp [replaceFile, h]
  · next h => cases outcome <;> simp [replaceFile, h]

theorem save_content {fs : FileSystem} {path : Path} {entries : List RegistryEntry}
    {outcome : SaveOutcome} (h : (save fs path entries outcome).2 = true) :
    (save fs path entries outcome).1 path =
      .file (kMagicLine ++ text "\n" ++ (entriesText entries).1) true := by
  obtain ⟨rfl, hid⟩ := (save_eq_true_iff fs path entries outcome).mp h
  unfold save
  dsimp only
  rw [if_pos ((entriesText_complete_iff entries).mpr hid)]
  exact replaceFile_ok _ _ _

theorem load_congr {fs fs' : FileSystem} {path : Path} (h : fs path = fs' path) :
    load fs path = load fs' path := by
  rw [load, load, h]

theorem load_save {fs : FileSystem} {path : Path} {entries : List RegistryEntry} {outcome : SaveOutcome}
    (h : (save fs path entries outcome).2 = true) :
    load (save fs path entries outcome).1 path = (.ok, entries) := by
  have hid := ((save_eq_true_iff fs path entries outcome).mp h).2
  have hmagic : (10 : UInt8) ∉ kMagicLine := by decide
  have hlines : lines (kMagicLine ++ text "\n" ++ (entriesText entries).1) =
      kMagicLine :: lines (entriesText entries).1 := by
    have hnl : text "\n" = [10] := rfl
    rw [hnl, List.append_assoc, List.singleton_append, lines_terminated _ _ hmagic]
  have hopen : ((save fs path entries outcome).1 path).open =
      some (kMagicLine ++ text "\n" ++ (entriesText entries).1) := by
    rw [save_content h]
    rfl
  rw [load, hopen]
  dsimp only
  rw [hlines]
  dsimp only
  rw [if_neg (not_not_intro rfl), loadLoop_entriesText entries [] hid, List.nil_append]

theorem save_failed {fs : FileSystem} {path : Path} {entries : List RegistryEntry}
    {outcome : SaveOutcome} (h : (save fs path entries outcome).2 = false) :
    (save fs path entries outcome).1 path = fs path := by
  unfold save at h ⊢
  dsimp only at h ⊢
  split at h
  · next hc =>
      rw [if_pos hc]
      exact replaceFile_failed _ _ _ _ h
  · next hc =>
      rw [if_neg hc]
      cases outcome <;> exact replaceFile_failed _ _ _ _ rfl

private theorem fieldsToEntry_id {fields : Fields} {e : RegistryEntry}
    (h : fieldsToEntry fields = some e) : e.modelId ≠ [] := by
  obtain ⟨e', -, he⟩ := Option.bind_eq_some_iff.mp h
  split at he
  · cases he
  · next hid =>
      cases he
      exact hid

private theorem flushEntry_ids {fields : Fields} {out out' : List RegistryEntry}
    (h : flushEntry fields out = some out') (hout : ∀ e ∈ out, e.modelId ≠ []) :
    ∀ e ∈ out', e.modelId ≠ [] := by
  unfold flushEntry at h
  split at h
  · cases h
    exact hout
  · obtain ⟨e, he, rfl⟩ := Option.map_eq_some_iff.mp h
    intro x hx
    rcases List.mem_append.mp hx with hx | hx
    · exact hout x hx
    · rw [List.mem_singleton.mp hx]
      exact fieldsToEntry_id he

private theorem loadLoop_ids (ls : List Bytes) (fields : Fields) (out : List RegistryEntry)
    (hout : ∀ e ∈ out, e.modelId ≠ []) :
    ∀ e ∈ (loadLoop ls fields out).2, e.modelId ≠ [] := by
  induction ls generalizing fields out with
  | nil =>
      rw [loadLoop]
      split
      · exact hout
      · next hf => exact flushEntry_ids hf hout
  | cons line rest ih =>
      rw [loadLoop]
      split
      · split
        · exact hout
        · next hf => exact ih _ _ (flushEntry_ids hf hout)
      · split
        · exact hout
        · split
          · exact hout
          · split
            · exact hout
            · exact ih _ _ hout

theorem load_ids (fs : FileSystem) (path : Path) : ∀ e ∈ (load fs path).2, e.modelId ≠ [] := by
  unfold load
  split
  · simp
  · split
    · simp
    · split
      · simp
      · exact loadLoop_ids _ _ _ (by simp)

end ModelRegistry

/-- A list of entries that was saved is loaded unchanged, and so is every list that was loaded. -/
theorem registry_round_trip :
    (∀ fs path entries outcome, (∀ e ∈ entries, e.modelId ≠ []) →
      (ModelRegistry.save fs path entries outcome).2 = true →
        ModelRegistry.load (ModelRegistry.save fs path entries outcome).1 path = (.ok, entries)) ∧
    ∀ fs path entries, ModelRegistry.load fs path = (.ok, entries) →
      ∀ fs' path', (ModelRegistry.save fs' path' entries .ok).2 = true ∧
        ModelRegistry.load (ModelRegistry.save fs' path' entries .ok).1 path' = (.ok, entries) := by
  refine ⟨fun fs path entries outcome _ h => ModelRegistry.load_save h, ?_⟩
  intro fs path entries hload fs' path'
  have hids := ModelRegistry.load_ids fs path
  rw [hload] at hids
  have hsave := (ModelRegistry.save_eq_true_iff fs' path' entries .ok).mpr ⟨rfl, hids⟩
  exact ⟨hsave, ModelRegistry.load_save hsave⟩

/-- An entry with delimiters in its fields and numbers at the ends of their ranges. -/
def awkwardEntry : RegistryEntry where
  modelId := text "id=%0A\n"
  displayName := [0, 10, 13, 37, 61, 255]
  fileSizeBytes := 18446744073709551615
  verificationStatus := .checksumMismatch
  verifiedAtUnix := -9223372036854775808

theorem registry_round_trip_awkward :
    ModelRegistry.load (ModelRegistry.save (fun _ => .absent) (text "r") [awkwardEntry] .ok).1
        (text "r") = (.ok, [awkwardEntry]) ∧
      (ModelRegistry.save (fun _ => .special) (text "s") [awkwardEntry] .ok).2 = true := by
  have hid : ∀ e ∈ [awkwardEntry], e.modelId ≠ [] := by decide
  have hload := registry_round_trip.1 (fun _ => .absent) (text "r") [awkwardEntry] .ok hid
    ((ModelRegistry.save_eq_true_iff _ _ _ _).mpr ⟨rfl, hid⟩)
  exact ⟨hload, (registry_round_trip.2 _ _ _ hload (fun _ => .special) (text "s")).1⟩

end EdgeMind
