import EdgeMind.Model.GgufExtraction

/-!
# The metadata of a malformed file

The walk over the entries stops at the first one that is not well formed. What it wrote to the
metadata by then is returned, but the quantization version, the file type and the context length
are only written after the last entry.
-/

namespace EdgeMind

open Framework KvEntry

/-- A file whose header announces more entries than it has: the given ones are well formed, and what
stands behind them does not begin with an entry. -/
def MalformedAfter (version tensorCount kvCount : Nat) (entries : List KvEntry) (content : Bytes) :
    Prop :=
  ∃ section_ tail, (version = 2 ∨ version = 3) ∧ tensorCount ≤ 1000000 ∧ kvCount ≤ 100000 ∧
    entries.length < kvCount ∧ EntriesBytes entries section_ ∧
    (∀ e u rest, EntryBytes e u → tail ≠ u ++ rest) ∧
    content = text "GGUF" ++ (leBytes 4 version ++ (leBytes 8 tensorCount ++
      (leBytes 8 kvCount ++ (section_ ++ tail))))

/-- An entry whose value waits for the end of the loop. -/
def KvEntry.isDeferred (architecture : Option Bytes) (e : KvEntry) : Bool :=
  isQuantizationVersion e || isFileType e || architecture.any (isContextLength · e)

theorem kvLoop_stops {entries : List KvEntry} {w tail : Bytes} (h : EntriesBytes entries w)
    (htail : ∀ e u rest, EntryBytes e u → tail ≠ u ++ rest) {n : Nat} (hn : entries.length < n)
    (s : KvState) {c : Cursor} (hrest : c.rest = w ++ tail) :
    kvLoop n s c = (entries.foldl KvState.note s, none) := by
  induction h generalizing n s c with
  | nil =>
      obtain ⟨n, rfl⟩ : ∃ m, n = m + 1 := ⟨n - 1, (Nat.succ_pred_eq_of_pos hn).symm⟩
      have hnone : kvEntry s c = none := by
        rw [Option.eq_none_iff_forall_ne_some]
        intro ⟨s', c'⟩ hsome
        obtain ⟨u, ⟨e, he, -⟩, hc⟩ := (exact_kvEntry s c s' c').mp hsome
        exact htail e u c'.rest he (hrest.symm.trans hc.2.2)
      rw [kvLoop, hnone]
      rfl
  | @cons e es u v he hes ih =>
      obtain ⟨n, rfl⟩ : ∃ m, n = m + 1 := ⟨n - 1, (Nat.succ_pred_eq_of_pos (by omega)).symm⟩
      rw [List.append_assoc] at hrest
      obtain ⟨c', hc, hrest'⟩ := Cursor.exists_consumes hrest
      rw [kvLoop, (exact_kvEntry s c (s.note e) c').mpr ⟨u, ⟨e, he, rfl⟩, hc⟩]
      exact ih (Nat.lt_of_succ_lt_succ hn) _ hrest'

theorem validateContent_malformed {version tensorCount kvCount : Nat} {entries : List KvEntry}
    {content : Bytes} (h : MalformedAfter version tensorCount kvCount entries content) :
    validateContent content = (.malformedMetadata,
      (entries.foldl KvState.note (.fresh version tensorCount kvCount)).metadata) := by
  obtain ⟨section_, tail, hversion, htensor, hkv, hlength, hentries, htail, heq⟩ := h
  have hle (k n : Nat) (hn : n < 256 ^ k) : leNat (leBytes k n) = n :=
    ((eq_leBytes_iff hn _).mp rfl).2
  have hv := hle 4 version (by omega)
  have ht := hle 8 tensorCount (by omega)
  have hk := hle 8 kvCount (by omega)
  let f : HeaderSplit content := ⟨_, _, _, _, _, heq, rfl, leBytes_length 4 version,
    leBytes_length 8 tensorCount, leBytes_length 8 kvCount⟩
  obtain ⟨c, hrest, hcontent⟩ := f.validateContent_eq
  have hmetadata : f.metadata = (KvState.fresh version tensorCount kvCount).metadata := by
    simp only [HeaderSplit.metadata, KvState.fresh, f, hv, ht, hk]
  have htc : GgufLimits.maxSaneTensorCount = 1000000 := rfl
  have hkc : GgufLimits.maxSaneKvCount = 100000 := rfl
  rw [hcontent, hmetadata]
  dsimp only [f]
  rw [hv, ht, hk, if_neg (not_not_intro rfl), if_neg (by omega), if_neg (by omega),
    kvLoop_stops hentries htail hlength _ hrest]
  rfl

theorem KvState.foldl_deferred (entries : List KvEntry) (s : KvState) :
    (entries.foldl note s).metadata.quantizationVersion = s.metadata.quantizationVersion ∧
      (entries.foldl note s).metadata.fileType = s.metadata.fileType ∧
      (entries.foldl note s).metadata.contextLength = s.metadata.contextLength := by
  induction entries generalizing s with
  | nil => exact ⟨rfl, rfl, rfl⟩
  | cons e es ih =>
      have hnote : (s.note e).metadata.quantizationVersion = s.metadata.quantizationVersion ∧
          (s.note e).metadata.fileType = s.metadata.fileType ∧
          (s.note e).metadata.contextLength = s.metadata.contextLength := by
        rw [note, store]
        split_ifs <;> exact ⟨rfl, rfl, rfl⟩
      rw [List.foldl_cons]
      exact ⟨(ih _).1.trans hnote.1, (ih _).2.1.trans hnote.2.1, (ih _).2.2.trans hnote.2.2⟩

/-- The fields written inside the loop are what the rules give for the entries before the malformed
one; the others are what the rules give exactly if no entry has a say in them. -/
theorem loopMetadata_extracts_iff {version tensorCount kvCount : Nat} (hversion : version < 2 ^ 32)
    (htensor : tensorCount < 2 ^ 64) (hkv : kvCount < 2 ^ 64) (entries : List KvEntry) :
    Extracts version tensorCount kvCount entries
        (entries.foldl KvState.note (.fresh version tensorCount kvCount)).metadata ↔
      ∀ e ∈ entries,
        e.isDeferred ((lastWhere isArchitecture entries).map KvEntry.text) = false := by
  obtain ⟨hv, ht, hk⟩ := KvState.foldl_header (.fresh version tensorCount kvCount) entries
  obtain ⟨hquant, hfile, hcontext⟩ :=
    KvState.foldl_deferred entries (.fresh version tensorCount kvCount)
  have harchitecture := KvState.foldl_architecture version tensorCount kvCount entries
  have hnone (p : KvEntry → Bool) : none = (lastWhere p entries).map unsigned ↔
      ∀ e ∈ entries, p e = false := by
    rw [← lastWhere_eq_none_iff, eq_comm, Option.map_eq_none_iff]
  constructor
  · intro h e he
    have hq := h.quantizationVersion
    rw [hquant] at hq
    have hf := h.fileType
    rw [hfile] at hf
    have hc := h.contextLength
    rw [hcontext, harchitecture] at hc
    rw [isDeferred, (hnone _).mp hq e he, (hnone _).mp hf e he, Bool.or_false, Bool.false_or]
    cases ha : (lastWhere isArchitecture entries).map KvEntry.text with
    | none => rfl
    | some a =>
        rw [ha] at hc
        exact (hnone _).mp hc e he
  · intro h
    have hcases (e : KvEntry) (he : e ∈ entries) : isQuantizationVersion e = false ∧
        isFileType e = false ∧
        ((lastWhere isArchitecture entries).map KvEntry.text).any (isContextLength · e) = false := by
      have hdeferred := h e he
      rw [isDeferred, Bool.or_eq_false_iff, Bool.or_eq_false_iff] at hdeferred
      exact ⟨hdeferred.1.1, hdeferred.1.2, hdeferred.2⟩
    refine ⟨?_, ?_, ?_, ?_, ?_, ?_, ?_, ?_⟩
    · exact (congrArg UInt32.toNat hv).trans (UInt32.toNat_ofNat_of_lt' hversion)
    · exact (congrArg UInt64.toNat ht).trans (UInt64.toNat_ofNat_of_lt' htensor)
    · exact (congrArg UInt64.toNat hk).trans (UInt64.toNat_ofNat_of_lt' hkv)
    · exact harchitecture
    · exact KvState.foldl_name version tensorCount kvCount entries
    · rw [hquant]
      exact (hnone _).mpr fun e he => (hcases e he).1
    · rw [hfile]
      exact (hnone _).mpr fun e he => (hcases e he).2.1
    · rw [hcontext, harchitecture]
      cases ha : (lastWhere isArchitecture entries).map KvEntry.text with
      | none => rfl
      | some a =>
          refine (hnone _).mpr fun e he => ?_
          have hlength := (hcases e he).2.2
          rw [ha] at hlength
          exact hlength

/-- The metadata of a malformed file is what its first entries give exactly if none of them waits
for the end of the loop. -/
theorem GgufReader.validate_malformed_iff {fs : FileSystem} {path : Path} {content : Bytes}
    (hopen : (fs path).open = some content) {version tensorCount kvCount : Nat}
    {entries : List KvEntry}
    (h : MalformedAfter version tensorCount kvCount entries content) :
    ((GgufReader.validate fs path).1 = .malformedMetadata ∧
        Extracts version tensorCount kvCount entries (GgufReader.validate fs path).2) ↔
      ∀ e ∈ entries,
        e.isDeferred ((lastWhere isArchitecture entries).map KvEntry.text) = false := by
  have hvalidate : GgufReader.validate fs path = validateContent content := by
    rw [GgufReader.validate, hopen]
  rw [hvalidate, validateContent_malformed h]
  obtain ⟨_, _, hversion, htensor, hkv, -⟩ := h
  rw [and_iff_right rfl]
  exact loopMetadata_extracts_iff (by omega) (by omega) (by omega) entries

theorem EntryBytes.nil_ne_append {e : KvEntry} {u : Bytes} (h : EntryBytes e u) (rest : Bytes) :
    [] ≠ u ++ rest := by
  obtain ⟨v, -, -, rfl⟩ := h
  intro hnil
  have hlength := congrArg List.length hnil
  simp only [List.length_append, leBytes_length, List.length_nil] at hlength
  omega

/-- Two entries are announced; after the quantization version the file ends. -/
def quantizationVersionOnly : Bytes :=
  text "GGUF" ++ (leBytes 4 3 ++ (leBytes 8 0 ++ (leBytes 8 2 ++
    (entryBytes (text "general.quantization_version") .uint32 (leBytes 4 2) ++ []))))

private def quantizationVersionEntry : KvEntry :=
  ⟨text "general.quantization_version", .uint32, .scalar (leBytes 4 2)⟩

private theorem quantizationVersionOnly_malformed :
    MalformedAfter 3 0 2 [quantizationVersionEntry] quantizationVersionOnly := by
  have hentry : EntryBytes quantizationVersionEntry
      (entryBytes (text "general.quantization_version") .uint32 (leBytes 4 2)) :=
    ⟨leBytes 4 2, by decide +kernel, .scalar (.fixed _ .uint32 rfl), rfl⟩
  have hentries := EntriesBytes.cons hentry .nil
  rw [List.append_nil] at hentries
  refine ⟨_, [], Or.inr rfl, by decide, by decide, by decide, hentries, ?_, rfl⟩
  exact fun e u rest he => he.nil_ne_append rest

/-- The quantization version that stood before the malformed entry is not returned. -/
theorem GgufReader.validate_malformed_lost :
    ¬∀ (fs : FileSystem) (path : Path) (content : Bytes) (version tensorCount kvCount : Nat)
      (entries : List KvEntry), (fs path).open = some content →
      MalformedAfter version tensorCount kvCount entries content →
      (GgufReader.validate fs path).1 = .malformedMetadata ∧
        Extracts version tensorCount kvCount entries (GgufReader.validate fs path).2 := by
  intro h
  obtain ⟨-, hextracts⟩ := h (fun _ => .file quantizationVersionOnly true) (text "m.gguf") _ 3 0 2
    _ rfl quantizationVersionOnly_malformed
  have hlost : (GgufReader.validate (fun _ => .file quantizationVersionOnly true)
      (text "m.gguf")).2.quantizationVersion = none := by decide +kernel
  have hquant := hextracts.quantizationVersion
  rw [hlost] at hquant
  exact absurd hquant (by decide +kernel)

/-- A name before the malformed entry is returned. -/
def nameOnly : Bytes :=
  text "GGUF" ++ (leBytes 4 3 ++ (leBytes 8 0 ++ (leBytes 8 2 ++
    (entryBytes (text "general.name") .string (leBytes 8 4 ++ text "tiny") ++ []))))

theorem GgufReader.validate_malformed_name :
    Extracts 3 0 2 [⟨text "general.name", .string, .string (text "tiny")⟩]
      (GgufReader.validate (fun _ => .file nameOnly true) (text "m.gguf")).2 := by
  have hentry : EntryBytes ⟨text "general.name", .string, .string (text "tiny")⟩
      (entryBytes (text "general.name") .string (leBytes 8 4 ++ text "tiny")) :=
    ⟨_, by decide +kernel, .scalar (.string (text "tiny") (by decide)), rfl⟩
  have hentries := EntriesBytes.cons hentry .nil
  rw [List.append_nil] at hentries
  have hmalformed : MalformedAfter 3 0 2 [⟨text "general.name", .string, .string (text "tiny")⟩]
      nameOnly := by
    refine ⟨_, [], Or.inr rfl, by decide, by decide, by decide, hentries, ?_, rfl⟩
    exact fun e u rest he => he.nil_ne_append rest
  exact ((@GgufReader.validate_malformed_iff (fun _ => .file nameOnly true) (text "m.gguf") _ rfl
    3 0 2 _ hmalformed).mpr (by decide +kernel)).2

end EdgeMind
