import EdgeMind.Framework.LastWrite
import EdgeMind.Model.GgufGrammar

/-!
# What the reader extracts

Each field of the metadata comes from the last entry with the field's key and type. A context length
is kept for every architecture that might follow, so that its entry may stand before the one that
names the architecture; which of them counts is settled after the last entry.
-/

namespace EdgeMind

open Framework

namespace KvEntry

def text (e : KvEntry) : Bytes :=
  match e.value with
  | .string body => body
  | _ => []

/-- The little-endian unsigned value of a scalar. -/
def unsigned (e : KvEntry) : Nat :=
  match e.value with
  | .scalar raw => leNat raw
  | _ => 0

def isArchitecture (e : KvEntry) : Bool :=
  e.key = Framework.text "general.architecture" && e.type = .string

def isName (e : KvEntry) : Bool := e.key = Framework.text "general.name" && e.type = .string

def isQuantizationVersion (e : KvEntry) : Bool :=
  e.key = Framework.text "general.quantization_version" && (e.type = .uint32 || e.type = .int32)

def isFileType (e : KvEntry) : Bool :=
  e.key = Framework.text "general.file_type" && (e.type = .uint32 || e.type = .int32)

def isContextLength (architecture : Bytes) (e : KvEntry) : Bool :=
  architecture ≠ [] && e.key = architecture ++ Framework.text ".context_length" &&
    (e.type = .uint32 || e.type = .uint64 || e.type = .int32 || e.type = .int64)

end KvEntry

open KvEntry

/-- The metadata of a header with the given entries behind it. -/
structure Extracts (version tensorCount kvCount : Nat) (entries : List KvEntry)
    (metadata : ModelMetadata) : Prop where
  ggufVersion : metadata.ggufVersion.toNat = version
  tensorCount : metadata.tensorCount.toNat = tensorCount
  metadataKvCount : metadata.metadataKvCount.toNat = kvCount
  architecture : metadata.architecture = (lastWhere isArchitecture entries).map KvEntry.text
  name : metadata.name = (lastWhere isName entries).map KvEntry.text
  quantizationVersion : metadata.quantizationVersion.map UInt32.toNat =
    (lastWhere isQuantizationVersion entries).map unsigned
  fileType : metadata.fileType.map UInt32.toNat = (lastWhere isFileType entries).map unsigned
  contextLength : metadata.contextLength.map UInt64.toNat =
    metadata.architecture.bind fun a => (lastWhere (isContextLength a) entries).map unsigned

/-- The entries that have a say in the metadata of a model with the given architecture. -/
def KvEntry.isRelevant (architecture : Option Bytes) (e : KvEntry) : Bool :=
  isArchitecture e || isName e || isQuantizationVersion e || isFileType e ||
    architecture.any (isContextLength · e)

namespace Extracts

variable {version tensorCount kvCount : Nat} {entries : List KvEntry} {metadata : ModelMetadata}

theorem unique {other : ModelMetadata} (h : Extracts version tensorCount kvCount entries metadata)
    (h' : Extracts version tensorCount kvCount entries other) : other = metadata := by
  have h32 : Function.Injective (Option.map UInt32.toNat) :=
    Option.map_injective fun _ _ => UInt32.toNat_inj.mp
  have h64 : Function.Injective (Option.map UInt64.toNat) :=
    Option.map_injective fun _ _ => UInt64.toNat_inj.mp
  have harchitecture : other.architecture = metadata.architecture :=
    h'.architecture.trans h.architecture.symm
  have hcontext := h'.contextLength
  rw [harchitecture, ← h.contextLength] at hcontext
  have hversion := UInt32.toNat_inj.mp (h'.ggufVersion.trans h.ggufVersion.symm)
  have htensor := UInt64.toNat_inj.mp (h'.tensorCount.trans h.tensorCount.symm)
  have hkv := UInt64.toNat_inj.mp (h'.metadataKvCount.trans h.metadataKvCount.symm)
  have hname := h'.name.trans h.name.symm
  have hquant := h32 (h'.quantizationVersion.trans h.quantizationVersion.symm)
  have hfile := h32 (h'.fileType.trans h.fileType.symm)
  replace hcontext := h64 hcontext
  cases other
  cases metadata
  simp_all

theorem congr (h : Extracts version tensorCount kvCount entries metadata) {others : List KvEntry}
    (hfilter : others.filter (isRelevant metadata.architecture) =
      entries.filter (isRelevant metadata.architecture)) :
    Extracts version tensorCount kvCount others metadata := by
  have hlast (p : KvEntry → Bool) (hp : ∀ e, p e = true → isRelevant metadata.architecture e = true) :
      lastWhere p others = lastWhere p entries := by
    rw [← lastWhere_filter hp others, hfilter, lastWhere_filter hp]
  refine ⟨h.ggufVersion, h.tensorCount, h.metadataKvCount, ?_, ?_, ?_, ?_, ?_⟩
  · rw [h.architecture, hlast _ fun e he => by simp [isRelevant, he]]
  · rw [h.name, hlast _ fun e he => by simp [isRelevant, he]]
  · rw [h.quantizationVersion, hlast _ fun e he => by simp [isRelevant, he]]
  · rw [h.fileType, hlast _ fun e he => by simp [isRelevant, he]]
  · rw [h.contextLength]
    cases ha : metadata.architecture with
    | none => rfl
    | some a =>
        have hsome := hlast (isContextLength a) fun e he => by simp [isRelevant, ha, he]
        rw [Option.bind_some, Option.bind_some, hsome]

end Extracts

theorem contextLengthSuffix_iff (key : Bytes) :
    (contextLengthSuffix.length < key.length && contextLengthSuffix.isSuffixOf key) = true ↔
      ∃ a, a ≠ [] ∧ key = a ++ text ".context_length" := by
  rw [Bool.and_eq_true, decide_eq_true_iff, List.isSuffixOf_iff_suffix]
  constructor
  · rintro ⟨hlength, a, rfl⟩
    refine ⟨a, ?_, rfl⟩
    intro hnil
    subst hnil
    exact lt_irrefl _ hlength
  · rintro ⟨a, ha, rfl⟩
    refine ⟨?_, a, rfl⟩
    have hpos := List.length_pos_iff.mpr ha
    rw [List.length_append]
    change contextLengthSuffix.length < a.length + contextLengthSuffix.length
    omega

private theorem wanted_cases (key : Bytes) (type : GgufType) :
    wanted key type = ⟨true, false, false, false, false⟩ ∨
      wanted key type = ⟨false, true, false, false, false⟩ ∨
      wanted key type = ⟨false, false, true, false, false⟩ ∨
      wanted key type = ⟨false, false, false, true, false⟩ ∨
      wanted key type = ⟨false, false, false, false, (wanted key type).contextLengthKey⟩ := by
  by_cases harchitecture : key = text "general.architecture"
  · subst harchitecture
    cases type <;> simp [wanted, contextLengthSuffix] <;> decide
  by_cases hname : key = text "general.name"
  · subst hname
    cases type <;> simp [wanted, contextLengthSuffix] <;> decide
  by_cases hquant : key = text "general.quantization_version"
  · subst hquant
    cases type <;> simp [wanted, contextLengthSuffix] <;> decide
  by_cases hfile : key = text "general.file_type"
  · subst hfile
    cases type <;> simp [wanted, contextLengthSuffix] <;> decide
  · simp [wanted, harchitecture, hname, hquant, hfile]

private theorem capturedOf_string (e : KvEntry) (captureNumeric : Bool) :
    (capturedOf e.type captureNumeric true e.value).string = e.text := by
  unfold capturedOf KvEntry.text
  cases e.value with
  | scalar raw => dsimp only; split <;> rfl
  | string body => rfl
  | array => rfl

private theorem capturedOf_numeric (e : KvEntry) (captureString : Bool) (h32 : e.type ≠ .float32)
    (h64 : e.type ≠ .float64) :
    (capturedOf e.type true captureString e.value).numeric = UInt64.ofNat e.unsigned := by
  unfold capturedOf unsigned
  cases e.value with
  | scalar raw => simp [h32, h64]
  | string body => dsimp only; split <;> rfl
  | array => rfl

private theorem capturedOf_word {key : Bytes} {e : KvEntry}
    (h : (e.key = key && (e.type = .uint32 || e.type = .int32)) = true) (captureString : Bool) :
    (capturedOf e.type true captureString e.value).numeric = UInt64.ofNat e.unsigned := by
  rw [Bool.and_eq_true, Bool.or_eq_true, decide_eq_true_iff, decide_eq_true_iff,
    decide_eq_true_iff] at h
  rcases h.2 with htype | htype
  · exact capturedOf_numeric e _ (by rw [htype]; nofun) (by rw [htype]; nofun)
  · exact capturedOf_numeric e _ (by rw [htype]; nofun) (by rw [htype]; nofun)

namespace KvState

theorem note_architecture (s : KvState) (e : KvEntry) :
    (s.note e).metadata.architecture =
      if isArchitecture e then some e.text else s.metadata.architecture := by
  have hflag : isArchitecture e = (wanted e.key e.type).architecture := rfl
  rw [hflag, note]
  rcases wanted_cases e.key e.type with h | h | h | h | h <;> rw [h]
  · exact congrArg some (capturedOf_string e _)
  · rfl
  · rfl
  · rfl
  · unfold store
    cases (wanted e.key e.type).contextLengthKey <;> rfl

theorem note_name (s : KvState) (e : KvEntry) :
    (s.note e).metadata.name = if isName e then some e.text else s.metadata.name := by
  have hflag : isName e = (wanted e.key e.type).name := rfl
  rw [hflag, note]
  rcases wanted_cases e.key e.type with h | h | h | h | h <;> rw [h]
  · rfl
  · exact congrArg some (capturedOf_string e _)
  · rfl
  · rfl
  · unfold store
    cases (wanted e.key e.type).contextLengthKey <;> rfl

theorem note_quantizationVersion (s : KvState) (e : KvEntry) :
    (s.note e).quantizationVersion =
      if isQuantizationVersion e then some (UInt64.ofNat e.unsigned) else s.quantizationVersion := by
  have hflag : isQuantizationVersion e = (wanted e.key e.type).quantVersion := rfl
  have hvalue (hwanted : isQuantizationVersion e = true) := capturedOf_word hwanted
  rw [hflag] at hvalue ⊢
  rw [note]
  rcases wanted_cases e.key e.type with h | h | h | h | h <;> rw [h]
  · rfl
  · rfl
  · exact congrArg some (hvalue (by rw [h]) _)
  · rfl
  · unfold store
    cases (wanted e.key e.type).contextLengthKey <;> rfl

theorem note_fileType (s : KvState) (e : KvEntry) :
    (s.note e).fileType =
      if isFileType e then some (UInt64.ofNat e.unsigned) else s.fileType := by
  have hflag : isFileType e = (wanted e.key e.type).fileType := rfl
  have hvalue (hwanted : isFileType e = true) := capturedOf_word hwanted
  rw [hflag] at hvalue ⊢
  rw [note]
  rcases wanted_cases e.key e.type with h | h | h | h | h <;> rw [h]
  · rfl
  · rfl
  · rfl
  · exact congrArg some (hvalue (by rw [h]) _)
  · unfold store
    cases (wanted e.key e.type).contextLengthKey <;> rfl

theorem isContextLength_iff (a : Bytes) (e : KvEntry) :
    isContextLength a e = true ↔ (wanted e.key e.type).contextLengthKey = true ∧
      e.key.take (e.key.length - contextLengthSuffix.length) = a := by
  have hwant : (wanted e.key e.type).contextLengthKey = true ↔
      (∃ b, b ≠ [] ∧ e.key = b ++ text ".context_length") ∧
        (e.type = .uint32 ∨ e.type = .uint64 ∨ e.type = .int32 ∨ e.type = .int64) := by
    rw [← contextLengthSuffix_iff]
    simp [wanted, or_assoc]
  have hprefix (b : Bytes) : (b ++ text ".context_length").take
      ((b ++ text ".context_length").length - contextLengthSuffix.length) = b := by
    rw [List.length_append]
    exact List.take_left' (Nat.add_sub_cancel _ _).symm
  have hkey : isContextLength a e = true ↔ (a ≠ [] ∧ e.key = a ++ text ".context_length") ∧
      (e.type = .uint32 ∨ e.type = .uint64 ∨ e.type = .int32 ∨ e.type = .int64) := by
    simp [isContextLength, or_assoc]
  rw [hwant, hkey]
  constructor
  · rintro ⟨⟨ha, hk⟩, htype⟩
    exact ⟨⟨⟨a, ha, hk⟩, htype⟩, by rw [hk, hprefix]⟩
  · rintro ⟨⟨⟨b, hb, hk⟩, htype⟩, htake⟩
    rw [hk, hprefix] at htake
    subst htake
    exact ⟨⟨hb, hk⟩, htype⟩

theorem note_contextLength (a : Bytes) (s : KvState) (e : KvEntry) :
    (s.note e).contextLengthCandidates.lookup a =
      if isContextLength a e then some (UInt64.ofNat e.unsigned)
      else s.contextLengthCandidates.lookup a := by
  have hiff := isContextLength_iff a e
  rw [note]
  rcases wanted_cases e.key e.type with h | h | h | h | h
  iterate 4
    rw [h] at hiff ⊢
    rw [if_neg (by rw [hiff]; nofun)]
    rfl
  cases hflag : (wanted e.key e.type).contextLengthKey with
  | false =>
      rw [hflag] at h hiff
      rw [h, if_neg (by rw [hiff]; nofun)]
      rfl
  | true =>
      have hvalue (captureString : Bool) :
          (capturedOf e.type true captureString e.value).numeric = UInt64.ofNat e.unsigned := by
        have htype : e.type = .uint32 ∨ e.type = .uint64 ∨ e.type = .int32 ∨ e.type = .int64 := by
          simp only [wanted, Bool.and_eq_true, Bool.or_eq_true, decide_eq_true_iff] at hflag
          tauto
        rcases htype with htype | htype | htype | htype <;>
          exact capturedOf_numeric e _ (by rw [htype]; nofun) (by rw [htype]; nofun)
      rw [hflag] at h
      rw [h]
      change List.lookup a ((_, _) :: _) = _
      rw [List.lookup_cons]
      by_cases ha : isContextLength a e = true
      · rw [if_pos ha, (hiff.mp ha).2, beq_self_eq_true]
        exact congrArg some (hvalue _)
      · have hne : (a == e.key.take (e.key.length - contextLengthSuffix.length)) = false := by
          rw [beq_eq_false_iff_ne]
          exact fun heq => ha (hiff.mpr ⟨hflag, heq.symm⟩)
        rw [if_neg ha, hne]

end KvState

namespace EntriesBytes

theorem entry {entries : List KvEntry} {w : Bytes} (h : EntriesBytes entries w) :
    ∀ e ∈ entries, ∃ u, EntryBytes e u := by
  induction h with
  | nil => exact fun e he => absurd he (List.not_mem_nil)
  | cons he _ ih => exact List.forall_mem_cons.mpr ⟨⟨_, he⟩, ih⟩

theorem unsigned_lt {entries : List KvEntry} {w : Bytes} (h : EntriesBytes entries w) {e : KvEntry}
    (he : e ∈ entries) {type : GgufType} {k : Nat} (htype : e.type = type)
    (hk : FixedWidth type k) : e.unsigned < 256 ^ k := by
  subst htype
  obtain ⟨_, v, -, hv, -⟩ := h.entry e he
  obtain ⟨key, type, value⟩ := e
  cases hv with
  | scalar hv =>
      cases hv with
      | fixed _ hk' hraw =>
          have hlt := leNat_lt v
          rw [hraw] at hlt
          cases hk <;> cases hk' <;> exact hlt
      | string body hlen => cases hk
  | array => cases hk

end EntriesBytes

def KvState.fresh (version tensorCount kvCount : Nat) : KvState where
  metadata := {
    ggufVersion := UInt32.ofNat version
    tensorCount := UInt64.ofNat tensorCount
    metadataKvCount := UInt64.ofNat kvCount }

namespace KvState

theorem foldl_header (s : KvState) (entries : List KvEntry) :
    (entries.foldl note s).metadata.ggufVersion = s.metadata.ggufVersion ∧
      (entries.foldl note s).metadata.tensorCount = s.metadata.tensorCount ∧
      (entries.foldl note s).metadata.metadataKvCount = s.metadata.metadataKvCount := by
  induction entries generalizing s with
  | nil => exact ⟨rfl, rfl, rfl⟩
  | cons e es ih =>
      have hnote : (s.note e).metadata.ggufVersion = s.metadata.ggufVersion ∧
          (s.note e).metadata.tensorCount = s.metadata.tensorCount ∧
          (s.note e).metadata.metadataKvCount = s.metadata.metadataKvCount := by
        rw [note, store]
        split_ifs <;> exact ⟨rfl, rfl, rfl⟩
      rw [List.foldl_cons]
      exact ⟨(ih _).1.trans hnote.1, (ih _).2.1.trans hnote.2.1, (ih _).2.2.trans hnote.2.2⟩

variable (version tensorCount kvCount : Nat) (entries : List KvEntry)

theorem foldl_architecture :
    (entries.foldl note (fresh version tensorCount kvCount)).metadata.architecture =
      (lastWhere isArchitecture entries).map KvEntry.text := by
  exact (@foldl_assigned _ _ KvState (fun s => s.metadata.architecture) note _ _ note_architecture
    _ _).trans Option.or_none

theorem foldl_name : (entries.foldl note (fresh version tensorCount kvCount)).metadata.name =
    (lastWhere isName entries).map KvEntry.text := by
  exact (@foldl_assigned _ _ KvState (fun s => s.metadata.name) note _ _ note_name
    _ _).trans Option.or_none

theorem foldl_quantizationVersion :
    (entries.foldl note (fresh version tensorCount kvCount)).quantizationVersion =
      (lastWhere isQuantizationVersion entries).map fun e => UInt64.ofNat e.unsigned := by
  exact (@foldl_assigned _ _ _ KvState.quantizationVersion note _ _ note_quantizationVersion
    _ _).trans Option.or_none

theorem foldl_fileType : (entries.foldl note (fresh version tensorCount kvCount)).fileType =
    (lastWhere isFileType entries).map fun e => UInt64.ofNat e.unsigned := by
  exact (@foldl_assigned _ _ _ KvState.fileType note _ _ note_fileType
    _ _).trans Option.or_none

theorem foldl_contextLength (a : Bytes) :
    (entries.foldl note (fresh version tensorCount kvCount)).contextLengthCandidates.lookup a =
      (lastWhere (isContextLength a) entries).map fun e => UInt64.ofNat e.unsigned := by
  exact (@foldl_assigned _ _ KvState (fun s => s.contextLengthCandidates.lookup a) note _ _
    (note_contextLength a) _ _).trans Option.or_none

end KvState

section Finish

variable {version tensorCount kvCount : Nat} {entries : List KvEntry} {w : Bytes}

private theorem map_unsigned {p : KvEntry → Bool} {value : UInt64 → Nat}
    (h : ∀ e ∈ entries, p e = true → value (UInt64.ofNat e.unsigned) = e.unsigned) :
    ((lastWhere p entries).map fun e => UInt64.ofNat e.unsigned).map value =
      (lastWhere p entries).map unsigned := by
  cases hlast : lastWhere p entries with
  | none => rfl
  | some e =>
      obtain ⟨he, hp⟩ := mem_of_lastWhere hlast
      exact congrArg some (h e he hp)

private theorem toUInt32_unsigned (h : EntriesBytes entries w) {e : KvEntry} (he : e ∈ entries)
    (htype : e.type = .uint32 ∨ e.type = .int32) :
    (UInt64.ofNat e.unsigned).toUInt32.toNat = e.unsigned := by
  have hlt : e.unsigned < 2 ^ 32 := by
    rcases htype with htype | htype
    · exact h.unsigned_lt he htype .uint32
    · exact h.unsigned_lt he htype .int32
  rw [UInt64.toNat_toUInt32, UInt64.toNat_ofNat_of_lt' (hlt.trans (by decide)), Nat.mod_eq_of_lt hlt]

private theorem toNat_unsigned (h : EntriesBytes entries w) {e : KvEntry} (he : e ∈ entries)
    (htype : e.type = .uint32 ∨ e.type = .uint64 ∨ e.type = .int32 ∨ e.type = .int64) :
    (UInt64.ofNat e.unsigned).toNat = e.unsigned := by
  have hlt : e.unsigned < 2 ^ 64 := by
    rcases htype with htype | htype | htype | htype
    · exact (h.unsigned_lt he htype .uint32).trans (by decide)
    · exact h.unsigned_lt he htype .uint64
    · exact (h.unsigned_lt he htype .int32).trans (by decide)
    · exact h.unsigned_lt he htype .int64
  exact UInt64.toNat_ofNat_of_lt' hlt

theorem finish_extracts (hversion : version < 2 ^ 32) (htensor : tensorCount < 2 ^ 64)
    (hkv : kvCount < 2 ^ 64) (h : EntriesBytes entries w) :
    Extracts version tensorCount kvCount entries
      (entries.foldl KvState.note (.fresh version tensorCount kvCount)).finish := by
  obtain ⟨hv, ht, hk⟩ := KvState.foldl_header (.fresh version tensorCount kvCount) entries
  refine ⟨?_, ?_, ?_, ?_, ?_, ?_, ?_, ?_⟩
  · exact (congrArg UInt32.toNat hv).trans (UInt32.toNat_ofNat_of_lt' hversion)
  · exact (congrArg UInt64.toNat ht).trans (UInt64.toNat_ofNat_of_lt' htensor)
  · exact (congrArg UInt64.toNat hk).trans (UInt64.toNat_ofNat_of_lt' hkv)
  · exact KvState.foldl_architecture version tensorCount kvCount entries
  · exact KvState.foldl_name version tensorCount kvCount entries
  · rw [KvState.finish, KvState.foldl_quantizationVersion, Option.map_map]
    refine map_unsigned fun e he hp => toUInt32_unsigned h he ?_
    simp only [isQuantizationVersion, Bool.and_eq_true, Bool.or_eq_true, decide_eq_true_iff] at hp
    exact hp.2
  · rw [KvState.finish, KvState.foldl_fileType, Option.map_map]
    refine map_unsigned fun e he hp => toUInt32_unsigned h he ?_
    simp only [isFileType, Bool.and_eq_true, Bool.or_eq_true, decide_eq_true_iff] at hp
    exact hp.2
  · have hlast (a : Bytes) : ((lastWhere (isContextLength a) entries).map fun e =>
        UInt64.ofNat e.unsigned).map UInt64.toNat =
          (lastWhere (isContextLength a) entries).map unsigned := by
      refine map_unsigned fun e he hp => toNat_unsigned h he ?_
      simp only [isContextLength, Bool.and_eq_true, Bool.or_eq_true, decide_eq_true_iff] at hp
      tauto
    simp only [KvState.finish, KvState.foldl_contextLength, Option.map_bind, Function.comp_def,
      hlast]

end Finish

private theorem FileBytes.extracts {version tensorCount : Nat} {entries : List KvEntry}
    {content : Bytes} (h : FileBytes version tensorCount entries content) :
    Extracts version tensorCount entries.length entries
      (extracted version tensorCount entries) := by
  obtain ⟨section_, tail, hversion, htensor, hkv, hentries, -⟩ := h
  exact finish_extracts (by omega) (by omega) (by omega) hentries

/-- The metadata of a valid file is the header's and what the rules give for its entries; a file
whose other entries differ has the same metadata. -/
theorem GgufReader.validate_extracts {fs : FileSystem} {path : Path} {metadata : ModelMetadata}
    (h : GgufReader.validate fs path = (.valid, metadata)) :
    ∃ content, (fs path).open = some content ∧ GrammarValid content ∧
      ∀ version tensorCount entries, FileBytes version tensorCount entries content →
        Extracts version tensorCount entries.length entries metadata ∧
        ∀ fs' path' content' entries', (fs' path').open = some content' →
          FileBytes version tensorCount entries' content' → entries'.length = entries.length →
          entries'.filter (isRelevant metadata.architecture) =
            entries.filter (isRelevant metadata.architecture) →
          GgufReader.validate fs' path' = (.valid, metadata) := by
  have hread (fs : FileSystem) (path : Path) (content : Bytes)
      (hopen : (fs path).open = some content) :
      GgufReader.validate fs path = validateContent content := by
    rw [GgufReader.validate, hopen]
  cases hopen : (fs path).open with
  | none =>
      rw [GgufReader.validate, hopen] at h
      cases h
  | some content =>
      rw [hread fs path content hopen] at h
      have hvalid := (validateContent_status_valid_iff content).mp (congrArg Prod.fst h)
      refine ⟨content, rfl, hvalid, fun version tensorCount entries hfile => ?_⟩
      have hthis := (validateContent_valid_iff content _).mpr ⟨_, _, _, hfile, rfl⟩
      have heq : metadata = extracted version tensorCount entries :=
        congrArg Prod.snd (h.symm.trans hthis)
      have hextracts := hfile.extracts
      rw [← heq] at hextracts
      refine ⟨hextracts, fun fs' path' content' entries' hopen' hfile' hlength hfilter => ?_⟩
      have hother := hfile'.extracts
      rw [hlength] at hother
      rw [hread fs' path' content' hopen', (validateContent_valid_iff content' _).mpr
        ⟨_, _, _, hfile', ((hextracts.congr hfilter).unique hother).symm⟩]

/-- The bytes of an entry whose value is written as given. -/
def entryBytes (key : Bytes) (type : GgufType) (value : Bytes) : Bytes :=
  leBytes 8 key.length ++ (key ++ (leBytes 4 type.code ++ value))

/-- A file whose context length stands before the architecture it belongs to. -/
def contextLengthFirst : Bytes :=
  text "GGUF" ++ (leBytes 4 3 ++ (leBytes 8 0 ++ (leBytes 8 2 ++
    (entryBytes (text "llama.context_length") .uint32 (leBytes 4 4096) ++
      entryBytes (text "general.architecture") .string (leBytes 8 5 ++ text "llama")))))

theorem GgufReader.validate_extracts_contextLengthFirst :
    ∃ version tensorCount entries, Extracts version tensorCount 2 entries
      { ggufVersion := 3, metadataKvCount := 2, architecture := some (text "llama"),
        contextLength := some 4096 } := by
  obtain ⟨content, hopen, ⟨version, tensorCount, entries, hfile⟩, h⟩ :=
    @GgufReader.validate_extracts (fun _ => .file contextLengthFirst true) (text "m.gguf")
      { ggufVersion := 3, metadataKvCount := 2, architecture := some (text "llama"),
        contextLength := some 4096 } (by decide +kernel)
  have hextracts := (h version tensorCount entries hfile).1
  have hlength : entries.length = 2 := hextracts.metadataKvCount.symm
  rw [hlength] at hextracts
  exact ⟨version, tensorCount, entries, hextracts⟩

end EdgeMind
