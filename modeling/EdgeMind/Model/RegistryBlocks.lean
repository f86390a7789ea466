import EdgeMind.Model.RegistryCodec

/-!
# What a registry file is read as

The lines after the magic line fall into blocks between blank lines, and each block is read as one
entry. Loading succeeds exactly if every block can be read, and the entries before the first block
that cannot are left in the output. Within a block a later line takes the place of an earlier one of
the same field.
-/

namespace EdgeMind

open Framework

/-- The field of a line, if it is one of those that are known. -/
def lineField (line : Bytes) : Option (Bytes × Bytes) :=
  (splitFirst 61 line).filter fun kv => kFieldOrder.contains kv.1

/-- The fields of a block, latest first. -/
def blockFields (block : List Bytes) : Option Fields := (block.mapM lineField).map List.reverse

def readBlock (block : List Bytes) : Option RegistryEntry := (blockFields block).bind fieldsToEntry

def registryBlocks (content : Bytes) : Option (List (List Bytes)) :=
  match lines content with
  | [] => none
  | magicLine :: rest => if magicLine ≠ kMagicLine then none else some (paragraphs rest)

/-- Blocks are read one after the other, up to the first that is malformed. -/
def readBlocks : List (List Bytes) → List RegistryEntry → RegistryLoadResult × List RegistryEntry
  | [], out => (.ok, out)
  | block :: rest, out =>
      match readBlock block with
      | none => (.corrupted, out)
      | some e => readBlocks rest (out ++ [e])

theorem blockFields_concat (block : List Bytes) (line : Bytes) :
    blockFields (block ++ [line]) =
      (blockFields block).bind fun fields => (lineField line).map (· :: fields) := by
  unfold blockFields
  rw [List.mapM_append]
  cases block.mapM lineField with
  | none => rfl
  | some fields => cases h : lineField line <;> simp [h]

theorem readBlock_malformed {line : Bytes} (h : lineField line = none) (before after : List Bytes) :
    readBlock (before ++ [line] ++ after) = none := by
  have hfields : (before ++ [line] ++ after).mapM lineField = none := by
    rw [List.append_assoc, List.mapM_append]
    cases before.mapM lineField with
    | none => rfl
    | some fields => simp [h]
  rw [readBlock, blockFields, hfields]
  rfl

namespace ModelRegistry

theorem flushEntry_block {block : List Bytes} {fields : Fields} (h : blockFields block = some fields)
    (rest : List (List Bytes)) (out : List RegistryEntry) :
    readBlocks ((if block = [] then [] else [block]) ++ rest) out =
      match flushEntry fields out with
      | none => (.corrupted, out)
      | some out => readBlocks rest out := by
  unfold flushEntry
  by_cases hblock : block = []
  · subst hblock
    cases h
    rfl
  · have hfields : fields ≠ [] := by
      intro hnil
      subst hnil
      obtain ⟨fields, hmap, hreverse⟩ := Option.map_eq_some_iff.mp h
      rw [List.reverse_eq_nil_iff] at hreverse
      subst hreverse
      cases block with
      | nil => exact hblock rfl
      | cons line rest =>
          rw [List.mapM_cons] at hmap
          obtain ⟨kv, -, hmap⟩ := Option.bind_eq_some_iff.mp hmap
          obtain ⟨kvs, -, hmap⟩ := Option.bind_eq_some_iff.mp hmap
          cases hmap
    rw [if_neg hblock, if_neg hfields, List.singleton_append, readBlocks, readBlock, h,
      Option.bind_some]
    cases fieldsToEntry fields <;> rfl

theorem loadLoop_blocks (ls : List Bytes) {block : List Bytes} {fields : Fields}
    (h : blockFields block = some fields) (out : List RegistryEntry) :
    loadLoop ls fields out = readBlocks (paragraphsFrom block ls) out := by
  induction ls generalizing block fields out with
  | nil =>
      have hflush := flushEntry_block h [] out
      rw [List.append_nil] at hflush
      rw [loadLoop, paragraphsFrom, hflush]
      cases flushEntry fields out <;> rfl
  | cons line rest ih =>
      rw [loadLoop, paragraphsFrom]
      by_cases hblank : line = []
      · rw [if_pos hblank, if_pos hblank, flushEntry_block h]
        cases flushEntry fields out with
        | none => rfl
        | some out => exact ih rfl out
      · rw [if_neg hblank, if_neg hblank]
        have hmalformed (hline : lineField line = none) :
            readBlocks (paragraphsFrom (block ++ [line]) rest) out = (.corrupted, out) := by
          obtain ⟨more, later, heq⟩ := paragraphsFrom_pending
            (List.append_ne_nil_of_right_ne_nil block (List.cons_ne_nil line [])) rest
          rw [heq, readBlocks, readBlock_malformed hline]
        cases hsplit : splitFirst 61 line with
        | none => exact (hmalformed (by rw [lineField, hsplit]; rfl)).symm
        | some kv =>
            obtain ⟨key, value⟩ := kv
            dsimp only
            by_cases hkey : key ∈ kFieldOrder
            · have hline : lineField line = some (key, value) := by
                rw [lineField, hsplit, Option.filter_some, if_pos (List.contains_iff_mem.mpr hkey)]
              rw [if_neg (kFieldOrder_plain key hkey).1, if_neg (not_not_intro hkey)]
              refine ih ?_ out
              rw [blockFields_concat, h, hline]
              rfl
            · have hline : lineField line = none := by
                rw [lineField, hsplit, Option.filter_some, if_neg (by simpa using hkey)]
              rw [hmalformed hline, if_pos hkey, ite_self]

theorem load_blocks {fs : FileSystem} {path : Path} {content : Bytes}
    (h : (fs path).open = some content) :
    load fs path =
      match registryBlocks content with
      | none => (.corrupted, [])
      | some blocks => readBlocks blocks [] := by
  rw [load, h]
  dsimp only
  unfold registryBlocks
  cases lines content with
  | nil => rfl
  | cons magicLine rest =>
      dsimp only
      split
      · rfl
      · exact loadLoop_blocks rest rfl []

theorem readBlocks_ok {blocks : List (List Bytes)} {out entries : List RegistryEntry}
    (h : readBlocks blocks out = (.ok, entries)) :
    ∃ new, entries = out ++ new ∧ List.Forall₂ (fun block e => readBlock block = some e) blocks new := by
  induction blocks generalizing out with
  | nil =>
      cases h
      exact ⟨[], (List.append_nil entries).symm, .nil⟩
  | cons block rest ih =>
      rw [readBlocks] at h
      split at h
      · cases h
      · next e he =>
          obtain ⟨new, rfl, hnew⟩ := ih h
          exact ⟨e :: new, by rw [List.append_assoc]; rfl, .cons he hnew⟩

theorem readBlocks_status (blocks : List (List Bytes)) (out : List RegistryEntry) :
    (readBlocks blocks out).1 =
      if ∀ block ∈ blocks, (readBlock block).isSome then .ok else .corrupted := by
  induction blocks generalizing out with
  | nil => rfl
  | cons block rest ih =>
      rw [readBlocks]
      cases h : readBlock block with
      | none => simp [h]
      | some e => simp [h, ih]

theorem readBlocks_out (blocks : List (List Bytes)) (out : List RegistryEntry) :
    out <+: (readBlocks blocks out).2 := by
  induction blocks generalizing out with
  | nil => exact List.prefix_refl out
  | cons block rest ih =>
      rw [readBlocks]
      split
      · exact List.prefix_refl out
      · exact (List.prefix_append out _).trans (ih _)

theorem load_ok {fs : FileSystem} {path : Path} {content : Bytes} {entries : List RegistryEntry}
    (h : (fs path).open = some content) (hload : load fs path = (.ok, entries)) :
    ∃ blocks, registryBlocks content = some blocks ∧
      List.Forall₂ (fun block e => readBlock block = some e) blocks entries := by
  rw [load_blocks h] at hload
  cases hblocks : registryBlocks content with
  | none =>
      rw [hblocks] at hload
      cases hload
  | some blocks =>
      rw [hblocks] at hload
      obtain ⟨new, rfl, hnew⟩ := readBlocks_ok hload
      exact ⟨blocks, rfl, hnew⟩

def Readable (content : Bytes) (blocks : List (List Bytes)) : Prop :=
  registryBlocks content = some blocks ∧ ∀ block ∈ blocks, (readBlock block).isSome

theorem load_ok_iff {fs : FileSystem} {path : Path} {content : Bytes}
    (h : (fs path).open = some content) :
    (load fs path).1 = .ok ↔ ∃ blocks, Readable content blocks := by
  unfold Readable
  rw [load_blocks h]
  cases registryBlocks content with
  | none => simp
  | some blocks =>
      dsimp only
      rw [readBlocks_status]
      simp only [Option.some.injEq, exists_eq_left']
      split <;> simp_all

/-- What holds of every entry and its block, over the files that are loaded, where it fails exactly on
some blocks that are read. -/
theorem load_forall_iff {P : List Bytes → RegistryEntry → Prop} {Bad : List Bytes → Prop}
    (hP : ∀ block e, readBlock block = some e → (P block e ↔ ¬Bad block)) {fs : FileSystem}
    {path : Path} {content : Bytes} (h : (fs path).open = some content) :
    (∀ entries, load fs path = (.ok, entries) →
        ∃ blocks, registryBlocks content = some blocks ∧ List.Forall₂ P blocks entries) ↔
      ¬∃ blocks, Readable content blocks ∧ ∃ block ∈ blocks, Bad block := by
  constructor
  · rintro hall ⟨blocks, hreadable, block, hblock, hbad⟩
    have hok : load fs path = (.ok, (load fs path).2) :=
      Prod.ext ((load_ok_iff h).mpr ⟨blocks, hreadable⟩) rfl
    obtain ⟨blocks', hblocks', hentries⟩ := hall _ hok
    obtain ⟨read, hread, hload⟩ := load_ok h hok
    cases hreadable.1.symm.trans hblocks'
    cases hreadable.1.symm.trans hread
    obtain ⟨i, hi, rfl⟩ := List.mem_iff_getElem.mp hblock
    have hi' : i < (load fs path).2.length := hentries.length_eq ▸ hi
    have hget := (List.forall₂_iff_get.mp hentries).2 i hi hi'
    exact (hP _ _ ((List.forall₂_iff_get.mp hload).2 i hi hi')).mp hget hbad
  · intro hgood entries hload
    obtain ⟨blocks, hblocks, hentries⟩ := load_ok h hload
    obtain ⟨blocks', hreadable⟩ := (load_ok_iff h).mp (congrArg Prod.fst hload)
    cases hblocks.symm.trans hreadable.1
    refine ⟨blocks, hblocks, ?_⟩
    rw [List.forall₂_iff_get] at hentries ⊢
    refine ⟨hentries.1, fun i hi hi' => (hP _ _ (hentries.2 i hi hi')).mpr fun hbad => ?_⟩
    exact hgood ⟨blocks, hreadable, _, List.getElem_mem hi, hbad⟩

/-- A block that can be read, and one after it that cannot. -/
def DamagedAfterEntry (content : Bytes) : Prop :=
  ∃ first later, registryBlocks content = some (first :: later) ∧ (readBlock first).isSome ∧
    ∃ block ∈ later, readBlock block = none

theorem readBlocks_nothing_iff (blocks : List (List Bytes)) :
    ((readBlocks blocks []).1 ≠ .ok → (readBlocks blocks []).2 = []) ↔
      ¬∃ first later, blocks = first :: later ∧ (readBlock first).isSome ∧
        ∃ block ∈ later, readBlock block = none := by
  cases blocks with
  | nil => exact ⟨fun _ ⟨_, _, h, _⟩ => (nomatch h), fun _ _ => rfl⟩
  | cons first later =>
      cases hfirst : readBlock first with
      | none =>
          have hread : readBlocks (first :: later) [] = (.corrupted, []) := by
            rw [readBlocks, hfirst]
          rw [hread]
          refine ⟨fun _ ⟨_, _, hcons, hsome, _⟩ => ?_, fun _ _ => rfl⟩
          cases hcons
          rw [hfirst] at hsome
          cases hsome
      | some e =>
          have hread : readBlocks (first :: later) [] = readBlocks later [e] := by
            rw [readBlocks, hfirst]
            rfl
          have hkept : (readBlocks later [e]).2 ≠ [] := by
            intro hnil
            have hout := readBlocks_out later [e]
            rw [hnil, List.prefix_nil] at hout
            cases hout
          have hlater : (readBlocks later [e]).1 ≠ .ok ↔ ∃ block ∈ later, readBlock block = none := by
            rw [readBlocks_status]
            simp [Option.isSome_iff_ne_none]
          rw [hread, hlater]
          constructor
          · rintro h ⟨_, _, hcons, -, hblock⟩
            cases hcons
            exact hkept (h hblock)
          · intro h hblock
            exact absurd ⟨first, later, rfl, by rw [hfirst]; rfl, hblock⟩ h

/-- A load that does not succeed leaves no entries, unless the file is damaged after its first one. -/
theorem load_nothing_iff (fs : FileSystem) (path : Path) :
    ((load fs path).1 ≠ .ok → (load fs path).2 = []) ↔
      ¬∃ content, (fs path).open = some content ∧ DamagedAfterEntry content := by
  cases hopen : (fs path).open with
  | none =>
      rw [load, hopen]
      simp
  | some content =>
      rw [load_blocks hopen]
      unfold DamagedAfterEntry
      simp only [Option.some.injEq, exists_eq_left']
      cases registryBlocks content with
      | none => simp
      | some blocks =>
          simp only [Option.some.injEq]
          exact readBlocks_nothing_iff blocks

/-- An entry, and a line behind it that is none of the format. -/
def damagedRegistry : Bytes :=
  kMagicLine ++ text "\n" ++ (entriesText [{ modelId := text "a" }]).1 ++ text "x\n"

theorem load_nothing_damaged :
    let loaded := load (fun _ => .file damagedRegistry true) (text "r")
    loaded = (.corrupted, [{ modelId := text "a" }]) ∧ ¬(loaded.1 ≠ .ok → loaded.2 = []) := by
  intro loaded
  have hloaded : loaded = (.corrupted, [{ modelId := text "a" }]) := by decide +kernel
  refine ⟨hloaded, fun h => ?_⟩
  rw [hloaded] at h
  cases h nofun

inductive FieldOf (e : RegistryEntry) : Bytes → Bytes → Prop
  | modelId {value} (h : percentDecode value = some e.modelId) : FieldOf e (text "model_id") value
  | displayName {value} (h : percentDecode value = some e.displayName) :
      FieldOf e (text "display_name") value
  | localPath {value} (h : percentDecode value = some e.localPath) :
      FieldOf e (text "local_path") value
  | fileSizeBytes {value} (h : strictParseU64 value = some e.fileSizeBytes) :
      FieldOf e (text "file_size_bytes") value
  | format {value} (h : percentDecode value = some e.format) : FieldOf e (text "format") value
  | architecture {value} (h : percentDecode value = some e.architecture) :
      FieldOf e (text "architecture") value
  | quantization {value} (h : percentDecode value = some e.quantization) :
      FieldOf e (text "quantization") value
  | verificationStatus {value} {status : Int64} (h : strictParseI64 value = some status)
      (hstatus : intToStatus status.toInt = some e.verificationStatus) :
      FieldOf e (text "verification_status") value
  | verifiedAtUnix {value} (h : strictParseI64 value = some e.verifiedAtUnix) :
      FieldOf e (text "verified_at_unix") value
  | expectedChecksumSha256 {value} (h : percentDecode value = some e.expectedChecksumSha256) :
      FieldOf e (text "expected_checksum_sha256") value

private theorem bind_field {α β : Type} {fields : Fields} {key : Bytes} {parse : Bytes → Option α}
    {rest : α → Option β} {b : β}
    (h : ((fields.lookup key).bind fun value => (parse value).bind rest) = some b) :
    ∃ value a, fields.lookup key = some value ∧ parse value = some a ∧ rest a = some b := by
  obtain ⟨value, hvalue, h⟩ := Option.bind_eq_some_iff.mp h
  obtain ⟨a, ha, h⟩ := Option.bind_eq_some_iff.mp h
  exact ⟨value, a, hvalue, ha, h⟩

theorem decodeFields_fieldOf {fields : Fields} {e : RegistryEntry}
    (h : decodeFields fields = some e) :
    ∀ key ∈ kFieldOrder, ∃ value, fields.lookup key = some value ∧ FieldOf e key value := by
  unfold decodeFields at h
  obtain ⟨-, -, h⟩ := Option.bind_eq_some_iff.mp h
  obtain ⟨v0, modelId, h0, d0, h⟩ := bind_field h
  obtain ⟨v1, displayName, h1, d1, h⟩ := bind_field h
  obtain ⟨v2, localPath, h2, d2, h⟩ := bind_field h
  obtain ⟨v3, fileSizeBytes, h3, d3, h⟩ := bind_field h
  obtain ⟨v4, format, h4, d4, h⟩ := bind_field h
  obtain ⟨v5, architecture, h5, d5, h⟩ := bind_field h
  obtain ⟨v6, quantization, h6, d6, h⟩ := bind_field h
  obtain ⟨v7, status, h7, d7, h⟩ := bind_field h
  obtain ⟨-, -, h⟩ := Option.bind_eq_some_iff.mp h
  obtain ⟨verificationStatus, hstatus, h⟩ := Option.bind_eq_some_iff.mp h
  obtain ⟨v8, verifiedAtUnix, h8, d8, h⟩ := bind_field h
  obtain ⟨v9, checksum, h9, d9, h⟩ := bind_field h
  cases h
  unfold kFieldOrder
  simp only [List.forall_mem_cons]
  exact ⟨⟨v0, h0, .modelId d0⟩, ⟨v1, h1, .displayName d1⟩, ⟨v2, h2, .localPath d2⟩,
    ⟨v3, h3, .fileSizeBytes d3⟩, ⟨v4, h4, .format d4⟩, ⟨v5, h5, .architecture d5⟩,
    ⟨v6, h6, .quantization d6⟩, ⟨v7, h7, .verificationStatus d7 hstatus⟩,
    ⟨v8, h8, .verifiedAtUnix d8⟩, ⟨v9, h9, .expectedChecksumSha256 d9⟩, nofun⟩

theorem fieldsToEntry_fieldOf {fields : Fields} {e : RegistryEntry}
    (h : fieldsToEntry fields = some e) :
    ∀ key ∈ kFieldOrder, ∃ value, fields.lookup key = some value ∧ FieldOf e key value := by
  obtain ⟨e', hdecode, hid⟩ := Option.bind_eq_some_iff.mp h
  split at hid
  · cases hid
  · cases hid
    exact decodeFields_fieldOf hdecode

def RepeatsField (block : List Bytes) : Prop := ¬((block.filterMap lineField).map Prod.fst).Nodup

instance (block : List Bytes) : Decidable (RepeatsField block) := inferInstanceAs (Decidable (¬_))

/-- Every line of the block is a field of the entry, and every field has one line. -/
def Accounts (block : List Bytes) (e : RegistryEntry) : Prop :=
  ∃ kvs : Fields, block.map lineField = kvs.map some ∧ (kvs.map Prod.fst).Perm kFieldOrder ∧
    ∀ kv ∈ kvs, FieldOf e kv.1 kv.2

/-- There are ten lines for every entry, and each of them is a field of its entry. -/
def Accounted (content : Bytes) (entries : List RegistryEntry) : Prop :=
  ((lines content).tail.filter (· ≠ [])).length = 10 * entries.length ∧
    ∃ blocks, registryBlocks content = some blocks ∧ List.Forall₂ Accounts blocks entries

/-- Some block has two lines of one field: it was repeated, or two entries run together. -/
def Repeated (content : Bytes) : Prop :=
  ∃ blocks, registryBlocks content = some blocks ∧ ∃ block ∈ blocks, RepeatsField block

/-- Some block has two lines of one field although every block can be read. -/
def Overwritten (content : Bytes) : Prop :=
  ∃ blocks, Readable content blocks ∧ ∃ block ∈ blocks, RepeatsField block

theorem registryBlocks_flatten {content : Bytes} {blocks : List (List Bytes)}
    (h : registryBlocks content = some blocks) :
    blocks.flatten = (lines content).tail.filter (· ≠ []) := by
  unfold registryBlocks at h
  cases hlines : lines content with
  | nil =>
      rw [hlines] at h
      cases h
  | cons magicLine rest =>
      rw [hlines] at h
      dsimp only at h
      split at h
      · cases h
      · cases h
        exact paragraphs_flatten rest

private theorem map_of_mapM {α β : Type} {f : α → Option β} {l : List α} {l' : List β}
    (h : l.mapM f = some l') : l.map f = l'.map some := by
  induction l generalizing l' with
  | nil =>
      cases h
      rfl
  | cons a l ih =>
      rw [List.mapM_cons] at h
      obtain ⟨b, hb, h⟩ := Option.bind_eq_some_iff.mp h
      obtain ⟨bs, hbs, h⟩ := Option.bind_eq_some_iff.mp h
      cases h
      rw [List.map_cons, List.map_cons, hb, ih hbs]

private theorem filterMap_of_map {α β : Type} {f : α → Option β} {l : List α} {l' : List β}
    (h : l.map f = l'.map some) : l.filterMap f = l' := by
  have hid : l.filterMap f = (l.map f).filterMap id := by rw [List.filterMap_map, Function.id_comp]
  rw [hid, h, List.filterMap_map, Function.id_comp, List.filterMap_some]

theorem readBlock_lines {block : List Bytes} {e : RegistryEntry} (h : readBlock block = some e) :
    ∃ kvs : Fields, block.map lineField = kvs.map some ∧ fieldsToEntry kvs.reverse = some e := by
  obtain ⟨fields, hfields, he⟩ := Option.bind_eq_some_iff.mp h
  obtain ⟨kvs, hmap, rfl⟩ := Option.map_eq_some_iff.mp hfields
  exact ⟨kvs, map_of_mapM hmap, he⟩

private theorem lineField_known {line : Bytes} {kv : Bytes × Bytes} (h : lineField line = some kv) :
    kv.1 ∈ kFieldOrder := by
  unfold lineField at h
  exact List.contains_iff_mem.mp (Option.filter_eq_some_iff.mp h).2

private theorem kFieldOrder_nodup : kFieldOrder.Nodup := by decide

theorem accounts_iff {block : List Bytes} {e : RegistryEntry} (h : readBlock block = some e) :
    Accounts block e ↔ ¬RepeatsField block := by
  obtain ⟨kvs, hmap, he⟩ := readBlock_lines h
  rw [RepeatsField, not_not, filterMap_of_map hmap]
  constructor
  · rintro ⟨kvs', hmap', hperm, -⟩
    have hsame : kvs' = kvs := (filterMap_of_map hmap').symm.trans (filterMap_of_map hmap)
    rw [← hsame]
    exact hperm.nodup_iff.mpr kFieldOrder_nodup
  · intro hnodup
    have hfields := fieldsToEntry_fieldOf he
    have hmem (key value : Bytes) (hlookup : kvs.reverse.lookup key = some value) :
        (key, value) ∈ kvs := by
      obtain ⟨l₁, l₂, hsplit, -⟩ := List.lookup_eq_some_iff.mp hlookup
      rw [← List.mem_reverse, hsplit]
      exact List.mem_append_right l₁ List.mem_cons_self
    have hknown (kv : Bytes × Bytes) (hkv : kv ∈ kvs) : kv.1 ∈ kFieldOrder := by
      have hsome : some kv ∈ block.map lineField := hmap ▸ List.mem_map_of_mem hkv
      obtain ⟨line, -, hline⟩ := List.mem_map.mp hsome
      exact lineField_known hline
    refine ⟨kvs, hmap, ?_, fun kv hkv => ?_⟩
    · rw [List.perm_ext_iff_of_nodup hnodup kFieldOrder_nodup]
      intro key
      constructor
      · intro hkey
        obtain ⟨kv, hkv, rfl⟩ := List.mem_map.mp hkey
        exact hknown kv hkv
      · intro hkey
        obtain ⟨value, hlookup, -⟩ := hfields key hkey
        exact List.mem_map.mpr ⟨_, hmem key value hlookup, rfl⟩
    · obtain ⟨value, hlookup, hfield⟩ := hfields kv.1 (hknown kv hkv)
      have hsame := List.inj_on_of_nodup_map hnodup hkv (hmem _ _ hlookup) rfl
      rw [hsame]
      exact hfield

theorem Accounts.length {block : List Bytes} {e : RegistryEntry} (h : Accounts block e) :
    block.length = 10 := by
  obtain ⟨kvs, hmap, hperm, -⟩ := h
  have hlines := congrArg List.length hmap
  have hkeys := hperm.length_eq
  rw [List.length_map, List.length_map] at hlines
  rw [List.length_map] at hkeys
  exact hlines.trans hkeys

private theorem accounts_flatten_length {blocks : List (List Bytes)} {entries : List RegistryEntry}
    (h : List.Forall₂ Accounts blocks entries) : blocks.flatten.length = 10 * entries.length := by
  induction h with
  | nil => rfl
  | cons hblock _ ih =>
      rw [List.flatten_cons, List.length_append, hblock.length, ih, List.length_cons]
      omega

/-- Loading accounts for every line, and rejects every repeated field, exactly on the files in which
no field is overwritten. -/
theorem load_accounts_iff {fs : FileSystem} {path : Path} {content : Bytes}
    (h : (fs path).open = some content) :
    ((∀ entries, load fs path = (.ok, entries) → Accounted content entries) ↔
        ¬Overwritten content) ∧
      ((Repeated content → (load fs path).1 = .corrupted) ↔ ¬Overwritten content) := by
  constructor
  · refine Iff.trans ?_ (load_forall_iff (fun _ _ => accounts_iff) h)
    constructor
    · intro haccounted entries hload
      exact (haccounted entries hload).2
    · intro haccounts entries hload
      obtain ⟨blocks, hblocks, hentries⟩ := haccounts entries hload
      refine ⟨?_, blocks, hblocks, hentries⟩
      rw [← registryBlocks_flatten hblocks]
      exact accounts_flatten_length hentries
  · constructor
    · rintro hrejected ⟨blocks, hreadable, hrepeats⟩
      have hcorrupted := hrejected ⟨blocks, hreadable.1, hrepeats⟩
      rw [(load_ok_iff h).mpr ⟨blocks, hreadable⟩] at hcorrupted
      cases hcorrupted
    · rintro hoverwritten ⟨blocks, hblocks, hrepeats⟩
      rw [load_blocks h, hblocks]
      dsimp only
      rw [readBlocks_status, if_neg fun hread => hoverwritten ⟨blocks, ⟨hblocks, hread⟩, hrepeats⟩]

/-- Two entries, and no blank line between them. -/
def runTogether : Bytes :=
  kMagicLine ++ text "\n" ++ entryToLines { modelId := text "a" } ++
    entryToLines { modelId := text "b" }

theorem load_runTogether :
    let fs : FileSystem := fun _ => .file runTogether true
    load fs (text "r") = (.ok, [{ modelId := text "b" }]) ∧
      ¬Accounted runTogether [{ modelId := text "b" }] := by
  intro fs
  refine ⟨by decide +kernel, fun haccounted => ?_⟩
  exact absurd haccounted.1 (by decide +kernel)

/-- With the blank line, both are loaded. -/
theorem load_accounts_separated :
    Accounted (kMagicLine ++ text "\n" ++
      (entriesText [{ modelId := text "a" }, { modelId := text "b" }]).1)
      [{ modelId := text "a" }, { modelId := text "b" }] := by
  let entries : List RegistryEntry := [{ modelId := text "a" }, { modelId := text "b" }]
  let content := kMagicLine ++ text "\n" ++ (entriesText entries).1
  let fs : FileSystem := fun _ => .file content true
  have hload : load fs (text "r") = (.ok, entries) := by decide +kernel
  have hplain : ((registryBlocks content).getD []).all (fun block => ¬RepeatsField block) = true := by
    decide +kernel
  refine (@load_accounts_iff fs (text "r") content rfl).1.mpr ?_ entries hload
  rintro ⟨blocks, ⟨hblocks, -⟩, block, hblock, hrepeats⟩
  rw [hblocks, Option.getD_some, List.all_eq_true] at hplain
  exact of_decide_eq_true (hplain block hblock) hrepeats

end ModelRegistry

end EdgeMind
