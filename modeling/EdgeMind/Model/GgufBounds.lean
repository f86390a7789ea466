import EdgeMind.Framework.Tracing
import EdgeMind.Model.GgufGrammar

/-!
# Declared lengths stay inside the file

The reader over the stream itself, whose position is only kept inside the file by the checks that
the code makes. It notes every move, every buffer it sizes, the arithmetic of its checks and what
an entry or an element took, and returns what the bounded reader returns; every note is in order
for the size of the file.
-/

namespace EdgeMind

open Framework

/-- The strings that are read into memory: keys and captured values. -/
inductive StringBuffer
  | key
  | value

/-- The longest string that is read into the buffer. -/
def StringBuffer.ceiling : StringBuffer → Nat
  | .key => 65535
  | .value => GgufLimits.maxSaneStringBytes

/-- What the reader does on the way. -/
inductive ReaderNote
  /-- A read or a seek left the stream there. -/
  | moved (pos : Nat)
  /-- A seek over `n` bytes is attempted. -/
  | skip (pos n : Nat)
  /-- A read of a string of `n` bytes is attempted. -/
  | stringRead (pos n : Nat)
  /-- A buffer is resized to `n` bytes. -/
  | resize (buffer : StringBuffer) (pos n : Nat)
  | sub (a b : Nat)
  | mul (a b : Nat)
  /-- The `i`-th string of an array was consumed. -/
  | element (i start stop : Nat)
  /-- The `i`-th metadata entry was consumed. -/
  | entry (i start stop : Nat)

def ReaderNote.InOrder (fileSize : Nat) : ReaderNote → Prop
  | .moved pos => pos ≤ fileSize
  | .skip pos n => pos + n ≤ fileSize
  | .stringRead pos n => pos + n ≤ fileSize
  | .resize buffer pos n => n ≤ min buffer.ceiling (fileSize - pos)
  | .sub a b => b ≤ a
  | .mul a b => a * b < 2 ^ 64
  | .element i start stop => start + 8 ≤ stop ∧ 8 * (i + 1) ≤ stop ∧ stop ≤ fileSize
  | .entry i start stop => start + 13 ≤ stop ∧ 24 + 13 * (i + 1) ≤ stop ∧ stop ≤ fileSize

namespace StreamReader

abbrev Step := Traced ReaderNote

def readBytes (n : Nat) : Step Bytes := if n = 0 then return [] else Traced.readNoting .moved n

def readU8 : Step UInt8 := (fun b => b.getD 0 0) <$> readBytes 1

def readU16Le : Step UInt16 := (fun b => u16OfLe (b.getD 0 0) (b.getD 1 0)) <$> readBytes 2

def readU32Le : Step UInt32 :=
  (fun b => u32OfLe (b.getD 0 0) (b.getD 1 0) (b.getD 2 0) (b.getD 3 0)) <$> readBytes 4

def readU64Le : Step UInt64 := u64OfLe <$> readBytes 8

def readI32Le : Step Int32 := UInt32.toInt32 <$> readU32Le

/-- The check of `skip` and `read_string_bounded`, with its subtraction. -/
def requireRoom (n : Nat) : Step Unit := do
  let curPos ← Traced.tellg
  let fileSize ← Traced.fileSize
  Traced.require (n ≤ fileSize)
  Traced.record (.sub fileSize n)
  Traced.require (curPos ≤ fileSize - n)

def skip (n : Nat) : Step Unit := do
  requireRoom n
  let curPos ← Traced.tellg
  Traced.record (.skip curPos n)
  Traced.seekNoting .moved n

def readStringBounded (buffer : StringBuffer) (len maxLen : Nat) : Step Bytes := do
  Traced.require (len ≤ maxLen)
  requireRoom len
  let curPos ← Traced.tellg
  Traced.record (.resize buffer curPos len)
  if len = 0 then return []
  else do
    Traced.record (.stringRead curPos len)
    readBytes len

def consumeStringValue (capture : Bool) : Step Bytes := do
  let len ← readU64Le
  Traced.require (len.toNat ≤ GgufLimits.maxSaneStringBytes)
  if capture then readStringBounded .value len.toNat GgufLimits.maxSaneStringBytes
  else do
    skip len.toNat
    return []

def consumeScalarValue (type : GgufType) (captureNumeric captureString : Bool) : Step Captured :=
  if type = .string then do
    let s ← consumeStringValue captureString
    return { string := s }
  else do
    let width := fixedScalarWidth type
    Traced.require (width ≠ 0)
    if !captureNumeric then do
      skip width
      return {}
    else
      match type with
      | .uint8 | .int8 | .bool => do
          let v ← readU8
          return { numeric := v.toUInt64 }
      | .uint16 | .int16 => do
          let v ← readU16Le
          return { numeric := v.toUInt64 }
      | .uint32 | .int32 => do
          let v ← readU32Le
          return { numeric := v.toUInt64 }
      | .float32 => do
          skip 4
          return {}
      | .uint64 | .int64 => do
          let v ← readU64Le
          return { numeric := v }
      | .float64 => do
          skip 8
          return {}
      | .string | .array => Traced.fail

def readGgufType (check : Int32 → Bool) : Step GgufType := do
  let raw ← readI32Le
  Traced.require (check raw)
  Traced.ofOption (castGgufType raw)

/-- The strings of an array from the `i`-th on. -/
def consumeStrings (i : Nat) : Nat → Step Unit
  | 0 => return ()
  | count + 1 => do
      let start ← Traced.tellg
      let _ ← consumeStringValue false
      let stop ← Traced.tellg
      Traced.record (.element i start stop)
      consumeStrings (i + 1) count

def consumeElements (elemType : GgufType) (count : UInt64) : Step Unit :=
  if elemType = .string then consumeStrings 0 count.toNat
  else do
    let width := fixedScalarWidth elemType
    Traced.require (width ≠ 0)
    Traced.record (.mul width count.toNat)
    skip (UInt64.ofNat width * count).toNat

def consumeArrayValue : Step Unit := do
  let elemType ← readGgufType isKnownGgufType
  Traced.require (elemType ≠ .array)
  let count ← readU64Le
  Traced.require (count.toNat ≤ GgufLimits.maxSaneArrayCount)
  consumeElements elemType count

def consumeValue (type : GgufType) (captureNumeric captureString : Bool) : Step Captured :=
  if type ≠ .array then consumeScalarValue type captureNumeric captureString
  else do
    consumeArrayValue
    return {}

def kvEntry (s : KvState) : Step KvState := do
  let keyLen ← readU64Le
  let key ← readStringBounded .key keyLen.toNat 65535
  let type ← readGgufType fun raw => isKnownGgufType raw || raw = 9
  let want := wanted key type
  let v ← consumeValue type (want.quantVersion || want.fileType || want.contextLengthKey)
    (want.architecture || want.name)
  return s.store key want v

/-- The entries from the `i`-th on. -/
def kvLoop (i : Nat) : Nat → KvState → FileStream →
    List ReaderNote × (KvState × Option FileStream)
  | 0, s, c => ([], s, some c)
  | n + 1, s, c =>
      (kvEntry s).andThen (s, none) (fun s' c' =>
        (.entry i c.pos c'.pos :: (kvLoop (i + 1) n s' c').1, (kvLoop (i + 1) n s' c').2)) c

/-- Validation of an open file, with what it does on the way. -/
def validateContent (content : Bytes) :
    List ReaderNote × (GgufValidationStatus × ModelMetadata) :=
  if content.length = 0 then ([], .fileEmpty, {})
  else if content.length < 24 then ([], .truncatedHeader, {})
  else
    (readBytes 4).andThen (.truncatedHeader, {}) (fun magic =>
      if magic ≠ text "GGUF" then fun _ => ([], .invalidMagic, {})
      else readU32Le.andThen (.truncatedHeader, {}) fun version =>
        if version ≠ 2 ∧ version ≠ 3 then fun _ => ([], .unsupportedVersion, {})
        else (Prod.mk <$> readU64Le <*> readU64Le).andThen (.truncatedHeader, {})
          fun (tensorCount, metadataKvCount) =>
            if tensorCount.toNat > GgufLimits.maxSaneTensorCount ∨
                metadataKvCount.toNat > GgufLimits.maxSaneKvCount then
              fun _ => ([], .malformedMetadata, {})
            else fun c =>
              match kvLoop 0 metadataKvCount.toNat
                { metadata := { ggufVersion := version, tensorCount, metadataKvCount } } c with
              | (notes, s, none) => (notes, .malformedMetadata, s.metadata)
              | (notes, s, some _) => (notes, .valid, s.finish)) ⟨content, 0⟩

variable (c : Cursor)

theorem follows_readBytes (n : Nat) :
    Follows ReaderNote.InOrder (readBytes n) (BoundedReader.readBytes n) c := by
  unfold readBytes BoundedReader.readBytes
  split
  · exact .pure []
  · exact .readNoting (fun _ h => h) n

theorem follows_readU8 : Follows ReaderNote.InOrder readU8 BoundedReader.readU8 c :=
  (follows_readBytes c 1).map _

theorem follows_readU16Le : Follows ReaderNote.InOrder readU16Le BoundedReader.readU16Le c :=
  (follows_readBytes c 2).map _

theorem follows_readU32Le : Follows ReaderNote.InOrder readU32Le BoundedReader.readU32Le c :=
  (follows_readBytes c 4).map _

theorem follows_readU64Le : Follows ReaderNote.InOrder readU64Le BoundedReader.readU64Le c :=
  (follows_readBytes c 8).map _

theorem follows_readI32Le : Follows ReaderNote.InOrder readI32Le BoundedReader.readI32Le c :=
  (follows_readU32Le c).map _

theorem requireRoom_eq_some {n : Nat} {c c' : Cursor} {u : Unit}
    (h : BoundedReader.requireRoom n c = some (u, c')) :
    c' = c ∧ c.pos + n ≤ c.data.length := by
  rw [BoundedReader.requireRoom] at h
  split at h
  · cases h
  · cases h
    exact ⟨rfl, by omega⟩

theorem follows_requireRoom (n : Nat) :
    Follows ReaderNote.InOrder (requireRoom n) (BoundedReader.requireRoom n) c := by
  have heq : BoundedReader.requireRoom n c = (Reader.require (n ≤ c.data.length) >>= fun _ =>
      Reader.require (c.pos ≤ c.data.length - n)) c := by
    rw [BoundedReader.requireRoom]
    by_cases hn : n ≤ c.data.length
    · by_cases hpos : c.pos ≤ c.data.length - n
      · rw [if_neg (by omega), decide_eq_true hn, decide_eq_true hpos]
        rfl
      · rw [if_pos (by omega), decide_eq_true hn, decide_eq_false hpos]
        rfl
    · rw [if_pos (by omega), decide_eq_false hn]
      rfl
  have hfollows : Follows ReaderNote.InOrder (requireRoom n)
      (Reader.require (n ≤ c.data.length) >>= fun _ =>
        Reader.require (c.pos ≤ c.data.length - n)) c :=
    .tellg (.fileSize (.guard fun hn =>
      .record (show n ≤ c.data.length from of_decide_eq_true hn) (.require _)))
  exact hfollows.congr heq

theorem follows_skip (n : Nat) :
    Follows ReaderNote.InOrder (skip n) (BoundedReader.skip n) c := by
  refine (follows_requireRoom c n).bind fun _ c' h => ?_
  obtain ⟨rfl, hroom⟩ := requireRoom_eq_some h
  exact .tellg (.record hroom (.seekNoting hroom hroom))

theorem follows_readStringBounded (buffer : StringBuffer) {len maxLen : Nat}
    (hmax : maxLen ≤ buffer.ceiling) : Follows ReaderNote.InOrder
      (readStringBounded buffer len maxLen) (BoundedReader.readStringBounded len maxLen) c := by
  refine .guard fun hlen => (follows_requireRoom c len).bind fun _ c' h => ?_
  obtain ⟨rfl, hroom⟩ := requireRoom_eq_some h
  have hbuffer : len ≤ min buffer.ceiling (c'.data.length - c'.pos) :=
    le_min ((of_decide_eq_true hlen).trans hmax) (by omega)
  refine .tellg (.record hbuffer ?_)
  split
  · exact .pure []
  · exact .record hroom (follows_readBytes c' len)

theorem follows_consumeStringValue (capture : Bool) : Follows ReaderNote.InOrder
    (consumeStringValue capture) (EdgeMind.consumeStringValue capture) c := by
  refine (follows_readU64Le c).bind fun len c' _ => .guard fun _ => ?_
  cases capture with
  | true => exact follows_readStringBounded c' .value le_rfl
  | false => exact (follows_skip c' len.toNat).bind fun _ c'' _ => .pure []

theorem follows_consumeScalarValue (type : GgufType) (captureNumeric captureString : Bool) :
    Follows ReaderNote.InOrder (consumeScalarValue type captureNumeric captureString)
      (EdgeMind.consumeScalarValue type captureNumeric captureString) c := by
  unfold consumeScalarValue EdgeMind.consumeScalarValue
  split
  · exact (follows_consumeStringValue c captureString).bind fun s _ _ => .pure _
  · refine .guard fun _ => ?_
    cases captureNumeric with
    | false => exact (follows_skip c _).bind fun _ _ _ => .pure _
    | true =>
        cases type with
        | uint8 | int8 | bool => exact (follows_readU8 c).bind fun _ _ _ => .pure _
        | uint16 | int16 => exact (follows_readU16Le c).bind fun _ _ _ => .pure _
        | uint32 | int32 => exact (follows_readU32Le c).bind fun _ _ _ => .pure _
        | uint64 | int64 => exact (follows_readU64Le c).bind fun _ _ _ => .pure _
        | float32 => exact (follows_skip c 4).bind fun _ _ _ => .pure _
        | float64 => exact (follows_skip c 8).bind fun _ _ _ => .pure _
        | string | array => exact .fail

theorem follows_readGgufType (check : Int32 → Bool) : Follows ReaderNote.InOrder
    (readGgufType check) (EdgeMind.readGgufType check) c :=
  (follows_readI32Le c).bind fun _ _ _ => .guard fun _ => .ofOption _

theorem consumeStringValue_advances {capture : Bool} {c c' : Cursor} {s : Bytes}
    (h : EdgeMind.consumeStringValue capture c = some (s, c')) : c.pos + 8 ≤ c'.pos := by
  obtain ⟨w, ⟨body, hw, -⟩, -, hpos, -⟩ := (exact_consumeStringValue capture c s c').mp h
  cases hw with
  | string body hlen =>
      rw [hpos, List.length_append, leBytes_length]
      omega

theorem follows_consumeStrings (i count : Nat) {c : Cursor} (hi : 8 * i ≤ c.pos) :
    Follows ReaderNote.InOrder (consumeStrings i count)
      (Reader.times ((fun _ => ()) <$> EdgeMind.consumeStringValue false) count) c := by
  induction count generalizing i c with
  | zero => exact .pure ()
  | succ count ih =>
      rw [Reader.times, bind_map_left]
      refine .tellg ((follows_consumeStringValue c false).bind fun _ c' h => ?_)
      have hadvance := consumeStringValue_advances h
      exact .tellg (.record ⟨hadvance, by omega, c'.le⟩ (ih (i + 1) (by omega)))

theorem follows_consumeElements (elemType : GgufType) {count : UInt64}
    (hcount : count.toNat ≤ GgufLimits.maxSaneArrayCount) : Follows ReaderNote.InOrder
      (consumeElements elemType count) (EdgeMind.consumeElements elemType count) c := by
  unfold consumeElements EdgeMind.consumeElements
  split
  · exact follows_consumeStrings 0 count.toNat (Nat.zero_le _)
  · have hwidth : fixedScalarWidth elemType ≤ 8 := by cases elemType <;> decide
    have hproduct : fixedScalarWidth elemType * count.toNat < 2 ^ 64 :=
      lt_of_le_of_lt (Nat.mul_le_mul hwidth hcount) (by decide)
    exact .guard fun _ => .record hproduct (follows_skip c _)

theorem follows_consumeArrayValue :
    Follows ReaderNote.InOrder consumeArrayValue EdgeMind.consumeArrayValue c :=
  (follows_readGgufType c _).bind fun elemType c' _ => .guard fun _ =>
    (follows_readU64Le c').bind fun _ c'' _ => .guard fun hcount =>
      follows_consumeElements c'' elemType (of_decide_eq_true hcount)

theorem follows_consumeValue (type : GgufType) (captureNumeric captureString : Bool) :
    Follows ReaderNote.InOrder (consumeValue type captureNumeric captureString)
      (EdgeMind.consumeValue type captureNumeric captureString) c := by
  unfold consumeValue EdgeMind.consumeValue
  split
  · exact follows_consumeScalarValue c type captureNumeric captureString
  · exact (follows_consumeArrayValue c).bind fun _ _ _ => .pure _

theorem follows_kvEntry (s : KvState) :
    Follows ReaderNote.InOrder (kvEntry s) (EdgeMind.kvEntry s) c :=
  (follows_readU64Le c).bind fun _ c1 _ =>
    (follows_readStringBounded c1 .key le_rfl).bind fun _ c2 _ =>
      (follows_readGgufType c2 _).bind fun type c3 _ =>
        (follows_consumeValue c3 type _ _).bind fun _ _ _ => .pure _

theorem kvEntry_advances {s s' : KvState} {c c' : Cursor}
    (h : EdgeMind.kvEntry s c = some (s', c')) : c.pos + 13 ≤ c'.pos := by
  obtain ⟨w, ⟨⟨key, type, value⟩, ⟨v, -, hv, rfl⟩, -⟩, -, hpos, -⟩ :=
    (exact_kvEntry s c s' c').mp h
  have hvalue : 1 ≤ v.length := by
    cases hv with
    | scalar hv =>
        cases hv with
        | fixed _ hk hraw =>
            rw [hraw]
            cases hk <;> decide
        | string body hlen =>
            rw [List.length_append, leBytes_length]
            omega
    | array elemType count _ _ _ =>
        rw [List.length_append, leBytes_length]
        omega
  rw [hpos]
  simp only [List.length_append, leBytes_length]
  omega

theorem kvLoop_follows (i n : Nat) (s : KvState) {c : Cursor} (hi : 24 + 13 * i ≤ c.pos) :
    (∀ e ∈ (kvLoop i n s c.stream).1, e.InOrder c.data.length) ∧
      (kvLoop i n s c.stream).2 =
        ((EdgeMind.kvLoop n s c).1, (EdgeMind.kvLoop n s c).2.map Cursor.stream) := by
  induction n generalizing i s c with
  | zero => exact ⟨fun _ he => absurd he List.not_mem_nil, rfl⟩
  | succ n ih =>
      rw [kvLoop, EdgeMind.kvLoop]
      rcases hentry : EdgeMind.kvEntry s c with _ | ⟨s', c'⟩
      · exact (follows_kvEntry c s).andThen_none hentry
      · have hadvance := kvEntry_advances hentry
        obtain ⟨hnotes, hresult⟩ := ih (i + 1) s' (show 24 + 13 * (i + 1) ≤ c'.pos by omega)
        have hentryNote : ReaderNote.InOrder c'.data.length (.entry i c.pos c'.pos) :=
          ⟨hadvance, by omega, c'.le⟩
        exact (follows_kvEntry c s).andThen_some hentry
          ⟨List.forall_mem_cons.mpr ⟨hentryNote, hnotes⟩, hresult⟩

private theorem readBytes_moves {n : Nat} {c c' : Cursor} {b : Bytes}
    (h : BoundedReader.readBytes n c = some (b, c')) : c'.pos = c.pos + n := by
  obtain ⟨w, ⟨-, hw⟩, -, hpos, -⟩ := (BoundedReader.exact_readBytes n c b c').mp h
  rw [hpos, hw]

private theorem readU32Le_moves {c c' : Cursor} {v : UInt32}
    (h : BoundedReader.readU32Le c = some (v, c')) : c'.pos = c.pos + 4 := by
  obtain ⟨w, ⟨hw, -⟩, -, hpos, -⟩ := (BoundedReader.exact_readU32Le c v c').mp h
  rw [hpos, hw]

private theorem readCounts_moves {c c' : Cursor} {counts : UInt64 × UInt64}
    (h : (Prod.mk <$> BoundedReader.readU64Le <*> BoundedReader.readU64Le) c = some (counts, c')) :
    c'.pos = c.pos + 16 := by
  have hexact := (BoundedReader.exact_readU64Le.map Prod.mk).bind fun pair =>
    BoundedReader.exact_readU64Le.map pair
  rw [seq_eq_bind_map] at h
  obtain ⟨w, ⟨_, u, v, ⟨_, -, hu, -⟩, ⟨_, -, hv, -⟩, rfl⟩, -, hpos, -⟩ :=
    (hexact c counts c').mp h
  rw [hpos, List.length_append, hu, hv]

/-- Whatever lengths and counts a file declares, validation never leaves the file and never sizes a
buffer beyond it, its checks do not wrap, and every entry and every string of an array that it
consumes takes its share of the file. -/
theorem validateContent_inOrder (content : Bytes) :
    (∀ e ∈ (validateContent content).1, e.InOrder content.length) ∧
      (validateContent content).2 = EdgeMind.validateContent content := by
  have hnil (r : GgufValidationStatus × ModelMetadata) (n : Nat) :
      (∀ e ∈ (([], r) : List ReaderNote × (GgufValidationStatus × ModelMetadata)).1, e.InOrder n) ∧
        (([], r) : List ReaderNote × (GgufValidationStatus × ModelMetadata)).2 = r :=
    ⟨fun _ he => absurd he List.not_mem_nil, rfl⟩
  unfold validateContent EdgeMind.validateContent
  split
  · exact hnil _ _
  split
  · exact hnil _ _
  have hmagic := follows_readBytes (.start content) 4
  rcases hm : BoundedReader.readBytes 4 (.start content) with _ | ⟨magic, c1⟩
  · exact hmagic.andThen_none hm
  refine hmagic.andThen_some hm ?_
  dsimp only
  split
  · exact hnil _ _
  have hversion := follows_readU32Le c1
  rcases hv : BoundedReader.readU32Le c1 with _ | ⟨version, c2⟩
  · exact hversion.andThen_none hv
  refine hversion.andThen_some hv ?_
  dsimp only
  split
  · exact hnil _ _
  have hcounts := ((follows_readU64Le c2).map Prod.mk).seq fun _ c' _ => follows_readU64Le c'
  rcases hc : (Prod.mk <$> BoundedReader.readU64Le <*> BoundedReader.readU64Le) c2
    with _ | ⟨⟨tensorCount, kvCount⟩, c3⟩
  · exact hcounts.andThen_none hc
  refine hcounts.andThen_some hc ?_
  dsimp only
  split
  · exact hnil _ _
  have hpos : 24 + 13 * 0 ≤ c3.pos := by
    have h1 := readBytes_moves hm
    have h2 := readU32Le_moves hv
    have h3 := readCounts_moves hc
    omega
  obtain ⟨hnotes, hloop⟩ := kvLoop_follows 0 kvCount.toNat
    { metadata := { ggufVersion := version, tensorCount, metadataKvCount := kvCount } } hpos
  beta_reduce
  generalize kvLoop 0 kvCount.toNat _ c3.stream = r at hnotes hloop ⊢
  obtain ⟨notes, s, end_⟩ := r
  rw [Prod.mk.injEq] at hloop
  obtain ⟨rfl, rfl⟩ := hloop
  rcases EdgeMind.kvLoop kvCount.toNat _ c3 with ⟨s, _ | c4⟩
  · exact ⟨hnotes, rfl⟩
  · exact ⟨hnotes, rfl⟩

end StreamReader

end EdgeMind
