import EdgeMind.Model.GgufReader

/-!
# The GGUF grammar and what the reader accepts

The accepted files as a grammar over byte strings, written without the reader: integers are
little-endian strings, values are described by their type, an entry is a key with a typed value.
The reader is exact for it, entry by entry and so for the whole metadata section.
-/

namespace EdgeMind

open Framework

/-- What a metadata value consists of; array elements are not looked at. -/
inductive GgufValue
  | scalar (raw : Bytes)
  | string (body : Bytes)
  | array

structure KvEntry where
  key : Bytes
  type : GgufType
  value : GgufValue

/-- The types whose values have a fixed width, with the width. -/
inductive FixedWidth : GgufType → Nat → Prop
  | uint8 : FixedWidth .uint8 1
  | int8 : FixedWidth .int8 1
  | bool : FixedWidth .bool 1
  | uint16 : FixedWidth .uint16 2
  | int16 : FixedWidth .int16 2
  | uint32 : FixedWidth .uint32 4
  | int32 : FixedWidth .int32 4
  | float32 : FixedWidth .float32 4
  | uint64 : FixedWidth .uint64 8
  | int64 : FixedWidth .int64 8
  | float64 : FixedWidth .float64 8

/-- A value that is not an array: a scalar of its width, or a string after its length. -/
inductive ScalarBytes : GgufType → GgufValue → Bytes → Prop
  | fixed {type k} (raw : Bytes) (hk : FixedWidth type k) (hraw : raw.length = k) :
      ScalarBytes type (.scalar raw) raw
  | string (body : Bytes) (hlen : body.length ≤ 16 * 1024 * 1024) :
      ScalarBytes .string (.string body) (leBytes 8 body.length ++ body)

inductive ValueBytes : GgufType → GgufValue → Bytes → Prop
  | scalar {type v w} (h : ScalarBytes type v w) : ValueBytes type v w
  | array {elems} (elemType : GgufType) (count : Nat) (helem : elemType ≠ .array)
      (hcount : count ≤ 10000000)
      (helems : Reader.Repeat (fun w => ∃ v, ScalarBytes elemType v w) count elems) :
      ValueBytes .array .array (leBytes 4 elemType.code ++ (leBytes 8 count ++ elems))

/-- Key length, key, type code and value. -/
def EntryBytes (e : KvEntry) (w : Bytes) : Prop :=
  ∃ v, e.key.length ≤ 65535 ∧ ValueBytes e.type e.value v ∧
    w = leBytes 8 e.key.length ++ (e.key ++ (leBytes 4 e.type.code ++ v))

inductive EntriesBytes : List KvEntry → Bytes → Prop
  | nil : EntriesBytes [] []
  | cons {e es u v} (he : EntryBytes e u) (hes : EntriesBytes es v) :
      EntriesBytes (e :: es) (u ++ v)

/-- A file with the given header and entries; whatever follows the entries is not looked at. -/
def FileBytes (version tensorCount : Nat) (entries : List KvEntry) (content : Bytes) : Prop :=
  ∃ section_ tail, (version = 2 ∨ version = 3) ∧ tensorCount ≤ 1000000 ∧
    entries.length ≤ 100000 ∧ EntriesBytes entries section_ ∧
    content = text "GGUF" ++ (leBytes 4 version ++ (leBytes 8 tensorCount ++
      (leBytes 8 entries.length ++ (section_ ++ tail))))

/-- The files of the grammar. -/
def GrammarValid (content : Bytes) : Prop :=
  ∃ version tensorCount entries, FileBytes version tensorCount entries content

/-- The first thing that is wrong with a file outside the grammar. -/
def firstDefect (content : Bytes) : GgufValidationStatus :=
  if content = [] then .fileEmpty
  else if content.length < 24 then .truncatedHeader
  else if content.take 4 ≠ text "GGUF" then .invalidMagic
  else if leNat ((content.drop 4).take 4) ≠ 2 ∧ leNat ((content.drop 4).take 4) ≠ 3 then
    .unsupportedVersion
  else .malformedMetadata

namespace BoundedReader

theorem exact_readBytes (n : Nat) :
    Reader.Exact (readBytes n) fun a w => a = w ∧ w.length = n := by
  unfold readBytes
  split
  · next h =>
      subst n
      refine (Reader.exact_pure _).congr fun a w => ?_
      rw [List.length_eq_zero_iff]
      exact ⟨fun h => ⟨h.1.trans h.2.symm, h.2⟩, fun h => ⟨h.1.trans h.2, h.2⟩⟩
  · exact Reader.exact_bytes n

theorem exact_readU8 : Reader.Exact readU8 fun v w => w.length = 1 ∧ v.toNat = leNat w := by
  refine ((exact_readBytes 1).map _).congr fun v w => ?_
  constructor
  · intro h
    obtain ⟨_, rfl, rfl, hlen⟩ := h
    obtain ⟨b, rfl⟩ := List.length_eq_one_iff.mp hlen
    exact ⟨rfl, by simp⟩
  · intro h
    obtain ⟨hlen, hv⟩ := h
    obtain ⟨b, rfl⟩ := List.length_eq_one_iff.mp hlen
    exact ⟨[b], UInt8.toNat_inj.mp (by simpa using hv), rfl, rfl⟩

theorem exact_readU16Le :
    Reader.Exact readU16Le fun v w => w.length = 2 ∧ v.toNat = leNat w := by
  refine ((exact_readBytes 2).map _).congr fun v w => ?_
  constructor
  · intro h
    obtain ⟨_, rfl, rfl, hlen⟩ := h
    obtain ⟨b0, b1, rfl⟩ := List.length_eq_two.mp hlen
    exact ⟨rfl, u16OfLe_toNat b0 b1⟩
  · intro h
    obtain ⟨hlen, hv⟩ := h
    obtain ⟨b0, b1, rfl⟩ := List.length_eq_two.mp hlen
    exact ⟨[b0, b1], UInt16.toNat_inj.mp (hv.trans (u16OfLe_toNat b0 b1).symm), rfl, rfl⟩

private theorem length_eq_four {w : Bytes} (h : w.length = 4) :
    ∃ b0 b1 b2 b3, w = [b0, b1, b2, b3] := by
  match w, h with
  | [b0, b1, b2, b3], _ => exact ⟨b0, b1, b2, b3, rfl⟩

theorem exact_readU32Le :
    Reader.Exact readU32Le fun v w => w.length = 4 ∧ v.toNat = leNat w := by
  refine ((exact_readBytes 4).map _).congr fun v w => ?_
  constructor
  · intro h
    obtain ⟨_, rfl, rfl, hlen⟩ := h
    obtain ⟨b0, b1, b2, b3, rfl⟩ := length_eq_four hlen
    exact ⟨rfl, u32OfLe_toNat b0 b1 b2 b3⟩
  · intro h
    obtain ⟨hlen, hv⟩ := h
    obtain ⟨b0, b1, b2, b3, rfl⟩ := length_eq_four hlen
    have hu := hv.trans (u32OfLe_toNat b0 b1 b2 b3).symm
    exact ⟨[b0, b1, b2, b3], UInt32.toNat_inj.mp hu, rfl, rfl⟩

theorem exact_readU64Le :
    Reader.Exact readU64Le fun v w => w.length = 8 ∧ v.toNat = leNat w := by
  refine ((exact_readBytes 8).map _).congr fun v w => ?_
  constructor
  · intro h
    obtain ⟨_, rfl, rfl, hlen⟩ := h
    exact ⟨hlen, u64OfLe_toNat _ hlen.le⟩
  · intro h
    obtain ⟨hlen, hv⟩ := h
    exact ⟨w, UInt64.toNat_inj.mp (hv.trans (u64OfLe_toNat w hlen.le).symm), rfl, hlen⟩

theorem exact_readI32Le :
    Reader.Exact readI32Le fun v w => w.length = 4 ∧ v.toUInt32.toNat = leNat w := by
  refine (exact_readU32Le.map _).congr fun v w => ?_
  constructor
  · intro h
    obtain ⟨u, rfl, hw⟩ := h
    simpa using hw
  · intro hw
    exact ⟨v.toUInt32, by simp, hw⟩

private theorem requireRoom_bytes (n : Nat) :
    (requireRoom n >>= fun _ => Reader.bytes n) = Reader.bytes n := by
  funext c
  have hb : (requireRoom n >>= fun _ => Reader.bytes n) c =
      (requireRoom n c).bind fun ac => Reader.bytes n ac.2 := rfl
  have hle := c.le
  rw [hb, requireRoom]
  split
  · next hroom =>
      rw [Reader.bytes, dif_neg (by omega)]
      rfl
  · rfl

theorem exact_skip (n : Nat) : Reader.Exact (skip n) fun _ w => w.length = n := by
  have hs : skip n = (fun _ => ()) <$> Reader.bytes n := by
    rw [← requireRoom_bytes n, map_bind]
    rfl
  rw [hs]
  exact ((Reader.exact_bytes n).map _).congr fun _ w => by simp

theorem exact_readStringBounded (len maxLen : Nat) :
    Reader.Exact (readStringBounded len maxLen) fun a w =>
      a = w ∧ w.length = len ∧ len ≤ maxLen := by
  have hread : (if len = 0 then pure [] else readBytes len) = Reader.bytes len := by
    split
    · next h =>
        subst h
        funext c
        rw [Reader.bytes, dif_pos (Nat.zero_le _)]
        rfl
    · next h => rw [readBytes, if_neg h]
  have hdef : readStringBounded len maxLen =
      Reader.require (len ≤ maxLen) >>= fun _ => Reader.bytes len := by
    rw [readStringBounded, hread, requireRoom_bytes]
  rw [hdef]
  refine ((Reader.exact_require _).bind fun _ => Reader.exact_bytes len).congr fun a w => ?_
  simp only [decide_eq_true_eq]
  constructor
  · intro h
    obtain ⟨_, u, v, ⟨hle, rfl⟩, ⟨rfl, hlen⟩, rfl⟩ := h
    exact ⟨rfl, hlen, hle⟩
  · intro h
    obtain ⟨rfl, hlen, hle⟩ := h
    exact ⟨(), [], a, ⟨hle, rfl⟩, ⟨rfl, hlen⟩, rfl⟩

end BoundedReader

open BoundedReader

private theorem exact_readU64Le_leBytes :
    Reader.Exact readU64Le fun v w => w = leBytes 8 v.toNat :=
  exact_readU64Le.congr fun v w => by
    rw [eq_leBytes_iff (show v.toNat < 256 ^ 8 from v.toNat_lt), eq_comm (a := v.toNat)]

private theorem ofNat_toNat_of_le {n m : Nat} (h : n ≤ m) (hm : m < 2 ^ 64) :
    (UInt64.ofNat n).toNat = n :=
  UInt64.toNat_ofNat_of_lt' (lt_of_le_of_lt h hm)

private theorem scalarBytes_string_iff (v : GgufValue) (w : Bytes) :
    ScalarBytes .string v w ↔ ∃ body, v = .string body ∧ body.length ≤ 16 * 1024 * 1024 ∧
      w = leBytes 8 body.length ++ body := by
  constructor
  · intro h
    cases h with
    | fixed raw hk hraw => cases hk
    | string body hlen => exact ⟨body, rfl, hlen, rfl⟩
  · intro h
    obtain ⟨body, rfl, hlen, rfl⟩ := h
    exact .string body hlen

private theorem scalarBytes_fixed_iff {type : GgufType} {k : Nat} (hk : FixedWidth type k)
    (v : GgufValue) (w : Bytes) : ScalarBytes type v w ↔ v = .scalar w ∧ w.length = k := by
  constructor
  · intro h
    cases h with
    | fixed raw hk' hraw => cases hk <;> cases hk' <;> exact ⟨rfl, hraw⟩
    | string body hlen => cases hk
  · intro h
    obtain ⟨rfl, hw⟩ := h
    exact .fixed w hk hw

private theorem exact_stringBody (capture : Bool) (len : Nat)
    (hlen : len ≤ GgufLimits.maxSaneStringBytes) :
    Reader.Exact (if capture then readStringBounded len GgufLimits.maxSaneStringBytes
      else do
        skip len
        return []) fun s w => w.length = len ∧ s = if capture then w else [] := by
  cases capture with
  | false =>
      refine ((exact_skip len).map fun _ => ([] : Bytes)).congr fun s w => ?_
      simp [and_comm]
  | true =>
      refine (exact_readStringBounded len _).congr fun s w => ?_
      simp [hlen, and_comm]

theorem exact_consumeStringValue (capture : Bool) :
    Reader.Exact (consumeStringValue capture) fun s w => ∃ body,
      ScalarBytes .string (.string body) w ∧ s = if capture then body else [] := by
  refine (exact_readU64Le_leBytes.bind fun len => Reader.Exact.guard fun h =>
    exact_stringBody capture len.toNat (of_decide_eq_true h)).congr fun s w => ?_
  simp only [scalarBytes_string_iff, GgufValue.string.injEq, decide_eq_true_eq]
  constructor
  · intro h
    obtain ⟨len, u, body, rfl, ⟨hle, hlen, rfl⟩, rfl⟩ := h
    rw [← hlen] at hle ⊢
    exact ⟨body, ⟨body, rfl, hle, rfl⟩, rfl⟩
  · intro h
    obtain ⟨body, ⟨_, rfl, hle, rfl⟩, rfl⟩ := h
    have hval := ofNat_toNat_of_le hle (by decide)
    refine ⟨UInt64.ofNat body.length, _, body, rfl, ⟨?_, hval.symm, rfl⟩, ?_⟩
    · rw [hval]
      exact hle
    · rw [hval]

def capturedOf (type : GgufType) (captureNumeric captureString : Bool) : GgufValue → Captured
  | .scalar raw =>
      if captureNumeric && type ≠ .float32 && type ≠ .float64 then
        { numeric := UInt64.ofNat (leNat raw) }
      else {}
  | .string body => if captureString then { string := body } else {}
  | .array => {}

private theorem exact_numeric {ν : Type} {k : Nat} {p : Reader ν} {value : ν → Nat}
    (hp : Reader.Exact p fun v w => w.length = k ∧ value v = leNat w) (cast : ν → UInt64)
    (hcast : ∀ v, cast v = UInt64.ofNat (value v))
    (hvalue : ∀ n < 256 ^ k, ∃ v, value v = n) :
    Reader.Exact (p >>= fun v => pure ({ numeric := cast v } : Captured)) fun a w =>
      w.length = k ∧ a = { numeric := UInt64.ofNat (leNat w) } := by
  refine (hp.map fun v => ({ numeric := cast v } : Captured)).congr fun a w => ?_
  constructor
  · intro h
    obtain ⟨v, rfl, hw, hv⟩ := h
    exact ⟨hw, by rw [hcast, hv]⟩
  · intro h
    obtain ⟨hw, rfl⟩ := h
    obtain ⟨v, hv⟩ := hvalue (leNat w) (hw ▸ leNat_lt w)
    exact ⟨v, by rw [hcast, hv], hw, hv⟩

private theorem exact_skipped (k : Nat) :
    Reader.Exact (skip k >>= fun _ => pure ({} : Captured)) fun a w => w.length = k ∧ a = {} :=
  ((exact_skip k).map fun _ => ({} : Captured)).congr fun a w => by simp [and_comm]

private theorem exact_fixed {type : GgufType} {k : Nat} (hk : FixedWidth type k)
    (captureNumeric captureString : Bool) :
    Reader.Exact (consumeScalarValue type captureNumeric captureString) fun a w =>
      w.length = k ∧ a = capturedOf type captureNumeric captureString (.scalar w) := by
  cases captureNumeric with
  | false => cases hk <;> exact exact_skipped _
  | true =>
      have h8 := exact_numeric exact_readU8 UInt8.toUInt64 (fun v => by simp)
        fun n hn => ⟨UInt8.ofNat n, UInt8.toNat_ofNat_of_lt' hn⟩
      have h16 := exact_numeric exact_readU16Le UInt16.toUInt64 (fun v => by simp)
        fun n hn => ⟨UInt16.ofNat n, UInt16.toNat_ofNat_of_lt' hn⟩
      have h32 := exact_numeric exact_readU32Le UInt32.toUInt64 (fun v => by simp)
        fun n hn => ⟨UInt32.ofNat n, UInt32.toNat_ofNat_of_lt' hn⟩
      have h64 := exact_numeric exact_readU64Le id (fun v => by simp)
        fun n hn => ⟨UInt64.ofNat n, UInt64.toNat_ofNat_of_lt' hn⟩
      cases hk with
      | uint8 | int8 | bool => exact h8
      | uint16 | int16 => exact h16
      | uint32 | int32 => exact h32
      | uint64 | int64 => exact h64
      | float32 | float64 => exact exact_skipped _

theorem exact_consumeScalarValue (type : GgufType) (captureNumeric captureString : Bool) :
    Reader.Exact (consumeScalarValue type captureNumeric captureString) fun a w => ∃ v,
      ScalarBytes type v w ∧ a = capturedOf type captureNumeric captureString v := by
  by_cases hfix : ∃ k, FixedWidth type k
  · obtain ⟨k, hk⟩ := hfix
    refine (exact_fixed hk captureNumeric captureString).congr fun a w => ?_
    simp only [scalarBytes_fixed_iff hk]
    constructor
    · intro h
      obtain ⟨hw, rfl⟩ := h
      exact ⟨_, ⟨rfl, hw⟩, rfl⟩
    · intro h
      obtain ⟨_, ⟨rfl, hw⟩, rfl⟩ := h
      exact ⟨hw, rfl⟩
  · have hcases : type = .string ∨ type = .array := by
      cases type <;> first
        | exact Or.inl rfl
        | exact Or.inr rfl
        | exact absurd ⟨_, by constructor⟩ hfix
    rcases hcases with rfl | rfl
    · refine ((exact_consumeStringValue captureString).map fun s =>
        ({ string := s } : Captured)).congr fun a w => ?_
      constructor
      · intro h
        obtain ⟨_, rfl, body, hw, rfl⟩ := h
        refine ⟨_, hw, ?_⟩
        cases captureString <;> rfl
      · intro h
        obtain ⟨v, hw, rfl⟩ := h
        obtain ⟨body, rfl, _⟩ := (scalarBytes_string_iff v w).mp hw
        refine ⟨_, ?_, body, hw, rfl⟩
        cases captureString <;> rfl
    · have hfail : consumeScalarValue .array captureNumeric captureString = failure := rfl
      rw [hfail]
      refine Reader.exact_fail.congr fun a w => ?_
      simp only [false_iff]
      intro h
      obtain ⟨v, h, _⟩ := h
      cases h with
      | fixed raw hk => cases hk

private theorem castGgufType_eq_some_iff (raw : Int32) (type : GgufType) :
    castGgufType raw = some type ↔ raw.toUInt32.toNat = type.code := by
  unfold castGgufType
  constructor
  · intro h
    split at h <;> first
      | (cases h; assumption)
      | cases h
  · intro h
    rw [h]
    cases type <;> rfl

private theorem known_of_code {raw : Int32} {type : GgufType}
    (h : raw.toUInt32.toNat = type.code) : isKnownGgufType raw = true := by
  have hraw : raw = (UInt32.ofNat type.code).toInt32 := by
    rw [← h]; simp
  rw [hraw]
  cases type <;> decide

private theorem code_lt (type : GgufType) : type.code < 2 ^ 32 := by
  cases type <;> decide

private theorem exact_readGgufType (known : Int32 → Bool)
    (hknown : ∀ raw, isKnownGgufType raw = true → known raw = true) :
    Reader.Exact (readGgufType known) fun type w => w = leBytes 4 type.code := by
  refine (exact_readI32Le.bind fun raw => Reader.Exact.guard fun _ =>
    Reader.exact_ofOption (castGgufType raw)).congr fun type w => ?_
  simp only [castGgufType_eq_some_iff, eq_leBytes_iff (show type.code < 256 ^ 4 from code_lt type)]
  constructor
  · intro h
    obtain ⟨raw, u, _, ⟨hu, hraw⟩, ⟨_, hcode, rfl⟩, rfl⟩ := h
    rw [List.append_nil]
    exact ⟨hu, hraw.symm.trans hcode⟩
  · intro h
    obtain ⟨hw, hcode⟩ := h
    have hraw : (UInt32.ofNat type.code).toInt32.toUInt32.toNat = type.code := by
      simpa using UInt32.toNat_ofNat_of_lt' (code_lt type)
    exact ⟨(UInt32.ofNat type.code).toInt32, w, [], ⟨hw, hraw.trans hcode.symm⟩,
      ⟨hknown _ (known_of_code hraw), hraw, rfl⟩, (List.append_nil w).symm⟩

private theorem fixedWidth_of_ne {type : GgufType} (hs : type ≠ .string) (ha : type ≠ .array) :
    FixedWidth type (fixedScalarWidth type) := by
  cases type <;> first
    | exact absurd rfl hs
    | exact absurd rfl ha
    | constructor

private theorem fixedScalarWidth_le (type : GgufType) : fixedScalarWidth type ≤ 8 := by
  cases type <;> decide

private theorem fixedScalarWidth_ne_zero {type : GgufType} (hs : type ≠ .string)
    (ha : type ≠ .array) : fixedScalarWidth type ≠ 0 := by
  cases type <;> first
    | exact absurd rfl hs
    | exact absurd rfl ha
    | decide

private theorem totalBytes_toNat (type : GgufType) {count : UInt64}
    (hcount : count.toNat ≤ GgufLimits.maxSaneArrayCount) :
    (UInt64.ofNat (fixedScalarWidth type) * count).toNat =
      fixedScalarWidth type * count.toNat := by
  have hw := fixedScalarWidth_le type
  have hmul := Nat.mul_le_mul hw hcount
  have hlim : 8 * GgufLimits.maxSaneArrayCount < 2 ^ 64 := by decide
  rw [UInt64.toNat_mul, ofNat_toNat_of_le hw (by decide), Nat.mod_eq_of_lt]
  exact lt_of_le_of_lt hmul hlim

private theorem exact_elements {elemType : GgufType} (helem : elemType ≠ .array) {count : UInt64}
    (hcount : count.toNat ≤ GgufLimits.maxSaneArrayCount) :
    Reader.Exact (consumeElements elemType count) fun _ w =>
      Reader.Repeat (fun w => ∃ v, ScalarBytes elemType v w) count.toNat w := by
  unfold consumeElements
  split
  · next hs =>
      subst hs
      refine Reader.exact_times (((exact_consumeStringValue false).map fun _ => ()).congr
        fun _ w => ?_) count.toNat
      constructor
      · intro h
        obtain ⟨s, _, body, hw, _⟩ := h
        exact ⟨_, hw⟩
      · intro h
        obtain ⟨v, hw⟩ := h
        obtain ⟨body, rfl, _⟩ := (scalarBytes_string_iff v w).mp hw
        exact ⟨[], rfl, body, hw, rfl⟩
  · next hs =>
      have hk := fixedWidth_of_ne hs helem
      have hne := fixedScalarWidth_ne_zero hs helem
      refine (Reader.Exact.guard fun _ => exact_skip _).congr fun _ w => ?_
      have hlang : (fun w => ∃ v, ScalarBytes elemType v w) =
          fun w : Bytes => w.length = fixedScalarWidth elemType := by
        funext w
        simp [scalarBytes_fixed_iff hk]
      rw [hlang, Reader.repeat_width, totalBytes_toNat elemType hcount]
      simp [hne]

theorem exact_consumeArrayValue :
    Reader.Exact consumeArrayValue fun _ w => ValueBytes .array .array w := by
  refine ((exact_readGgufType isKnownGgufType fun _ h => h).bind fun elemType =>
    Reader.Exact.guard fun helem => exact_readU64Le_leBytes.bind fun count =>
      Reader.Exact.guard fun hcount =>
        exact_elements (of_decide_eq_true helem) (of_decide_eq_true hcount)).congr fun _ w => ?_
  simp only [decide_eq_true_eq]
  constructor
  · intro h
    obtain ⟨elemType, _, _, rfl, ⟨helem, count, _, elems, rfl, ⟨hcount, helems⟩, rfl⟩, rfl⟩ := h
    exact .array elemType count.toNat helem hcount helems
  · intro h
    cases h with
    | scalar h => cases h
    | @array elems elemType count helem hcount helems =>
        have hval := ofNat_toNat_of_le hcount (by decide)
        refine ⟨elemType, _, _, rfl, ⟨helem, UInt64.ofNat count, _, elems, rfl, ⟨?_, ?_⟩, ?_⟩, rfl⟩
        · rw [hval]
          exact hcount
        · rw [hval]
          exact helems
        · rw [hval]

theorem exact_consumeValue (type : GgufType) (captureNumeric captureString : Bool) :
    Reader.Exact (consumeValue type captureNumeric captureString) fun a w => ∃ v,
      ValueBytes type v w ∧ a = capturedOf type captureNumeric captureString v := by
  unfold consumeValue
  split
  · next ha =>
      refine (exact_consumeScalarValue type captureNumeric captureString).congr fun a w => ?_
      constructor
      · intro h
        obtain ⟨v, hw, rfl⟩ := h
        exact ⟨v, .scalar hw, rfl⟩
      · intro h
        obtain ⟨v, hw, rfl⟩ := h
        cases hw with
        | scalar hw => exact ⟨v, hw, rfl⟩
        | array => exact absurd rfl ha
  · next ha =>
      have ha : type = .array := not_not.mp ha
      subst ha
      refine (exact_consumeArrayValue.map fun _ => ({} : Captured)).congr fun a w => ?_
      constructor
      · intro h
        obtain ⟨_, rfl, hw⟩ := h
        exact ⟨.array, hw, rfl⟩
      · intro h
        obtain ⟨v, hw, rfl⟩ := h
        cases hw with
        | scalar hw =>
            cases hw with
            | fixed raw hk => cases hk
        | array elemType count helem hcount helems =>
            exact ⟨(), rfl, .array elemType count helem hcount helems⟩

def KvState.note (s : KvState) (e : KvEntry) : KvState :=
  let want := wanted e.key e.type
  s.store e.key want (capturedOf e.type
    (want.quantVersion || want.fileType || want.contextLengthKey)
    (want.architecture || want.name) e.value)

theorem exact_kvEntry (s : KvState) :
    Reader.Exact (kvEntry s) fun s' w => ∃ e, EntryBytes e w ∧ s' = s.note e := by
  refine (exact_readU64Le_leBytes.bind fun keyLen =>
    (exact_readStringBounded keyLen.toNat 65535).bind fun key =>
      (exact_readGgufType (fun raw => isKnownGgufType raw || raw = 9) fun raw h => by simp [h]).bind
        fun type => (exact_consumeValue type _ _).map _).congr fun s' w => ?_
  constructor
  · intro h
    obtain ⟨keyLen, _, _, rfl, ⟨key, _, _, ⟨rfl, hlen, hle⟩, ⟨type, _, vb, rfl, ⟨a, rfl, v, hv,
      rfl⟩, rfl⟩, rfl⟩, rfl⟩ := h
    rw [← hlen] at hle ⊢
    exact ⟨⟨key, type, v⟩, ⟨vb, hle, hv, rfl⟩, rfl⟩
  · intro h
    obtain ⟨⟨key, type, v⟩, ⟨vb, hle, hv, rfl⟩, rfl⟩ := h
    have hval := ofNat_toNat_of_le hle (by decide)
    refine ⟨UInt64.ofNat key.length, _, _, rfl, ⟨key, key, _, ⟨rfl, ?_, ?_⟩,
      ⟨type, _, vb, rfl, ⟨_, rfl, v, hv, rfl⟩, rfl⟩, rfl⟩, ?_⟩
    · rw [hval]
    · rw [hval]
      exact hle
    · rw [hval]

theorem kvLoop_eq_some_iff (n : Nat) (s s' : KvState) (c c' : Cursor) :
    kvLoop n s c = (s', some c') ↔ ∃ es w, es.length = n ∧ EntriesBytes es w ∧
      c.Consumes w c' ∧ s' = es.foldl KvState.note s := by
  induction n generalizing s c with
  | zero =>
      rw [kvLoop, Prod.mk.injEq, Option.some.injEq]
      constructor
      · intro h
        obtain ⟨rfl, rfl⟩ := h
        exact ⟨[], [], rfl, .nil, Cursor.consumes_nil_iff.mpr rfl, rfl⟩
      · intro h
        obtain ⟨es, w, hlen, hes, hc, rfl⟩ := h
        obtain rfl := List.length_eq_zero_iff.mp hlen
        cases hes
        exact ⟨rfl, (Cursor.consumes_nil_iff.mp hc).symm⟩
  | succ n ih =>
      constructor
      · intro h
        rw [kvLoop] at h
        split at h
        · cases h
        · next s1 c1 he =>
            obtain ⟨u, ⟨e, hu, rfl⟩, hc1⟩ := (exact_kvEntry s c s1 c1).mp he
            obtain ⟨es, v, hlen, hes, hc, rfl⟩ := (ih _ c1).mp h
            exact ⟨e :: es, u ++ v, by rw [List.length_cons, hlen], .cons hu hes, hc1.trans hc, rfl⟩
      · intro h
        obtain ⟨es, w, hlen, hes, hc, rfl⟩ := h
        cases hes with
        | nil => cases hlen
        | @cons e es u v hu hes =>
            obtain ⟨c1, hc1, hc2⟩ := hc.split
            rw [kvLoop, (exact_kvEntry s c (s.note e) c1).mpr ⟨u, ⟨e, hu, rfl⟩, hc1⟩]
            exact (ih _ c1).mpr ⟨es, v, by simpa using hlen, hes, hc2, rfl⟩

/-- The header fields of a file of at least 24 bytes. -/
structure HeaderSplit (content : Bytes) where
  magic : Bytes
  version : Bytes
  tensorCount : Bytes
  kvCount : Bytes
  rest : Bytes
  eq : content = magic ++ (version ++ (tensorCount ++ (kvCount ++ rest)))
  magic_length : magic.length = 4
  version_length : version.length = 4
  tensorCount_length : tensorCount.length = 8
  kvCount_length : kvCount.length = 8

def headerSplit (content : Bytes) (h : 24 ≤ content.length) : HeaderSplit content where
  magic := content.take 4
  version := (content.drop 4).take 4
  tensorCount := (content.drop 8).take 8
  kvCount := (content.drop 16).take 8
  rest := content.drop 24
  eq := by
    rw [← List.drop_drop (i := 8) (j := 16), List.take_append_drop, ← List.drop_drop (i := 8) (j := 8),
      List.take_append_drop, ← List.drop_drop (i := 4) (j := 4), List.take_append_drop,
      List.take_append_drop]
  magic_length := by rw [List.length_take]; omega
  version_length := by rw [List.length_take, List.length_drop]; omega
  tensorCount_length := by rw [List.length_take, List.length_drop]; omega
  kvCount_length := by rw [List.length_take, List.length_drop]; omega

namespace HeaderSplit

variable {content : Bytes}

theorem length_ge (f : HeaderSplit content) : 24 ≤ content.length := by
  have h := congrArg List.length f.eq
  simp only [List.length_append, f.magic_length, f.version_length, f.tensorCount_length,
    f.kvCount_length] at h
  omega

def metadata (f : HeaderSplit content) : ModelMetadata where
  ggufVersion := UInt32.ofNat (leNat f.version)
  tensorCount := UInt64.ofNat (leNat f.tensorCount)
  metadataKvCount := UInt64.ofNat (leNat f.kvCount)

private theorem read_counts {c c' c'' : Cursor} {t k : UInt64}
    (ht : readU64Le c = some (t, c')) (hk : readU64Le c' = some (k, c'')) :
    (Prod.mk <$> readU64Le <*> readU64Le) c = some ((t, k), c'') := by
  have hseq : (Prod.mk <$> readU64Le <*> readU64Le) c =
      (readU64Le c).bind fun a => (readU64Le a.2).bind fun b => some ((a.1, b.1), b.2) := by
    cases h : readU64Le c with
    | none => simp [seq_eq_bind_map, StateT.bind, bind, Functor.map, StateT.map, h]
    | some a => simp [seq_eq_bind_map, StateT.bind, bind, Functor.map, StateT.map, h]
  rw [hseq, ht, Option.bind_some, hk, Option.bind_some]

theorem validateContent_eq (f : HeaderSplit content) :
    ∃ c, c.rest = f.rest ∧ validateContent content =
      if f.magic ≠ text "GGUF" then (.invalidMagic, {})
      else if leNat f.version ≠ 2 ∧ leNat f.version ≠ 3 then (.unsupportedVersion, {})
      else if leNat f.tensorCount > GgufLimits.maxSaneTensorCount ∨
          leNat f.kvCount > GgufLimits.maxSaneKvCount then (.malformedMetadata, {})
      else
        match kvLoop (leNat f.kvCount) { metadata := f.metadata } c with
        | (s, none) => (.malformedMetadata, s.metadata)
        | (s, some _) => (.valid, s.finish) := by
  have hlen := f.length_ge
  have hv : leNat f.version < 2 ^ 32 := by
    have := leNat_lt f.version
    rwa [f.version_length] at this
  have ht : leNat f.tensorCount < 2 ^ 64 := by
    have := leNat_lt f.tensorCount
    rwa [f.tensorCount_length] at this
  have hk : leNat f.kvCount < 2 ^ 64 := by
    have := leNat_lt f.kvCount
    rwa [f.kvCount_length] at this
  obtain ⟨c1, hc1, hr1⟩ := Cursor.exists_consumes ((Cursor.start_rest content).trans f.eq)
  obtain ⟨c2, hc2, hr2⟩ := Cursor.exists_consumes hr1
  obtain ⟨c3, hc3, hr3⟩ := Cursor.exists_consumes hr2
  obtain ⟨c4, hc4, hr4⟩ := Cursor.exists_consumes hr3
  have hmagic := (exact_readBytes 4 _ f.magic c1).mpr ⟨_, ⟨rfl, f.magic_length⟩, hc1⟩
  have hversion := (exact_readU32Le c1 (UInt32.ofNat (leNat f.version)) c2).mpr
    ⟨_, ⟨f.version_length, UInt32.toNat_ofNat_of_lt' hv⟩, hc2⟩
  have htensor := (exact_readU64Le c2 (UInt64.ofNat (leNat f.tensorCount)) c3).mpr
    ⟨_, ⟨f.tensorCount_length, UInt64.toNat_ofNat_of_lt' ht⟩, hc3⟩
  have hcount := (exact_readU64Le c3 (UInt64.ofNat (leNat f.kvCount)) c4).mpr
    ⟨_, ⟨f.kvCount_length, UInt64.toNat_ofNat_of_lt' hk⟩, hc4⟩
  have hver (n : Nat) (hn : n < 2 ^ 32) :
      UInt32.ofNat (leNat f.version) ≠ UInt32.ofNat n ↔ leNat f.version ≠ n := by
    rw [Ne, ← UInt32.toNat_inj, UInt32.toNat_ofNat_of_lt' hv, UInt32.toNat_ofNat_of_lt' hn]
  have hsupported : (UInt32.ofNat (leNat f.version) ≠ 2 ∧ UInt32.ofNat (leNat f.version) ≠ 3) ↔
      leNat f.version ≠ 2 ∧ leNat f.version ≠ 3 :=
    and_congr (hver 2 (by decide)) (hver 3 (by decide))
  refine ⟨c4, hr4, ?_⟩
  unfold validateContent
  rw [if_neg (by omega), if_neg (by omega), hmagic]
  dsimp only
  rw [hversion]
  dsimp only
  rw [read_counts htensor hcount]
  dsimp only
  rw [UInt64.toNat_ofNat_of_lt' ht, UInt64.toNat_ofNat_of_lt' hk]
  simp only [hsupported]
  rfl

theorem fileBytes_iff (f : HeaderSplit content) (version tensorCount : Nat)
    (entries : List KvEntry) :
    FileBytes version tensorCount entries content ↔
      f.magic = text "GGUF" ∧ (version = 2 ∨ version = 3) ∧ leNat f.version = version ∧
      tensorCount ≤ 1000000 ∧ leNat f.tensorCount = tensorCount ∧
      entries.length ≤ 100000 ∧ leNat f.kvCount = entries.length ∧
      ∃ section_ tail, EntriesBytes entries section_ ∧ f.rest = section_ ++ tail := by
  constructor
  · intro h
    obtain ⟨section_, tail, hver, htc, hkv, hes, heq⟩ := h
    rw [f.eq] at heq
    obtain ⟨hm, heq⟩ := List.append_inj heq f.magic_length
    obtain ⟨hv, heq⟩ := List.append_inj heq (by rw [f.version_length, leBytes_length])
    obtain ⟨ht, heq⟩ := List.append_inj heq (by rw [f.tensorCount_length, leBytes_length])
    obtain ⟨hk, heq⟩ := List.append_inj heq (by rw [f.kvCount_length, leBytes_length])
    exact ⟨hm, hver, ((eq_leBytes_iff (by omega) _).mp hv).2, htc,
      ((eq_leBytes_iff (by omega) _).mp ht).2, hkv, ((eq_leBytes_iff (by omega) _).mp hk).2,
      section_, tail, hes, heq⟩
  · intro h
    obtain ⟨hm, hver, hv, htc, ht, hkv, hk, section_, tail, hes, heq⟩ := h
    refine ⟨section_, tail, hver, htc, hkv, hes, ?_⟩
    rw [f.eq, hm, (eq_leBytes_iff (by omega) _).mpr ⟨f.version_length, hv⟩,
      (eq_leBytes_iff (by omega) _).mpr ⟨f.tensorCount_length, ht⟩,
      (eq_leBytes_iff (by omega) _).mpr ⟨f.kvCount_length, hk⟩, heq]

end HeaderSplit

theorem FileBytes.length_ge {version tensorCount : Nat} {entries : List KvEntry} {content : Bytes}
    (h : FileBytes version tensorCount entries content) : 24 ≤ content.length := by
  obtain ⟨section_, tail, -, -, -, -, rfl⟩ := h
  have hm : (text "GGUF").length = 4 := rfl
  simp only [List.length_append, leBytes_length, hm]
  omega

/-- The metadata of a valid file: the header's, and what the entries say in file order. -/
def extracted (version tensorCount : Nat) (entries : List KvEntry) : ModelMetadata :=
  (entries.foldl KvState.note { metadata := {
    ggufVersion := UInt32.ofNat version
    tensorCount := UInt64.ofNat tensorCount
    metadataKvCount := UInt64.ofNat entries.length } }).finish

theorem validateContent_valid_iff (content : Bytes) (metadata : ModelMetadata) :
    validateContent content = (.valid, metadata) ↔ ∃ version tensorCount entries,
      FileBytes version tensorCount entries content ∧
        metadata = extracted version tensorCount entries := by
  by_cases hlen : 24 ≤ content.length
  · let f := headerSplit content hlen
    obtain ⟨c, hrest, heq⟩ := f.validateContent_eq
    have hkv : GgufLimits.maxSaneKvCount = 100000 := rfl
    have htc : GgufLimits.maxSaneTensorCount = 1000000 := rfl
    rw [heq]
    constructor
    · intro h
      split at h
      · cases h
      · next hm =>
        split at h
        · cases h
        · next hv =>
          split at h
          · cases h
          · next hlim =>
            split at h
            · cases h
            · next s c' hloop =>
              obtain ⟨es, w, hes, hw, hc, rfl⟩ := (kvLoop_eq_some_iff _ _ _ c c').mp hloop
              refine ⟨_, _, es, (f.fileBytes_iff _ _ es).mpr ⟨not_not.mp hm, by omega, rfl,
                by omega, rfl, by omega, hes.symm, w, c'.rest, hw, ?_⟩, ?_⟩
              · rw [← hrest, hc.2.2]
              · rw [extracted, hes]
                exact (Prod.mk.inj h).2.symm
    · intro h
      obtain ⟨version, tensorCount, es, hf, rfl⟩ := h
      obtain ⟨hm, hver, hv, htl, ht, hkl, hk, w, tail, hes, hr⟩ := (f.fileBytes_iff _ _ es).mp hf
      obtain ⟨c', hc, -⟩ := Cursor.exists_consumes (hrest.trans hr)
      rw [if_neg (not_not_intro hm), if_neg (by omega), if_neg (by omega),
        (kvLoop_eq_some_iff _ _ _ c c').mpr ⟨es, w, hk.symm, hes, hc, rfl⟩]
      simp only [HeaderSplit.metadata, hv, ht, hk]
      rfl
  · constructor
    · intro h
      unfold validateContent at h
      split at h
      · cases h
      · rw [if_pos (by omega)] at h
        cases h
    · intro h
      obtain ⟨_, _, _, hf, _⟩ := h
      exact absurd hf.length_ge hlen

theorem validateContent_status_valid_iff (content : Bytes) :
    (validateContent content).1 = .valid ↔ GrammarValid content := by
  constructor
  · intro h
    have heq : validateContent content = (.valid, (validateContent content).2) := Prod.ext h rfl
    obtain ⟨version, tensorCount, es, hf, -⟩ := (validateContent_valid_iff _ _).mp heq
    exact ⟨version, tensorCount, es, hf⟩
  · intro h
    obtain ⟨version, tensorCount, es, hf⟩ := h
    rw [(validateContent_valid_iff _ _).mpr ⟨version, tensorCount, es, hf, rfl⟩]

theorem validateContent_firstDefect {content : Bytes} (h : ¬GrammarValid content) :
    (validateContent content).1 = firstDefect content := by
  rw [← validateContent_status_valid_iff] at h
  unfold firstDefect
  by_cases hlen : 24 ≤ content.length
  · let f := headerSplit content hlen
    obtain ⟨c, -, heq⟩ := f.validateContent_eq
    have hne : content ≠ [] := by
      intro h
      subst h
      exact absurd hlen (by decide)
    rw [if_neg hne, if_neg (by omega)]
    rw [heq] at h ⊢
    change _ = if f.magic ≠ text "GGUF" then _ else
      if leNat f.version ≠ 2 ∧ leNat f.version ≠ 3 then _ else _
    split_ifs at h ⊢ <;> try rfl
    split at h
    · rfl
    · exact absurd rfl h
  · unfold validateContent
    by_cases hne : content = []
    · subst hne
      rfl
    · have hpos : content.length ≠ 0 := fun h0 => hne (List.length_eq_zero_iff.mp h0)
      rw [if_neg hpos, if_pos (by omega), if_neg hne, if_pos (by omega)]

/-- The reader accepts exactly the grammar, and names the first defect of every other file. -/
theorem validate_grammar (fs : FileSystem) (path : Path) (content : Bytes)
    (h : fs path = .file content true) :
    ((GgufReader.validate fs path).1 = .valid ↔ GrammarValid content) ∧
      (¬GrammarValid content → (GgufReader.validate fs path).1 = firstDefect content) := by
  have hv : GgufReader.validate fs path = validateContent content := by
    rw [GgufReader.validate, h]
    rfl
  rw [hv]
  exact ⟨validateContent_status_valid_iff content, validateContent_firstDefect⟩

/-- A header that announces `kvCount` entries, with nothing after it. -/
def headerOnly (kvCount : Nat) : Bytes :=
  text "GGUF" ++ (leBytes 4 3 ++ (leBytes 8 0 ++ leBytes 8 kvCount))

theorem validate_grammar_header :
    GrammarValid (headerOnly 0) ∧
      (GgufReader.validate (fun _ => .file (headerOnly 1) true) (text "m.gguf")).1 =
        firstDefect (headerOnly 1) := by
  have h0 := validate_grammar (fun _ => .file (headerOnly 0) true) (text "m.gguf") (headerOnly 0) rfl
  have h1 := validate_grammar (fun _ => .file (headerOnly 1) true) (text "m.gguf") (headerOnly 1) rfl
  refine ⟨h0.1.mp (by decide +kernel), h1.2 fun hg => ?_⟩
  exact absurd (h1.1.mpr hg) (by decide +kernel)

end EdgeMind
