import EdgeMind.Framework.Cursor
import EdgeMind.Framework.FileStore
import EdgeMind.Model.Types

/-!
# The GGUF reader

The bounded reader over an open file and the walk over the header and the metadata entries.
A failed read leaves the metadata collected up to that point.
-/

namespace EdgeMind

open Framework

inductive GgufType
  | uint8
  | int8
  | uint16
  | int16
  | uint32
  | int32
  | float32
  | bool
  | string
  | array
  | uint64
  | int64
  | float64
deriving DecidableEq

def GgufType.code : GgufType → Nat
  | .uint8 => 0
  | .int8 => 1
  | .uint16 => 2
  | .int16 => 3
  | .uint32 => 4
  | .int32 => 5
  | .float32 => 6
  | .bool => 7
  | .string => 8
  | .array => 9
  | .uint64 => 10
  | .int64 => 11
  | .float64 => 12

/-- `static_cast<GgufType>`, defined on the codes of the enumeration. -/
def castGgufType (raw : Int32) : Option GgufType :=
  match raw.toUInt32.toNat with
  | 0 => some .uint8
  | 1 => some .int8
  | 2 => some .uint16
  | 3 => some .int16
  | 4 => some .uint32
  | 5 => some .int32
  | 6 => some .float32
  | 7 => some .bool
  | 8 => some .string
  | 9 => some .array
  | 10 => some .uint64
  | 11 => some .int64
  | 12 => some .float64
  | _ => none

def isKnownGgufType (raw : Int32) : Bool := 0 ≤ raw && raw ≤ 12

/-- Width of a scalar; zero for strings and arrays, which have no fixed width. -/
def fixedScalarWidth : GgufType → Nat
  | .uint8 | .int8 | .bool => 1
  | .uint16 | .int16 => 2
  | .uint32 | .int32 | .float32 => 4
  | .uint64 | .int64 | .float64 => 8
  | .string | .array => 0

namespace BoundedReader

def readBytes (n : Nat) : Reader Bytes := if n = 0 then pure [] else Reader.bytes n

def readU8 : Reader UInt8 := (fun b => b.getD 0 0) <$> readBytes 1

def readU16Le : Reader UInt16 := (fun b => u16OfLe (b.getD 0 0) (b.getD 1 0)) <$> readBytes 2

def readU32Le : Reader UInt32 :=
  (fun b => u32OfLe (b.getD 0 0) (b.getD 1 0) (b.getD 2 0) (b.getD 3 0)) <$> readBytes 4

def readU64Le : Reader UInt64 := u64OfLe <$> readBytes 8

def readI32Le : Reader Int32 := UInt32.toInt32 <$> readU32Le

/-- The guard of `skip` and `read_string_bounded` against moving past the end of the file. -/
def requireRoom (n : Nat) : Reader Unit := fun c =>
  if n > c.data.length ∨ c.pos > c.data.length - n then none else some ((), c)

def skip (n : Nat) : Reader Unit := do
  requireRoom n
  let _ ← Reader.bytes n
  return ()

def readStringBounded (len maxLen : Nat) : Reader Bytes := do
  Reader.require (len ≤ maxLen)
  requireRoom len
  if len = 0 then return [] else readBytes len

end BoundedReader

open BoundedReader

/-- The string is empty where it was skipped. -/
def consumeStringValue (capture : Bool) : Reader Bytes := do
  let len ← readU64Le
  Reader.require (len.toNat ≤ GgufLimits.maxSaneStringBytes)
  if capture then readStringBounded len.toNat GgufLimits.maxSaneStringBytes
  else do
    skip len.toNat
    return []

/-- The two output parameters of `consume_value`, with the values they start from. -/
structure Captured where
  numeric : UInt64 := 0
  string : Bytes := []
deriving DecidableEq

def consumeScalarValue (type : GgufType) (captureNumeric captureString : Bool) :
    Reader Captured :=
  if type = .string then do
    let s ← consumeStringValue captureString
    return { string := s }
  else do
    let width := fixedScalarWidth type
    Reader.require (width ≠ 0)
    if !captureNumeric then do
      skip width
      return {}
    else
      match type with
      | .uint8 | .int8 | .bool => do
          let v ← readU8
          return { numeric := v.toUInt64 }
      | .uint16 | .int16 => do
          let v ← readU16Le
          return { numeric := v.toUInt64 }
      | .uint32 | .int32 => do
          let v ← readU32Le
          return { numeric := v.toUInt64 }
      | .float32 => do
          skip 4
          return {}
      | .uint64 | .int64 => do
          let v ← readU64Le
          return { numeric := v }
      | .float64 => do
          skip 8
          return {}
      | .string | .array => failure

def readGgufType (check : Int32 → Bool) : Reader GgufType := do
  let raw ← readI32Le
  Reader.require (check raw)
  Reader.ofOption (castGgufType raw)

/-- Strings are skipped one by one, other elements all at once. -/
def consumeElements (elemType : GgufType) (count : UInt64) : Reader Unit :=
  if elemType = .string then
    Reader.times ((fun _ => ()) <$> consumeStringValue false) count.toNat
  else do
    let width := fixedScalarWidth elemType
    Reader.require (width ≠ 0)
    skip (UInt64.ofNat width * count).toNat

def consumeArrayValue : Reader Unit := do
  let elemType ← readGgufType isKnownGgufType
  Reader.require (elemType ≠ .array)
  let count ← readU64Le
  Reader.require (count.toNat ≤ GgufLimits.maxSaneArrayCount)
  consumeElements elemType count

def consumeValue (type : GgufType) (captureNumeric captureString : Bool) : Reader Captured :=
  if type ≠ .array then consumeScalarValue type captureNumeric captureString
  else do
    consumeArrayValue
    return {}

/-- Which of the recognised keys an entry has. -/
structure Wanted where
  architecture : Bool
  name : Bool
  quantVersion : Bool
  fileType : Bool
  contextLengthKey : Bool

def contextLengthSuffix : Bytes := text ".context_length"

def wanted (key : Bytes) (type : GgufType) : Wanted where
  architecture := key = text "general.architecture" && type = .string
  name := key = text "general.name" && type = .string
  quantVersion := key = text "general.quantization_version" && (type = .uint32 || type = .int32)
  fileType := key = text "general.file_type" && (type = .uint32 || type = .int32)
  -- the last occurrence of the suffix ends the key exactly when the suffix ends it
  contextLengthKey := contextLengthSuffix.length < key.length && contextLengthSuffix.isSuffixOf key &&
    (type = .uint32 || type = .uint64 || type = .int32 || type = .int64)

/-- The variables of the loop over the metadata entries. -/
structure KvState where
  metadata : ModelMetadata
  /-- Latest first, so that a lookup finds the last assignment of a prefix. -/
  contextLengthCandidates : List (Bytes × UInt64) := []
  quantizationVersion : Option UInt64 := none
  fileType : Option UInt64 := none

def KvState.store (s : KvState) (key : Bytes) (want : Wanted) (v : Captured) : KvState :=
  if want.architecture then { s with metadata.architecture := some v.string }
  else if want.name then { s with metadata.name := some v.string }
  else if want.quantVersion then { s with quantizationVersion := some v.numeric }
  else if want.fileType then { s with fileType := some v.numeric }
  else if want.contextLengthKey then
    { s with contextLengthCandidates :=
        (key.take (key.length - contextLengthSuffix.length), v.numeric) ::
          s.contextLengthCandidates }
  else s

/-- One iteration of the loop over the metadata entries. -/
def kvEntry (s : KvState) : Reader KvState := do
  let keyLen ← readU64Le
  let key ← readStringBounded keyLen.toNat 65535
  let type ← readGgufType fun raw => isKnownGgufType raw || raw = 9
  let want := wanted key type
  let v ← consumeValue type (want.quantVersion || want.fileType || want.contextLengthKey)
    (want.architecture || want.name)
  return s.store key want v

/-- The loop: the state it ends or stops in, and the cursor when it came to its end. -/
def kvLoop : Nat → KvState → Cursor → KvState × Option Cursor
  | 0, s, c => (s, some c)
  | n + 1, s, c =>
      match kvEntry s c with
      | none => (s, none)
      | some (s', c') => kvLoop n s' c'

/-- What is settled only after the last entry. -/
def KvState.finish (s : KvState) : ModelMetadata :=
  { s.metadata with
    quantizationVersion := s.quantizationVersion.map UInt64.toUInt32
    fileType := s.fileType.map UInt64.toUInt32
    contextLength := s.metadata.architecture.bind (s.contextLengthCandidates.lookup ·) }

/-- Validation of an open file with the given content. -/
def validateContent (content : Bytes) : GgufValidationStatus × ModelMetadata :=
  if content.length = 0 then (.fileEmpty, {})
  else if content.length < 24 then (.truncatedHeader, {})
  else
    match readBytes 4 (Cursor.start content) with
    | none => (.truncatedHeader, {})
    | some (magic, c) =>
        if magic ≠ text "GGUF" then (.invalidMagic, {})
        else
          match readU32Le c with
          | none => (.truncatedHeader, {})
          | some (version, c) =>
              if version ≠ 2 ∧ version ≠ 3 then (.unsupportedVersion, {})
              else
                match (Prod.mk <$> readU64Le <*> readU64Le) c with
                | none => (.truncatedHeader, {})
                | some ((tensorCount, metadataKvCount), c) =>
                    if tensorCount.toNat > GgufLimits.maxSaneTensorCount ∨
                        metadataKvCount.toNat > GgufLimits.maxSaneKvCount then
                      (.malformedMetadata, {})
                    else
                      match kvLoop metadataKvCount.toNat
                        { metadata := { ggufVersion := version, tensorCount, metadataKvCount } }
                        c with
                      | (s, none) => (.malformedMetadata, s.metadata)
                      | (s, some _) => (.valid, s.finish)

def GgufReader.validate (fs : FileSystem) (path : Path) : GgufValidationStatus × ModelMetadata :=
  match (fs path).open with
  | none => (.pathNotFound, {})
  | some content => validateContent content

end EdgeMind
