import EdgeMind.Framework.Lines
import EdgeMind.Model.Verifier

/-!
# The model registry

A text file of entries, one field a line and a blank line after each entry. Loading stops at the
first line it cannot account for and keeps the entries read so far; saving goes through a temporary
file; importing verifies a model file and records it under its identity.
-/

namespace EdgeMind

open Framework

inductive RegistryLoadResult
  | ok
  | notFound
  | corrupted
deriving DecidableEq

def kMagicLine : Bytes := text "SYJ_EDGEMIND_MODEL_REGISTRY_V1"

/-- `%`, newline, carriage return and `=`. -/
def needsEscape (c : UInt8) : Bool := c = 37 || c = 10 || c = 13 || c = 61

def percentEncodeByte (c : UInt8) : Bytes :=
  if needsEscape c then 37 :: hexByte (text "0123456789ABCDEF") c else [c]

def percentEncode (s : Bytes) : Bytes := s.flatMap percentEncodeByte

def hexVal (c : UInt8) : Option Nat :=
  if 48 ≤ c && c ≤ 57 then some (c.toNat - 48)
  else if 65 ≤ c && c ≤ 70 then some (10 + (c.toNat - 65))
  else if 97 ≤ c && c ≤ 102 then some (10 + (c.toNat - 97))
  else none

def percentDecode : Bytes → Option Bytes
  | [] => some []
  | 37 :: h :: l :: rest => do
      let hi ← hexVal h
      let lo ← hexVal l
      let out ← percentDecode rest
      return UInt8.ofNat ((hi <<< 4) ||| lo) :: out
  | 37 :: _ => none
  | c :: rest => do
      let out ← percentDecode rest
      return c :: out

def strictParseU64 (s : Bytes) : Option UInt64 := (strictly strtoull s).map UInt64.ofNat

def strictParseI64 (s : Bytes) : Option Int64 := (strictly strtoll s).map Int64.ofInt

def statusToInt : VerificationStatus → Int
  | .notYetVerified => 0
  | .pathNotFound => 1
  | .pathNotRegularFile => 2
  | .pathUnreadable => 3
  | .fileEmpty => 4
  | .invalidMagic => 5
  | .unsupportedVersion => 6
  | .truncatedHeader => 7
  | .malformedMetadata => 8
  | .checksumMismatch => 9
  | .verified => 10

def intToStatus (v : Int) : Option VerificationStatus :=
  if v < statusToInt .notYetVerified ∨ v > statusToInt .verified then none
  else
    match v.toNat with
    | 0 => some .notYetVerified
    | 1 => some .pathNotFound
    | 2 => some .pathNotRegularFile
    | 3 => some .pathUnreadable
    | 4 => some .fileEmpty
    | 5 => some .invalidMagic
    | 6 => some .unsupportedVersion
    | 7 => some .truncatedHeader
    | 8 => some .malformedMetadata
    | 9 => some .checksumMismatch
    | _ => some .verified

def kFieldOrder : List Bytes := [
  text "model_id", text "display_name", text "local_path", text "file_size_bytes", text "format",
  text "architecture", text "quantization", text "verification_status", text "verified_at_unix",
  text "expected_checksum_sha256"]

def entryToLines (e : RegistryEntry) : Bytes :=
  fieldLine (text "model_id") (percentEncode e.modelId) ++
    fieldLine (text "display_name") (percentEncode e.displayName) ++
    fieldLine (text "local_path") (percentEncode e.localPath) ++
    fieldLine (text "file_size_bytes") (decimal e.fileSizeBytes.toNat) ++
    fieldLine (text "format") (percentEncode e.format) ++
    fieldLine (text "architecture") (percentEncode e.architecture) ++
    fieldLine (text "quantization") (percentEncode e.quantization) ++
    fieldLine (text "verification_status") (intDecimal (statusToInt e.verificationStatus)) ++
    fieldLine (text "verified_at_unix") (intDecimal e.verifiedAtUnix.toInt) ++
    fieldLine (text "expected_checksum_sha256") (percentEncode e.expectedChecksumSha256)

def decodeFields (fields : Fields) : Option RegistryEntry := do
  guard (kFieldOrder.all fun key => (fields.lookup key).isSome)
  let modelId ← percentDecode (← fields.lookup (text "model_id"))
  let displayName ← percentDecode (← fields.lookup (text "display_name"))
  let localPath ← percentDecode (← fields.lookup (text "local_path"))
  let fileSizeBytes ← strictParseU64 (← fields.lookup (text "file_size_bytes"))
  let format ← percentDecode (← fields.lookup (text "format"))
  let architecture ← percentDecode (← fields.lookup (text "architecture"))
  let quantization ← percentDecode (← fields.lookup (text "quantization"))
  let statusI64 ← strictParseI64 (← fields.lookup (text "verification_status"))
  guard (-2 ^ 31 ≤ statusI64.toInt ∧ statusI64.toInt ≤ 2 ^ 31 - 1)
  let verificationStatus ← intToStatus statusI64.toInt
  let verifiedAtUnix ← strictParseI64 (← fields.lookup (text "verified_at_unix"))
  let expectedChecksumSha256 ← percentDecode (← fields.lookup (text "expected_checksum_sha256"))
  return { modelId, displayName, localPath, fileSizeBytes, format, architecture, quantization,
           verificationStatus, verifiedAtUnix, expectedChecksumSha256 }

/-- The primary key must never be empty. -/
def fieldsToEntry (fields : Fields) : Option RegistryEntry :=
  (decodeFields fields).bind fun e => if e.modelId = [] then none else some e

namespace ModelRegistry

/-- Append the entry the fields describe, if there are any. -/
def flushEntry (fields : Fields) (out : List RegistryEntry) : Option (List RegistryEntry) :=
  if fields = [] then some out
  else (fieldsToEntry fields).map fun e => out ++ [e]

/-- The loop over the lines after the magic line. -/
def loadLoop : List Bytes → Fields → List RegistryEntry → RegistryLoadResult × List RegistryEntry
  | [], fields, out =>
      match flushEntry fields out with
      | none => (.corrupted, out)
      | some out => (.ok, out)
  | line :: rest, fields, out =>
      if line = [] then
        match flushEntry fields out with
        | none => (.corrupted, out)
        | some out => loadLoop rest [] out
      else
        match splitFirst 61 line with
        | none => (.corrupted, out)
        | some (key, value) =>
            if key = [] then (.corrupted, out)
            else if key ∉ kFieldOrder then (.corrupted, out)
            else loadLoop rest ((key, value) :: fields) out

def load (fs : FileSystem) (registryPath : Path) : RegistryLoadResult × List RegistryEntry :=
  match (fs registryPath).open with
  | none => (.notFound, [])
  | some content =>
      match lines content with
      | [] => (.corrupted, [])
      | magicLine :: rest =>
          if magicLine ≠ kMagicLine then (.corrupted, []) else loadLoop rest [] []

/-- The text written for the entries, and whether the loop came to their end. -/
def entriesText : List RegistryEntry → Bytes × Bool
  | [] => ([], true)
  | e :: es =>
      if e.modelId = [] then ([], false)
      else
        let (rest, complete) := entriesText es
        (entryToLines e ++ text "\n" ++ rest, complete)

/-- An entry without identity stops the save with the temporary file half written. -/
def save (fs : FileSystem) (registryPath : Path) (entries : List RegistryEntry) (outcome : SaveOutcome) :
    FileSystem × Bool :=
  let (body, complete) := entriesText entries
  let content := kMagicLine ++ text "\n" ++ body
  if complete then replaceFile fs registryPath content outcome
  else
    match outcome with
    | .openFails => replaceFile fs registryPath content .openFails
    | .writeFails kept => replaceFile fs registryPath content (.writeFails kept)
    | _ => replaceFile fs registryPath content (.writeFails content.length)

/-- Replace the first entry with the same identity, if there is one. -/
def updateInPlace (entry : RegistryEntry) : List RegistryEntry → Option (List RegistryEntry)
  | [] => none
  | existing :: rest =>
      if existing.modelId = entry.modelId then some (entry :: rest)
      else (updateInPlace entry rest).map (existing :: ·)

structure ImportResult where
  registry : FileSystem
  result : VerificationResult
  wasNewEntry : Bool

def importedEntry (models : FileSystem) (modelPath expectedChecksumSha256 : Bytes)
    (result : VerificationResult) (now : Int64) : RegistryEntry where
  modelId := result.identity.sha256Hex
  displayName := result.metadata.name.getD modelPath
  localPath := modelPath
  fileSizeBytes := match (models modelPath).open with
    | none => 0
    | some content => UInt64.ofNat content.length
  format := text "gguf"
  architecture := result.metadata.architecture.getD []
  quantization := match result.metadata.fileType with
    | none => []
    | some fileType => modelFtypeName fileType
  verificationStatus := result.status
  verifiedAtUnix := now
  expectedChecksumSha256 := expectedChecksumSha256

/-- `models` holds the model files, `registry` the registry file; `now` is the wall clock and
`outcome` how the save goes. -/
def importModel (models registry : FileSystem) (registryPath modelPath : Path)
    (expectedChecksumSha256 : Bytes) (now : Int64) (outcome : SaveOutcome) : ImportResult :=
  let result := ModelVerifier.verify models modelPath expectedChecksumSha256
  if ¬result.identity.computed then { registry, result, wasNewEntry := false }
  else
    let (loadResult, entries) := load registry registryPath
    if loadResult = .corrupted then
      { registry
        result := { result with diagnostic := result.diagnostic ++
          (text "\n\nWARNING: local model registry at " ++ registryPath ++
            text " is corrupted; import was verified but NOT recorded.\n" ++
            text "See docs/model-registry.md's \"Known limitations\" for recovery guidance.") }
        wasNewEntry := false }
    else
      let entry := importedEntry models modelPath expectedChecksumSha256 result now
      let (entries, wasNewEntry) := match updateInPlace entry entries with
        | some updated => (updated, false)
        | none => (entries ++ [entry], true)
      let (registry, saved) := save registry registryPath entries outcome
      let result := if saved then result else
        { result with diagnostic := result.diagnostic ++
          (text "\n\nWARNING: verification succeeded but the registry could not be saved to " ++
            registryPath ++ text ".") }
      { registry, result, wasNewEntry }

end ModelRegistry

end EdgeMind
