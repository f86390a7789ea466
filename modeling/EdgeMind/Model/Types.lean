import EdgeMind.Framework.Decimal

/-!
# Model records and their messages

The status enumerations, limits and records shared by the reader, the verifier and the registry.
-/

namespace EdgeMind

open Framework

inductive GgufValidationStatus
  | notYetValidated
  | pathNotFound
  | pathNotRegularFile
  | pathUnreadable
  | fileEmpty
  | invalidMagic
  | unsupportedVersion
  | truncatedHeader
  | malformedMetadata
  | valid
deriving DecidableEq

namespace GgufLimits

def maxSaneKvCount : Nat := 100000

def maxSaneStringBytes : Nat := 16 * 1024 * 1024

def maxSaneArrayCount : Nat := 10000000

def maxSaneTensorCount : Nat := 1000000

end GgufLimits

/-- What the reader extracts; an optional field is `none` where its `_present` flag is false. -/
structure ModelMetadata where
  ggufVersion : UInt32 := 0
  tensorCount : UInt64 := 0
  metadataKvCount : UInt64 := 0
  architecture : Option Bytes := none
  name : Option Bytes := none
  quantizationVersion : Option UInt32 := none
  fileType : Option UInt32 := none
  contextLength : Option UInt64 := none
deriving DecidableEq

structure ModelIdentity where
  computed : Bool := false
  sha256Hex : Bytes := []
deriving DecidableEq

inductive VerificationStatus
  | notYetVerified
  | pathNotFound
  | pathNotRegularFile
  | pathUnreadable
  | fileEmpty
  | invalidMagic
  | unsupportedVersion
  | truncatedHeader
  | malformedMetadata
  | checksumMismatch
  | verified
deriving DecidableEq

def verificationStatusMessage : VerificationStatus → Bytes
  | .notYetVerified => text "Not yet verified."
  | .pathNotFound => text "Model path does not exist."
  | .pathNotRegularFile => text "Model path is not a regular file."
  | .pathUnreadable => text "Model path could not be read."
  | .fileEmpty => text "Model file is empty."
  | .invalidMagic => text "File is not a GGUF file (invalid magic)."
  | .unsupportedVersion => text "GGUF version is not supported."
  | .truncatedHeader => text "GGUF header is truncated."
  | .malformedMetadata => text "GGUF metadata is malformed or exceeds sane limits."
  | .checksumMismatch => text "Computed checksum does not match the expected checksum."
  | .verified => text "Model verified successfully."

def isVerified (status : VerificationStatus) : Bool := status = .verified

@[simp]
theorem isVerified_iff (status : VerificationStatus) :
    isVerified status = true ↔ status = .verified := by
  simp [isVerified]

structure VerificationResult where
  status : VerificationStatus := .notYetVerified
  diagnostic : Bytes := []
  metadata : ModelMetadata := {}
  identity : ModelIdentity := {}
deriving DecidableEq

structure RegistryEntry where
  modelId : Bytes := []
  displayName : Bytes := []
  localPath : Bytes := []
  fileSizeBytes : UInt64 := 0
  format : Bytes := []
  architecture : Bytes := []
  quantization : Bytes := []
  verificationStatus : VerificationStatus := .notYetVerified
  verifiedAtUnix : Int64 := 0
  expectedChecksumSha256 : Bytes := []
deriving DecidableEq

/-- Label of a `general.file_type` value. -/
def modelFtypeName (fileType : UInt32) : Bytes :=
  match fileType.toNat with
  | 0 => text "F32"
  | 1 => text "F16"
  | 2 => text "Q4_0"
  | 3 => text "Q4_1"
  | 7 => text "Q8_0"
  | 8 => text "Q5_0"
  | 9 => text "Q5_1"
  | 10 => text "Q2_K"
  | 11 => text "Q3_K_S"
  | 12 => text "Q3_K_M"
  | 13 => text "Q3_K_L"
  | 14 => text "Q4_K_S"
  | 15 => text "Q4_K_M"
  | 16 => text "Q5_K_S"
  | 17 => text "Q5_K_M"
  | 18 => text "Q6_K"
  | 19 => text "IQ2_XXS"
  | 20 => text "IQ2_XS"
  | 21 => text "Q2_K_S"
  | 22 => text "IQ3_XS"
  | 23 => text "IQ3_XXS"
  | 24 => text "IQ1_S"
  | 25 => text "IQ4_NL"
  | 26 => text "IQ3_S"
  | 27 => text "IQ3_M"
  | 28 => text "IQ2_S"
  | 29 => text "IQ2_M"
  | 30 => text "IQ4_XS"
  | 31 => text "IQ1_M"
  | 32 => text "BF16"
  | 36 => text "TQ1_0"
  | 37 => text "TQ2_0"
  | 38 => text "MXFP4_MOE"
  | 39 => text "NVFP4"
  | 40 => text "Q1_0"
  | 1024 => text "GUESSED (not specified in file)"
  | n => text "Unknown (file_type=" ++ decimal n ++ text ")"

end EdgeMind
