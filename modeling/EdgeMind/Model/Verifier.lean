import EdgeMind.Model.GgufGrammar
import EdgeMind.Model.HashCorrect

/-!
# Verification of a model file

The stages run before a file is trusted: status of the path, readability, structure, identity and
the expected checksum. The verdict of a file is stated once without the stages, and the verifier
computes it together with the identity of the bytes it judged.
-/

namespace EdgeMind

open Framework

/-- `std::tolower` on every byte, in the "C" locale. -/
def toLower (s : Bytes) : Bytes := s.map lowerByte

def mapGgufStatus : GgufValidationStatus → VerificationStatus
  | .notYetValidated => .notYetVerified
  | .pathNotFound => .pathNotFound
  | .pathNotRegularFile => .pathNotRegularFile
  | .pathUnreadable => .pathUnreadable
  | .fileEmpty => .fileEmpty
  | .invalidMagic => .invalidMagic
  | .unsupportedVersion => .unsupportedVersion
  | .truncatedHeader => .truncatedHeader
  | .malformedMetadata => .malformedMetadata
  | .valid => .verified

def buildDiagnostic (r : VerificationResult) (path : Path) : Bytes :=
  if isVerified r.status then
    text "STATUS: VERIFIED\n" ++ text "Model: " ++ path ++ text "\n" ++
      (if r.identity.computed then
        text "Identity (sha256): " ++ r.identity.sha256Hex ++ text "\n" else []) ++
      (match r.metadata.architecture with
        | some architecture => text "Architecture: " ++ architecture ++ text "\n"
        | none => []) ++
      match r.metadata.fileType with
      | some fileType => text "Quantization: " ++ modelFtypeName fileType ++ text "\n"
      | none => []
  else
    text "STATUS: REJECTED\n" ++ text "Model: " ++ path ++ text "\n" ++
      text "Reason: " ++ verificationStatusMessage r.status ++ text "\n"

/-- Set the status and build the diagnostic from the result so far. -/
def VerificationResult.conclude (r : VerificationResult) (path : Path)
    (status : VerificationStatus) : VerificationResult :=
  let r := { r with status }
  { r with diagnostic := buildDiagnostic r path }

/-- The hasher is total, so its `none` is never taken. -/
def ModelVerifier.verify (fs : FileSystem) (path : Path) (expectedChecksumSha256 : Bytes) :
    VerificationResult :=
  let result : VerificationResult := {}
  if fs path = .absent then result.conclude path .pathNotFound
  else if fs path = .special then result.conclude path .pathNotRegularFile
  else
    match (fs path).open with
    | none => result.conclude path .pathUnreadable
    | some probe =>
        if probe.length = 0 then result.conclude path .fileEmpty
        else
          let (ggufStatus, metadata) := GgufReader.validate fs path
          let result := { result with metadata }
          if ¬isVerified (mapGgufStatus ggufStatus) then
            result.conclude path (mapGgufStatus ggufStatus)
          else
            let result := { result with identity := (computeModelIdentity fs path).getD {} }
            if ¬result.identity.computed then result.conclude path .pathUnreadable
            else if expectedChecksumSha256 ≠ [] ∧
                toLower expectedChecksumSha256 ≠ result.identity.sha256Hex then
              result.conclude path .checksumMismatch
            else result.conclude path .verified

/-- The expected checksum, if there is one, is that of the content. -/
def ChecksumOk (expectedChecksumSha256 content : Bytes) : Prop :=
  expectedChecksumSha256 = [] ∨ toLower expectedChecksumSha256 = Fips180.sha256Hex content

instance (c content : Bytes) : Decidable (ChecksumOk c content) :=
  inferInstanceAs (Decidable (_ ∨ _))

open Classical in
/-- The first check that fails, from the path to the checksum. -/
noncomputable def verdict (node : Node) (expectedChecksumSha256 : Bytes) : VerificationStatus :=
  match node with
  | .absent => .pathNotFound
  | .special => .pathNotRegularFile
  | .file _ false => .pathUnreadable
  | .file content true =>
      if content = [] then .fileEmpty
      else if ¬GrammarValid content then mapGgufStatus (firstDefect content)
      else if ChecksumOk expectedChecksumSha256 content then .verified
      else .checksumMismatch

theorem GrammarValid.ne_nil {content : Bytes} (h : GrammarValid content) : content ≠ [] := by
  obtain ⟨_, _, _, hf⟩ := h
  have hlen := hf.length_ge
  intro h
  subst h
  exact absurd hlen (by decide)

private theorem mapGgufStatus_firstDefect (content : Bytes) :
    mapGgufStatus (firstDefect content) ≠ .verified ∧
      mapGgufStatus (firstDefect content) ≠ .checksumMismatch := by
  unfold firstDefect
  split_ifs <;> exact ⟨by decide, by decide⟩

@[simp]
theorem conclude_status (r : VerificationResult) (path : Path) (s : VerificationStatus) :
    (r.conclude path s).status = s := rfl

@[simp]
theorem conclude_identity (r : VerificationResult) (path : Path) (s : VerificationStatus) :
    (r.conclude path s).identity = r.identity := rfl

/-- Identities exist exactly for the files that passed the structural check. -/
structure Judged (node : Node) (expectedChecksumSha256 : Bytes) (r : VerificationResult) :
    Prop where
  status : r.status = verdict node expectedChecksumSha256
  identity : r.identity.computed = true ↔ r.status = .verified ∨ r.status = .checksumMismatch
  sha256 : r.identity.computed = true → ∃ content, node = .file content true ∧
    r.identity.sha256Hex = Fips180.sha256Hex content

private theorem judged_rejected {node : Node} {c : Bytes} {path : Path} {s : VerificationStatus}
    (r : VerificationResult) (hid : r.identity = {}) (hs : s = verdict node c)
    (hv : s ≠ .verified) (hm : s ≠ .checksumMismatch) : Judged node c (r.conclude path s) where
  status := hs
  identity := by simp [hid, hv, hm]
  sha256 := by simp [hid]

theorem verify_judged (fs : FileSystem) (path : Path) (c : Bytes) :
    Judged (fs path) c (ModelVerifier.verify fs path c) := by
  unfold ModelVerifier.verify
  cases hnode : fs path with
  | absent => exact judged_rejected _ rfl rfl (by decide) (by decide)
  | special => exact judged_rejected _ rfl rfl (by decide) (by decide)
  | file content readable =>
      rw [if_neg (by simp), if_neg (by simp)]
      cases readable with
      | false => exact judged_rejected _ rfl rfl (by decide) (by decide)
      | true =>
          have hopen : (fs path).open = some content := by rw [hnode]; rfl
          have hvalidate : GgufReader.validate fs path = validateContent content := by
            rw [GgufReader.validate, hopen]
          have hidentity := computeModelIdentity_readable hopen
          simp only [Node.open, if_true, hvalidate, hidentity, Option.getD_some]
          by_cases hempty : content = []
          · subst hempty
            exact judged_rejected _ rfl (by simp [verdict]) (by decide) (by decide)
          have hpos : content.length ≠ 0 := fun h => hempty (List.length_eq_zero_iff.mp h)
          rw [if_neg hpos]
          by_cases hg : GrammarValid content
          · rw [(validateContent_status_valid_iff content).mpr hg, if_neg (by decide),
              if_neg (by simp)]
            by_cases hsum : ChecksumOk c content
            · rw [if_neg (by unfold ChecksumOk at hsum; tauto)]
              exact ⟨by simp [verdict, hempty, hg, hsum], by simp, fun _ => ⟨content, rfl, rfl⟩⟩
            · rw [if_pos (by unfold ChecksumOk at hsum; tauto)]
              exact ⟨by simp [verdict, hempty, hg, hsum], by simp, fun _ => ⟨content, rfl, rfl⟩⟩
          · have hdefect := mapGgufStatus_firstDefect content
            rw [validateContent_firstDefect hg, if_pos (by simpa using hdefect.1)]
            exact judged_rejected _ rfl (by simp [verdict, hempty, hg]) hdefect.1 hdefect.2

theorem verdict_verified_iff (node : Node) (c : Bytes) :
    verdict node c = .verified ↔ ∃ content, node = .file content true ∧ content ≠ [] ∧
      GrammarValid content ∧ ChecksumOk c content := by
  constructor
  · intro h
    unfold verdict at h
    split at h
    · cases h
    · cases h
    · cases h
    · next content =>
        split_ifs at h with hempty hg hsum
        · exact ⟨content, rfl, hempty, hg, hsum⟩
        · exact absurd h (mapGgufStatus_firstDefect content).1
  · intro h
    obtain ⟨content, rfl, hempty, hg, hsum⟩ := h
    simp [verdict, hempty, hg, hsum]

theorem verdict_identified_iff (content c : Bytes) :
    verdict (.file content true) c = .verified ∨ verdict (.file content true) c = .checksumMismatch ↔
      GrammarValid content := by
  have hdefect := mapGgufStatus_firstDefect content
  unfold verdict
  dsimp only
  split_ifs with hempty hg hsum
  · refine iff_of_false (by simp) fun hg => hg.ne_nil hempty
  · exact iff_of_true (.inl rfl) hg
  · exact iff_of_true (.inr rfl) hg
  · exact iff_of_false (not_or.mpr hdefect) hg

/-- The verifier is sound and complete, identifies exactly the files that pass the structural
check, and otherwise names the first check that fails. -/
theorem verify_sound_complete (fs : FileSystem) (path : Path) (c : Bytes) :
    let r := ModelVerifier.verify fs path c
    (r.status = .verified ↔ ∃ content, fs path = .file content true ∧ content ≠ [] ∧
      GrammarValid content ∧ (c = [] ∨ toLower c = Fips180.sha256Hex content)) ∧
    (r.identity.computed = true ↔ r.status = .verified ∨ r.status = .checksumMismatch) ∧
    (r.identity.computed = true → ∃ content, fs path = .file content true ∧
      r.identity.sha256Hex = Fips180.sha256Hex content) ∧
    r.status = verdict (fs path) c := by
  intro r
  have hj := verify_judged fs path c
  refine ⟨?_, hj.identity, hj.sha256, hj.status⟩
  change (ModelVerifier.verify fs path c).status = _ ↔ _
  rw [hj.status]
  exact verdict_verified_iff (fs path) c

end EdgeMind
