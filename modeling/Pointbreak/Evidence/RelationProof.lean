import Pointbreak.Event.Recorded
import Pointbreak.Model.File

/-!
# Evidence.RelationProof

Proofs that the content of a captured Revision is the content of a commit. Both sides are reduced to
canonical entries, an algorithm compares them, and the comparison is written down as a manifest that
names itself by its hash. `qualified_iff_satisfies` says what a manifest has to record for a
reader's verdict to be what the comparison gives.
-/

namespace Pointbreak

open Std

def RELATION_PROOF_SCHEMA_V1 : Text := text "pointbreak.relation-proof.v1"

inductive EvidenceAvailabilityV1 where
  | available | removed | missing
deriving DecidableEq

inductive ProofCaptureModeV1 where
  | commitRange | root | staged | unstaged | combinedWorktree | syntheticUntracked
deriving DecidableEq

def ProofCaptureModeV1.toValue : ProofCaptureModeV1 → Json
  | .commitRange => .str (text "commit_range")
  | .root => .str (text "root")
  | .staged => .str (text "staged")
  | .unstaged => .str (text "unstaged")
  | .combinedWorktree => .str (text "combined_worktree")
  | .syntheticUntracked => .str (text "synthetic_untracked")

inductive ProofGitAvailabilityV1 where
  | available | missing
deriving DecidableEq

def ProofGitAvailabilityV1.toValue : ProofGitAvailabilityV1 → Json
  | .available => .str (text "available")
  | .missing => .str (text "missing")

inductive CanonicalChangeV1 where
  | added | deleted | modified | renamed | copied | modeOnly
deriving DecidableEq

namespace CanonicalChangeV1

def toValue : CanonicalChangeV1 → Json
  | .added => .str (text "added")
  | .deleted => .str (text "deleted")
  | .modified => .str (text "modified")
  | .renamed => .str (text "renamed")
  | .copied => .str (text "copied")
  | .modeOnly => .str (text "mode_only")

instance : Ord CanonicalChangeV1 := ⟨compareOn CanonicalChangeV1.ctorIdx⟩

instance : TransOrd CanonicalChangeV1 := inferInstanceAs (TransCmp (compareOn CanonicalChangeV1.ctorIdx))

instance : LawfulEqOrd CanonicalChangeV1 where
  eq_of_compare {a b} h := by
    have hidx : a.ctorIdx = b.ctorIdx := LawfulEqOrd.eq_of_compare h
    cases a <;> cases b <;> first | rfl | cases hidx

end CanonicalChangeV1

inductive CanonicalContentKindV1 where
  | plain | binary | symlink | submodule
deriving DecidableEq

namespace CanonicalContentKindV1

def toValue : CanonicalContentKindV1 → Json
  | .plain => .str (text "text")
  | .binary => .str (text "binary")
  | .symlink => .str (text "symlink")
  | .submodule => .str (text "submodule")

instance : Ord CanonicalContentKindV1 := ⟨compareOn CanonicalContentKindV1.ctorIdx⟩

instance : TransOrd CanonicalContentKindV1 := inferInstanceAs (TransCmp (compareOn CanonicalContentKindV1.ctorIdx))

instance : LawfulEqOrd CanonicalContentKindV1 where
  eq_of_compare {a b} h := by
    have hidx : a.ctorIdx = b.ctorIdx := LawfulEqOrd.eq_of_compare h
    cases a <;> cases b <;> first | rfl | cases hidx

end CanonicalContentKindV1

/-! ## Canonical entries -/

structure CanonicalRawEntryV1 where
  pathIdentity : Text
  previousPathIdentity : Option Text
  change : CanonicalChangeV1
  oldOid : Option Text
  newOid : Option Text
  oldMode : Option Text
  newMode : Option Text
  oldDecodedSha256 : Option Text
  newDecodedSha256 : Option Text
  contentKind : CanonicalContentKindV1
  untracked : Bool
deriving DecidableEq

namespace CanonicalRawEntryV1

/-- The derived order: field by field, in the order of declaration. -/
def compareFields : CanonicalRawEntryV1 → CanonicalRawEntryV1 → Ordering :=
  compareLex (compareOn pathIdentity) <|
  compareLex (compareOn previousPathIdentity) <|
  compareLex (compareOn change) <|
  compareLex (compareOn oldOid) <|
  compareLex (compareOn newOid) <|
  compareLex (compareOn oldMode) <|
  compareLex (compareOn newMode) <|
  compareLex (compareOn oldDecodedSha256) <|
  compareLex (compareOn newDecodedSha256) <|
  compareLex (compareOn contentKind) (compareOn untracked)

instance : Ord CanonicalRawEntryV1 := ⟨compareFields⟩

instance : TransOrd CanonicalRawEntryV1 := by
  unfold TransOrd
  change TransCmp compareFields
  unfold compareFields
  infer_instance

instance : LawfulEqOrd CanonicalRawEntryV1 where
  eq_of_compare {a b} h := by
    change compareFields a b = .eq at h
    simp only [compareFields, compareLex_eq_eq, compareOn, LawfulEqOrd.compare_eq_iff_eq] at h
    cases a
    cases b
    simpa only [CanonicalRawEntryV1.mk.injEq] using h

def toValue (entry : CanonicalRawEntryV1) : Json :=
  .obj [(text "pathIdentity", .str entry.pathIdentity),
    (text "previousPathIdentity", optionToValue Json.str entry.previousPathIdentity),
    (text "change", entry.change.toValue),
    (text "oldOid", optionToValue Json.str entry.oldOid),
    (text "newOid", optionToValue Json.str entry.newOid),
    (text "oldMode", optionToValue Json.str entry.oldMode),
    (text "newMode", optionToValue Json.str entry.newMode),
    (text "oldDecodedSha256", optionToValue Json.str entry.oldDecodedSha256),
    (text "newDecodedSha256", optionToValue Json.str entry.newDecodedSha256),
    (text "contentKind", entry.contentKind.toValue), (text "untracked", .bool entry.untracked)]

end CanonicalRawEntryV1

structure CanonicalProofInputV1 where
  captureMode : ProofCaptureModeV1
  baseOrParent : Option Text
  pathScope : List Text
  gitAvailability : ProofGitAvailabilityV1
  entries : List CanonicalRawEntryV1
deriving DecidableEq

namespace CanonicalProofInputV1

def toValue (input : CanonicalProofInputV1) : Json :=
  .obj [(text "captureMode", input.captureMode.toValue),
    (text "baseOrParent", optionToValue Json.str input.baseOrParent),
    (text "pathScope", .arr (input.pathScope.map Json.str)),
    (text "gitAvailability", input.gitAvailability.toValue),
    (text "entries", .arr (input.entries.map CanonicalRawEntryV1.toValue))]

def canonicalInputIsValid (input : CanonicalProofInputV1) : Bool :=
  !input.pathScope.isEmpty && input.pathScope.all (fun scope => !scope.isEmpty) &&
    input.entries.all fun entry => !entry.pathIdentity.isEmpty

def canonicalizeInput (input : CanonicalProofInputV1) : CanonicalProofInputV1 :=
  { input with pathScope := sortedUnique input.pathScope, entries := sortedUnique input.entries }

end CanonicalProofInputV1

inductive RelationProofAlgorithmV1 where
  | exactMaterialization | canonicalEquivalentRewrite | contentPreservingExtension
  | attributionOnly
deriving DecidableEq

namespace RelationProofAlgorithmV1

def toValue : RelationProofAlgorithmV1 → Json
  | .exactMaterialization => .str (text "exact_materialization")
  | .canonicalEquivalentRewrite => .str (text "canonical_equivalent_rewrite")
  | .contentPreservingExtension => .str (text "content_preserving_extension")
  | .attributionOnly => .str (text "attribution_only")

def version : RelationProofAlgorithmV1 → Text
  | .exactMaterialization => text "exact-materialization-v1"
  | .canonicalEquivalentRewrite => text "canonical-equivalent-rewrite-v1"
  | .contentPreservingExtension => text "content-preserving-extension-v1"
  | .attributionOnly => text "attribution-only-v1"

def semanticRelation : RelationProofAlgorithmV1 → SemanticRevisionRelationV1
  | .exactMaterialization => .exactMaterialization
  | .canonicalEquivalentRewrite => .equivalentRewrite
  | .contentPreservingExtension => .contentPreservingExtension
  | .attributionOnly => .landingProvenance

end RelationProofAlgorithmV1

structure RelationProofResultV1 where
  semanticRelation : SemanticRevisionRelationV1
  proofStatus : RelationProofStatusV1
  additions : List CanonicalRawEntryV1
deriving DecidableEq

def RelationProofResultV1.toValue (result : RelationProofResultV1) : Json :=
  .obj [(text "semanticRelation", result.semanticRelation.toValue),
    (text "proofStatus", result.proofStatus.toValue),
    (text "additions", .arr (result.additions.map CanonicalRawEntryV1.toValue))]

structure RelationProofManifestV1 where
  schema : Text
  version : Nat
  algorithm : RelationProofAlgorithmV1
  algorithmVersion : Text
  revision : RevisionRefV1
  associationId : CommitAssociationId
  source : CanonicalProofInputV1
  candidate : CanonicalProofInputV1
  result : RelationProofResultV1
  evidenceSha256 : Text
deriving DecidableEq

structure RelationProofProjectionV1 where
  revision : RevisionRefV1
  result : RelationProofResultV1
  evidenceAvailability : EvidenceAvailabilityV1
  reproducible : Bool

namespace RelationProofManifestV1

variable (sha : Sha256) (manifest : RelationProofManifestV1)

def hashPreimage : Json :=
  .obj [(text "schema", .str manifest.schema), (text "version", .num manifest.version),
    (text "algorithm", manifest.algorithm.toValue),
    (text "algorithmVersion", .str manifest.algorithmVersion),
    (text "revision", manifest.revision.toValue),
    (text "associationId", manifest.associationId.toValue),
    (text "source", manifest.source.toValue), (text "candidate", manifest.candidate.toValue),
    (text "result", manifest.result.toValue)]

def computedEvidenceSha256 : Text :=
  sha256JsonPrefixed sha manifest.hashPreimage

def resultDigest : Text :=
  sha256JsonPrefixed sha manifest.result.toValue

def verifiedContentRelationMatchesAlgorithm : Bool :=
  if manifest.result.proofStatus ≠ .verified then true
  else match manifest.result.semanticRelation with
    | .exactMaterialization => manifest.algorithm = .exactMaterialization
    | .equivalentRewrite => manifest.algorithm = .canonicalEquivalentRewrite
    | .contentPreservingExtension => manifest.algorithm = .contentPreservingExtension
    | .landingProvenance | .relatedProvenance | .unknown => true

def validate : Result Unit :=
  Result.ensure (manifest.schema = RELATION_PROOF_SCHEMA_V1 && manifest.version == 1 &&
      manifest.algorithmVersion = manifest.algorithm.version &&
      isSortedUnique manifest.source.pathScope && isSortedUnique manifest.source.entries &&
      isSortedUnique manifest.candidate.pathScope && isSortedUnique manifest.candidate.entries &&
      isSortedUnique manifest.result.additions &&
      manifest.verifiedContentRelationMatchesAlgorithm &&
      manifest.evidenceSha256 = manifest.computedEvidenceSha256 sha)
    (.message (text "relation proof schema, algorithm, or evidence hash is invalid"))

def withEvidenceSha256 : RelationProofManifestV1 :=
  { manifest with evidenceSha256 := manifest.computedEvidenceSha256 sha }

def new (revision : RevisionRefV1) (associationId : CommitAssociationId)
    (algorithm : RelationProofAlgorithmV1) (source candidate : CanonicalProofInputV1)
    (result : RelationProofResultV1) : Result RelationProofManifestV1 := do
  let pending : RelationProofManifestV1 :=
    { schema := RELATION_PROOF_SCHEMA_V1, version := 1, algorithm,
      algorithmVersion := algorithm.version, revision, associationId,
      source := source.canonicalizeInput, candidate := candidate.canonicalizeInput,
      result := { result with additions := sortedUnique result.additions },
      evidenceSha256 := [] }
  let manifest := pending.withEvidenceSha256 sha
  manifest.validate sha
  .ok manifest

def project (availability : EvidenceAvailabilityV1) : RelationProofProjectionV1 where
  revision := manifest.revision
  result := manifest.result
  evidenceAvailability := availability
  reproducible := availability = .available && manifest.result.proofStatus = .verified &&
    (manifest.validate sha).isOk

end RelationProofManifestV1

/-! ## The comparison -/

variable (algorithm : RelationProofAlgorithmV1) (source candidate : CanonicalProofInputV1)

def evaluateAvailableInputs : RelationProofResultV1 :=
  let inputsAreValid := source.canonicalInputIsValid && candidate.canonicalInputIsValid
  let (verified, additions) : Bool × List CanonicalRawEntryV1 := match algorithm with
    | .exactMaterialization => (inputsAreValid && source = candidate, [])
    | .canonicalEquivalentRewrite =>
      (inputsAreValid && source.captureMode = candidate.captureMode &&
        source.pathScope = candidate.pathScope && source.entries = candidate.entries, [])
    | .contentPreservingExtension =>
      let additions := candidate.entries.filter fun entry => !source.entries.contains entry
      let preservesSource := source.entries.all fun entry => candidate.entries.contains entry
      (inputsAreValid && source.captureMode = candidate.captureMode &&
        source.pathScope = candidate.pathScope && preservesSource && !additions.isEmpty, additions)
    | .attributionOnly => (false, [])
  { semanticRelation := algorithm.semanticRelation
    proofStatus := if verified then .verified else .refuted
    additions }

/-- What the comparison answers: nothing is compared for attribution only, and missing Git inputs
leave the answer open. -/
def relationProofResult : RelationProofResultV1 :=
  if algorithm = .attributionOnly then
    { semanticRelation := .landingProvenance, proofStatus := .asserted, additions := [] }
  else if source.gitAvailability = .missing ∨ candidate.gitAvailability = .missing then
    { semanticRelation := algorithm.semanticRelation, proofStatus := .indeterminate,
      additions := [] }
  else evaluateAvailableInputs algorithm source candidate

def evaluateRelationProofV1 (sha : Sha256) (revision : RevisionRefV1)
    (associationId : CommitAssociationId) (algorithm : RelationProofAlgorithmV1)
    (source candidate : CanonicalProofInputV1) : Result RelationProofManifestV1 :=
  RelationProofManifestV1.new sha revision associationId algorithm source candidate
    (relationProofResult algorithm source candidate)

theorem relationProofResult_semanticRelation :
    (relationProofResult algorithm source candidate).semanticRelation =
      algorithm.semanticRelation := by
  unfold relationProofResult
  split
  · next h => rw [h, RelationProofAlgorithmV1.semanticRelation]
  · split <;> rfl

/-- Nothing the comparison answers is refused when it is written down. -/
theorem evaluateRelationProofV1_eq_ok (sha : Sha256) (revision : RevisionRefV1)
    (associationId : CommitAssociationId) (algorithm : RelationProofAlgorithmV1)
    (source candidate : CanonicalProofInputV1) :
    ∃ manifest,
      evaluateRelationProofV1 sha revision associationId algorithm source candidate =
        .ok manifest ∧
      manifest.result = { relationProofResult algorithm source candidate with
        additions := sortedUnique (relationProofResult algorithm source candidate).additions } := by
  refine ⟨_, Result.bind_eq_ok.mpr ⟨(), ?_, rfl⟩, rfl⟩
  rw [RelationProofManifestV1.validate, Result.ensure_eq_ok]
  simp only [RelationProofManifestV1.withEvidenceSha256, CanonicalProofInputV1.canonicalizeInput,
    isSortedUnique_sortedUnique, Bool.and_eq_true, decide_eq_true_eq, beq_self_eq_true, true_and,
    and_true]
  refine ⟨?_, decide_eq_true rfl⟩
  rw [RelationProofManifestV1.verifiedContentRelationMatchesAlgorithm]
  split
  · rfl
  · next hverified =>
    dsimp only at hverified ⊢
    rw [relationProofResult_semanticRelation]
    cases algorithm <;> simp [RelationProofAlgorithmV1.semanticRelation]

/-! ## What the comparison establishes -/

structure Comparable (input : CanonicalProofInputV1) : Prop where
  available : input.gitAvailability = .available
  pathScope : input.pathScope ≠ []
  scopes : ∀ scope ∈ input.pathScope, scope ≠ []
  entries : ∀ entry ∈ input.entries, entry.pathIdentity ≠ []

/-- The candidate carries the content of the source the way the algorithm is named after. -/
def PreservesContent (source candidate : CanonicalProofInputV1) : RelationProofAlgorithmV1 → Prop
  | .exactMaterialization => source = candidate
  | .canonicalEquivalentRewrite =>
    source.captureMode = candidate.captureMode ∧ source.pathScope = candidate.pathScope ∧
      source.entries = candidate.entries
  | .contentPreservingExtension =>
    source.captureMode = candidate.captureMode ∧ source.pathScope = candidate.pathScope ∧
      source.entries ⊆ candidate.entries ∧ ∃ entry ∈ candidate.entries, entry ∉ source.entries
  | .attributionOnly => False

/-- The entries an extension adds. -/
def AddsEntry (source candidate : CanonicalProofInputV1) (algorithm : RelationProofAlgorithmV1)
    (entry : CanonicalRawEntryV1) : Prop :=
  algorithm = .contentPreservingExtension ∧ entry ∈ candidate.entries ∧ entry ∉ source.entries

theorem canonicalInputIsValid_iff {input : CanonicalProofInputV1}
    (h : input.gitAvailability ≠ .missing) :
    input.canonicalInputIsValid = true ↔ Comparable input := by
  have havailable : input.gitAvailability = .available := by
    cases hg : input.gitAvailability with
    | available => rfl
    | missing => exact absurd hg h
  simp only [CanonicalProofInputV1.canonicalInputIsValid, Bool.and_eq_true, Bool.not_eq_true',
    List.isEmpty_eq_false_iff, List.all_eq_true]
  exact ⟨fun ⟨⟨hne, hs⟩, he⟩ => ⟨havailable, hne, hs, he⟩,
    fun hr => ⟨⟨hr.pathScope, hr.scopes⟩, hr.entries⟩⟩

theorem evaluateAvailableInputs_verified_iff :
    (evaluateAvailableInputs algorithm source candidate).proofStatus = .verified ↔
      source.canonicalInputIsValid = true ∧ candidate.canonicalInputIsValid = true ∧
        PreservesContent source candidate algorithm := by
  have hite : ∀ (p : Prop) [Decidable p],
      (if p then RelationProofStatusV1.verified else .refuted) = .verified ↔ p := by
    intro p _
    by_cases h : p <;> simp [h]
  cases algorithm with
  | exactMaterialization | canonicalEquivalentRewrite =>
    simp [evaluateAvailableInputs, hite, PreservesContent, and_assoc]
  | contentPreservingExtension =>
    simp only [evaluateAvailableInputs, hite, Bool.and_eq_true, decide_eq_true_eq, PreservesContent,
      and_assoc, List.all_eq_true, Bool.not_eq_true',
      List.isEmpty_eq_false_iff, ne_eq, List.filter_eq_nil_iff, not_forall, exists_prop,
      List.contains_eq_mem, decide_eq_false_iff_not, not_not]
    rfl
  | attributionOnly => simp [evaluateAvailableInputs, PreservesContent]

theorem relationProofResult_verified_iff :
    (relationProofResult algorithm source candidate).proofStatus = .verified ↔
      Comparable source ∧ Comparable candidate ∧ PreservesContent source candidate algorithm := by
  unfold relationProofResult
  split
  · next h => simp [h, PreservesContent]
  · split
    · next hmissing =>
      refine iff_of_false (by simp) ?_
      rintro ⟨hs, hc, _⟩
      simp [hs.available, hc.available] at hmissing
    · next hpresent =>
      rw [not_or] at hpresent
      rw [evaluateAvailableInputs_verified_iff, canonicalInputIsValid_iff hpresent.1,
        canonicalInputIsValid_iff hpresent.2]

theorem mem_additions_of_verified {algorithm : RelationProofAlgorithmV1}
    {source candidate : CanonicalProofInputV1}
    (h : (relationProofResult algorithm source candidate).proofStatus = .verified)
    (entry : CanonicalRawEntryV1) :
    entry ∈ (relationProofResult algorithm source candidate).additions ↔
      AddsEntry source candidate algorithm entry := by
  unfold relationProofResult at h ⊢
  split at h
  · cases h
  · next halgorithm =>
    rw [if_neg halgorithm]
    split at h
    · cases h
    · next hpresent =>
      rw [if_neg hpresent]
      cases algorithm <;> simp [evaluateAvailableInputs, AddsEntry]

namespace RelationProofManifestV1

/-- The manifest's algorithm, evaluated on the inputs the manifest records, gives the verdict the
manifest records. -/
def Proved (sha : Sha256) (manifest : RelationProofManifestV1) : Prop :=
  ∃ evaluated,
    evaluateRelationProofV1 sha manifest.revision manifest.associationId manifest.algorithm
      manifest.source manifest.candidate = .ok evaluated ∧
    evaluated.result.proofStatus = .verified ∧
    evaluated.result.semanticRelation = manifest.result.semanticRelation ∧
    evaluated.result.additions = manifest.result.additions

/-- What a manifest records is so. -/
structure Satisfies (manifest : RelationProofManifestV1) : Prop where
  relation : manifest.result.semanticRelation = manifest.algorithm.semanticRelation
  source : Comparable manifest.source
  candidate : Comparable manifest.candidate
  carries : PreservesContent manifest.source manifest.candidate manifest.algorithm
  additions : ∀ entry, entry ∈ manifest.result.additions ↔
    AddsEntry manifest.source manifest.candidate manifest.algorithm entry

variable {manifest : RelationProofManifestV1} {sha : Sha256}

theorem proved_iff_satisfies (hsorted : isSortedUnique manifest.result.additions = true) :
    manifest.Proved sha ↔ manifest.Satisfies := by
  obtain ⟨evaluated, heq, hresult⟩ := evaluateRelationProofV1_eq_ok sha manifest.revision
    manifest.associationId manifest.algorithm manifest.source manifest.candidate
  have hproved : manifest.Proved sha ↔
      evaluated.result.proofStatus = .verified ∧
      evaluated.result.semanticRelation = manifest.result.semanticRelation ∧
      evaluated.result.additions = manifest.result.additions := by
    simp [Proved, heq]
  rw [hproved, hresult]
  dsimp only
  rw [relationProofResult_semanticRelation, sortedUnique_eq_iff hsorted]
  constructor
  · rintro ⟨hverified, hrelation, hadditions⟩
    obtain ⟨hs, hc, hcarries⟩ := (relationProofResult_verified_iff ..).mp hverified
    refine ⟨hrelation.symm, hs, hc, hcarries, fun entry => ?_⟩
    rw [← hadditions, mem_additions_of_verified hverified]
  · intro h
    have hverified := (relationProofResult_verified_iff ..).mpr ⟨h.source, h.candidate, h.carries⟩
    refine ⟨hverified, h.relation.symm, fun entry => ?_⟩
    rw [mem_additions_of_verified hverified, h.additions]

theorem isSortedUnique_additions (h : (manifest.validate sha).isOk = true) :
    isSortedUnique manifest.result.additions = true := by
  rw [validate, Result.ensure] at h
  split at h
  · next hcheck =>
    simp only [Bool.and_eq_true] at hcheck
    exact hcheck.1.1.2
  · cases h

end RelationProofManifestV1

structure RevisionRelationEvidenceV1 where
  revision : RevisionRefV1
  associationId : CommitAssociationId
  semanticRelation : SemanticRevisionRelationV1
  proofStatus : RelationProofStatusV1
  conflicting : Bool
  contentQualified : Bool

def RevisionRelationEvidenceV1.unknown (revision : RevisionRefV1)
    (associationId : CommitAssociationId) : RevisionRelationEvidenceV1 where
  revision := revision
  associationId := associationId
  semanticRelation := .unknown
  proofStatus := .unverified
  conflicting := false
  contentQualified := false

section Evidence

variable (sha : Sha256) (revision : RevisionRefV1) (associationId : CommitAssociationId)
  (attestations : List RevisionRelationAttestedPayload)
  (proofs : BTreeMap Text (RelationProofManifestV1 × EvidenceAvailabilityV1))

def matchingAttestations : List RevisionRelationAttestedPayload :=
  attestations.filter fun attestation =>
    attestation.revision = revision && attestation.commitAssociationId = associationId

/-- The stored manifest an attestation cites is there and says what the attestation says. -/
def proofAvailable (attestation : RevisionRelationAttestedPayload) : Bool :=
  (attestation.evidenceContentHash.bind fun hash => proofs[hash]?).any
    fun (proof, availability) =>
      availability = .available && proof.revision = revision &&
      proof.associationId = associationId &&
      proof.evidenceSha256 = attestation.evidenceContentHash.getD [] &&
      proof.result.semanticRelation = attestation.semanticRelation &&
      proof.result.proofStatus = attestation.proofStatus &&
      proof.algorithmVersion = attestation.proofAlgorithmVersion &&
      proof.resultDigest sha = attestation.resultDigest && (proof.validate sha).isOk

def projectRevisionRelationEvidenceV1 : Result RevisionRelationEvidenceV1 := do
  attestations.forM fun attestation => attestation.validate sha
  let matching := matchingAttestations revision associationId attestations
  match matching with
  | [] => .ok (.unknown revision associationId)
  | attestation :: _ =>
    let distinct := BTreeSet.collect (matching.map (·.relationAttestationId))
    if distinct.size ≠ 1 then
      .ok { revision, associationId, semanticRelation := .unknown, proofStatus := .unverified,
            conflicting := true, contentQualified := false }
    else
      .ok { revision, associationId, semanticRelation := attestation.semanticRelation,
            proofStatus := attestation.proofStatus, conflicting := false,
            contentQualified := attestation.semanticRelation.isContentRelation &&
              attestation.proofStatus = .verified &&
              proofAvailable sha revision associationId proofs attestation }

/-- The manifest the verdict rests on: the one cited by the first attestation in question. -/
def reliedOn : Option RelationProofManifestV1 :=
  match matchingAttestations revision associationId attestations with
  | [] => none
  | attestation :: _ =>
    (attestation.evidenceContentHash.bind fun hash => proofs[hash]?).map Prod.fst

variable {sha revision associationId attestations proofs}

/-- A content-qualified verdict rests on a manifest that passed its checks. -/
theorem reliedOn_of_contentQualified {view : RevisionRelationEvidenceV1}
    (hview : projectRevisionRelationEvidenceV1 sha revision associationId attestations proofs =
      .ok view)
    (hqualified : view.contentQualified = true) :
    ∃ manifest, reliedOn revision associationId attestations proofs = some manifest ∧
      (manifest.validate sha).isOk = true := by
  rw [projectRevisionRelationEvidenceV1, Result.bind_eq_ok] at hview
  obtain ⟨-, -, hview⟩ := hview
  unfold reliedOn
  cases hmatching : matchingAttestations revision associationId attestations with
  | nil =>
    rw [hmatching] at hview
    cases hview
    cases hqualified
  | cons attestation rest =>
    rw [hmatching] at hview
    dsimp only at hview ⊢
    split at hview
    · cases hview
      cases hqualified
    · cases hview
      simp only [proofAvailable, Bool.and_eq_true, Option.any_eq_true] at hqualified
      obtain ⟨-, ⟨manifest, availability⟩, hcited, hchecks⟩ := hqualified
      exact ⟨manifest, by rw [hcited, Option.map_some], hchecks.2⟩

end Evidence

/-- A reader's verdict is what the comparison gives exactly when the manifest records what is so:
the checks of a manifest that was read do not include the comparison. -/
theorem qualified_iff_satisfies (sha : Sha256) :
    (∀ revision associationId attestations proofs view,
      projectRevisionRelationEvidenceV1 sha revision associationId attestations proofs = .ok view →
      view.contentQualified = true →
      ∃ manifest, reliedOn revision associationId attestations proofs = some manifest ∧
        (manifest.Proved sha ↔ manifest.Satisfies)) ∧
    (∀ (manifest : RelationProofManifestV1) availability,
      (manifest.project sha availability).reproducible = true →
      (manifest.Proved sha ↔ manifest.Satisfies)) := by
  constructor
  · intro revision associationId attestations proofs view hview hqualified
    obtain ⟨manifest, hrelied, hvalid⟩ := reliedOn_of_contentQualified hview hqualified
    exact ⟨manifest, hrelied, RelationProofManifestV1.proved_iff_satisfies
      (RelationProofManifestV1.isSortedUnique_additions hvalid)⟩
  · intro manifest availability hreproducible
    simp only [RelationProofManifestV1.project, Bool.and_eq_true] at hreproducible
    exact RelationProofManifestV1.proved_iff_satisfies
      (RelationProofManifestV1.isSortedUnique_additions hreproducible.2)

/-! ## A manifest that was not computed -/

namespace Recorded

def association : CommitAssociationId := ⟨text "assoc-commit:sha256:01"⟩

/-- The capture: no file of `src` changes. -/
def reviewedInput : CanonicalProofInputV1 where
  captureMode := .commitRange
  baseOrParent := some (text "abc")
  pathScope := [text "src"]
  gitAvailability := .available
  entries := []

/-- The commit: one file of `src` changes. -/
def otherInput : CanonicalProofInputV1 :=
  { reviewedInput with
    entries := [{
      pathIdentity := text "sha256:01", previousPathIdentity := none, change := .modified,
      oldOid := some (text "old"), newOid := some (text "new"),
      oldMode := some (text "100644"), newMode := some (text "100644"),
      oldDecodedSha256 := none, newDecodedSha256 := none, contentKind := .plain,
      untracked := false }] }

def exactManifest (candidate : CanonicalProofInputV1) (digest : Nat) : RelationProofManifestV1 where
  schema := RELATION_PROOF_SCHEMA_V1
  version := 1
  algorithm := .exactMaterialization
  algorithmVersion := RelationProofAlgorithmV1.version .exactMaterialization
  revision := ref 1
  associationId := association
  source := reviewedInput
  candidate := candidate
  result := { semanticRelation := .exactMaterialization, proofStatus := .verified, additions := [] }
  evidenceSha256 := artifact digest

def resultDigest : Nat := 0x522cb5aca92f935a31b41cdc3d91b5872d9d92c13d9acadae46a08d888395047

/-- The honest manifest: the commit is what was captured. -/
def provedManifest : RelationProofManifestV1 :=
  exactManifest reviewedInput 0x9980cfd88b37305d1490e0bb231c5afa9d7484a6605744f33f84c975e439ad4a

/-- The same statement about a commit that changes a file. -/
def forgedManifest : RelationProofManifestV1 :=
  exactManifest otherInput 0x4160761aaac548d1f82502e60de82b400891c8fb50c15d8c35e048d1c74b63e6

def attestationOf (manifest : RelationProofManifestV1) (digest : Nat) :
    RevisionRelationAttestedPayload where
  schema := RELATION_ATTESTED_SCHEMA_V1
  version := 1
  relationAttestationId := ⟨text "relation-attestation:" ++ artifact digest⟩
  revision := manifest.revision
  commitAssociationId := manifest.associationId
  semanticRelation := manifest.result.semanticRelation
  proofStatus := manifest.result.proofStatus
  proofMethod := text "canonical-diff"
  proofAlgorithmVersion := manifest.algorithmVersion
  captureScope := manifest.candidate.pathScope
  comparisonBaseOrParent := manifest.candidate.baseOrParent
  endpointOids := []
  evidenceContentHash := some manifest.evidenceSha256
  resultDigest := artifact resultDigest

def provedAttestation : RevisionRelationAttestedPayload :=
  attestationOf provedManifest 0x0b80b0f6547b8fd5ed66f6c4157220a0dc12b25a96ae2efaa9d3668d48992ddc

def forgedAttestation : RevisionRelationAttestedPayload :=
  attestationOf forgedManifest 0x78dc85b1c4c2698f584c7a2a44b07816ede3a1ab39aaca67ec0d7da6f839803a

/-- What the two manifests and their attestations are hashed from. -/
def proofDigests : List (Json × Nat) :=
  [(provedManifest.hashPreimage,
      0x9980cfd88b37305d1490e0bb231c5afa9d7484a6605744f33f84c975e439ad4a),
    (forgedManifest.hashPreimage,
      0x4160761aaac548d1f82502e60de82b400891c8fb50c15d8c35e048d1c74b63e6),
    (provedManifest.result.toValue, resultDigest),
    (provedAttestation.payloadWithoutAttestationId,
      0x0b80b0f6547b8fd5ed66f6c4157220a0dc12b25a96ae2efaa9d3668d48992ddc),
    (forgedAttestation.payloadWithoutAttestationId,
      0x78dc85b1c4c2698f584c7a2a44b07816ede3a1ab39aaca67ec0d7da6f839803a)]

def proofSha : Sha256 := recordedSha proofDigests

def storedProofs : BTreeMap Text (RelationProofManifestV1 × EvidenceAvailabilityV1) :=
  .collect [(provedManifest.evidenceSha256, provedManifest, .available),
    (forgedManifest.evidenceSha256, forgedManifest, .available)]

def evidenceFor (attestation : RevisionRelationAttestedPayload) :
    Result RevisionRelationEvidenceV1 :=
  projectRevisionRelationEvidenceV1 proofSha (ref 1) association [attestation] storedProofs

end Recorded

open Recorded in
/-- Nobody compared the two inputs of the forged manifest, which differ; it is content-qualified
and reproducible all the same. -/
theorem forged_qualified : CollisionFree proofSha (proofDigests.map Prod.fst) ∧
    (evidenceFor forgedAttestation).toOption.any (·.contentQualified) = true ∧
    reliedOn (ref 1) association [forgedAttestation] storedProofs = some forgedManifest ∧
    (forgedManifest.project proofSha .available).reproducible = true ∧
    ¬ forgedManifest.Proved proofSha := by
  have hchecks : (proofDigests.map fun digest => sha256JsonPrefixed proofSha digest.1).Nodup ∧
      (evidenceFor forgedAttestation).toOption.any (·.contentQualified) = true ∧
      reliedOn (ref 1) association [forgedAttestation] storedProofs = some forgedManifest ∧
      (forgedManifest.project proofSha .available).reproducible = true := by decide +kernel
  obtain ⟨hnodup, hqualified, hrelied, hreproducible⟩ := hchecks
  refine ⟨collisionFree_of_nodup (by rw [List.map_map]; exact hnodup), hqualified, hrelied,
    hreproducible, ?_⟩
  rw [RelationProofManifestV1.proved_iff_satisfies rfl]
  intro h
  exact absurd h.carries (by decide : forgedManifest.source ≠ forgedManifest.candidate)

open Recorded in
theorem honest_qualified :
    (∃ manifest, reliedOn (ref 1) association [provedAttestation] storedProofs = some manifest ∧
      (manifest.Proved proofSha ↔ manifest.Satisfies)) ∧
    provedManifest.Satisfies ∧ provedManifest.Proved proofSha := by
  have hchecks : (∃ view, evidenceFor provedAttestation = .ok view ∧ view.contentQualified = true) ∧
      (provedManifest.project proofSha .available).reproducible = true := by decide +kernel
  obtain ⟨⟨view, hview, hqualified⟩, hreproducible⟩ := hchecks
  have hsatisfies : provedManifest.Satisfies := by
    have hcomparable : Comparable reviewedInput := ⟨rfl, by decide, by decide, by decide⟩
    refine ⟨rfl, hcomparable, hcomparable, rfl, fun entry => ?_⟩
    simp [provedManifest, exactManifest, AddsEntry]
  refine ⟨(qualified_iff_satisfies proofSha).1 (ref 1) association [provedAttestation] storedProofs
    view hview hqualified, hsatisfies, ?_⟩
  exact ((qualified_iff_satisfies proofSha).2 provedManifest .available hreproducible).mpr hsatisfies

end Pointbreak
