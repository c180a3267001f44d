import Pointbreak.Event.Change
import Pointbreak.Lib.Sorted

/-!
# Event.Review

The payloads of review facts: proposals, assessments, input requests and their responses, and fact
ports, which carry a fact of one Revision over to another. A port names itself by a hash of its
material, the actor and the track. Of the other payloads, the fields that projections read.
-/

namespace Pointbreak

/-- The assertion mode of an event: whether it merely informs or asks for an effect. -/
inductive AssertionMode where
  | advisory | operative
deriving DecidableEq

inductive BodyContentType where
  | textPlain | textMarkdown
deriving DecidableEq

inductive TaskTargetRef where
  | taskAttempt (taskAttemptId : WorkObjectId)
  | checkpoint (checkpointId : CheckpointId)
deriving DecidableEq

/-- The endpoints a Revision's object was captured between. -/
structure GitProvenance where
  source : RevisionSource
  base : ReviewEndpoint
  target : ReviewEndpoint
deriving DecidableEq

/-- A position over a content-only object. -/
structure Revision where
  id : RevisionId
  objectId : ObjectId
  gitProvenance : Option GitProvenance
deriving DecidableEq

/-- A proposed work object, with the fields that projections read. -/
inductive WorkObjectProposal where
  | revision (revision : Revision) (objectArtifactContentHash : Text)
      (supersedes : List RevisionId)
  | taskAttempt (taskAttemptId : WorkObjectId)
deriving DecidableEq

structure WorkObjectProposedPayload where
  engagementId : EngagementId
  workObject : WorkObjectProposal
deriving DecidableEq

inductive ReviewAssessment where
  | accepted | acceptedWithFollowUp | needsChanges | needsClarification
deriving DecidableEq

structure ReviewAssessmentRecordedPayload where
  assessmentId : AssessmentId
  target : ReviewTargetRef
  assessment : ReviewAssessment
  summary : Option Text
  summaryContentType : BodyContentType
  summaryArtifactPath : Option Text
  summaryContentHash : Option Text
  replacesAssessmentIds : List AssessmentId
  relatedObservationIds : List ObservationId
  relatedInputRequestIds : List InputRequestId
deriving DecidableEq

inductive InputRequestReasonCode where
  | ambiguousState | unsafeAction | staleRevision | failedGate | externalSideEffect
  | conflictingEvent | missingPermission | manualDecisionRequired | insufficientEvidence
deriving DecidableEq

inductive InputRequestResponseOutcome where
  | approved | rejected | dismissed | superseded | abandoned
deriving DecidableEq

structure InputRequestOpenedPayload where
  inputRequestId : InputRequestId
  target : ReviewTargetRef
  taskTarget : Option TaskTargetRef
  reasonCode : InputRequestReasonCode
  title : Text
  body : Option Text
  bodyContentType : BodyContentType
  bodyArtifactPath : Option Text
  bodyContentHash : Option Text
  bodyByteSize : Option Nat := none
  targetFingerprint : Option Text := none
deriving DecidableEq

structure InputRequestRespondedPayload where
  inputRequestResponseId : InputRequestResponseId
  inputRequestId : InputRequestId
  revisionId : Option RevisionId
  taskTarget : Option TaskTargetRef
  outcome : InputRequestResponseOutcome
  reason : Option Text
  reasonContentType : BodyContentType
  reasonArtifactPath : Option Text
  reasonContentHash : Option Text
  reasonByteSize : Option Nat := none
  targetFingerprint : Option Text := none
deriving DecidableEq

def FACT_PORTED_SCHEMA_V1 : Text := text "pointbreak.review-fact-ported"

inductive FactPortRelationV1 where
  | contextOnly | reanchoredAs | carriedOpenAs | resolvedBy
deriving DecidableEq

def FactPortRelationV1.toValue : FactPortRelationV1 → Json
  | .contextOnly => .str (text "context_only")
  | .reanchoredAs => .str (text "reanchored_as")
  | .carriedOpenAs => .str (text "carried_open_as")
  | .resolvedBy => .str (text "resolved_by")

inductive FactRefV1 where
  | observation (observationId : ObservationId)
  | inputRequest (inputRequestId : InputRequestId)
deriving DecidableEq

namespace FactRefV1

def toValue : FactRefV1 → Json
  | .observation id =>
    .obj [(text "kind", .str (text "observation")), (text "observationId", id.toValue)]
  | .inputRequest id =>
    .obj [(text "kind", .str (text "input_request")), (text "inputRequestId", id.toValue)]

def isObservation : FactRefV1 → Bool
  | .observation _ => true
  | .inputRequest _ => false

def isInputRequest : FactRefV1 → Bool
  | .observation _ => false
  | .inputRequest _ => true

end FactRefV1

structure ReviewFactPortedPayload where
  schema : Text
  version : Nat
  portId : ReviewFactPortId
  originRevision : RevisionRefV1
  originFact : FactRefV1
  targetRevision : RevisionRefV1
  relation : FactPortRelationV1
  targetFact : Option FactRefV1
  rationaleContentHash : Option Text
  contextChangeId : Option ChangeId
deriving DecidableEq

def invalidRelationPayload (message : Text) : ShoreError := .invalidEvent message

def optionToValue {α : Type} (toValue : α → Json) : Option α → Json
  | none => .null
  | some a => toValue a

namespace ReviewFactPortedPayload

def payloadWithoutPortId (payload : ReviewFactPortedPayload) : Json :=
  .obj [(text "schema", .str payload.schema), (text "version", .num payload.version),
    (text "originRevision", payload.originRevision.toValue),
    (text "originFact", payload.originFact.toValue),
    (text "targetRevision", payload.targetRevision.toValue),
    (text "relation", payload.relation.toValue),
    (text "targetFact", optionToValue FactRefV1.toValue payload.targetFact),
    (text "rationaleContentHash", optionToValue Json.str payload.rationaleContentHash),
    (text "contextChangeId", optionToValue Ident.toValue payload.contextChangeId)]

def validateFactPort (payload : ReviewFactPortedPayload) : Result Unit := do
  Result.ensure (payload.originRevision.revisionId ≠ payload.targetRevision.revisionId)
    (invalidRelationPayload (text "fact ports require distinct origin and target Revisions"))
  Result.ensure (payload.rationaleContentHash.all isPrefixedSha256)
    (invalidRelationPayload (text "fact-port rationale hash is not a prefixed SHA-256"))
  let targetRequired := payload.relation = .reanchoredAs || payload.relation = .carriedOpenAs
  Result.ensure (targetRequired == payload.targetFact.isSome)
    (.message (text
      "fact-port targetFact must be present exactly for reanchored_as or carried_open_as"))
  Result.ensure (payload.relation ≠ .carriedOpenAs ||
      payload.originFact.isInputRequest && payload.targetFact.any FactRefV1.isInputRequest)
    (.message (text "carried_open_as requires an input-request origin"))
  Result.ensure (payload.relation ≠ .reanchoredAs ||
      payload.originFact.isObservation && payload.targetFact.any FactRefV1.isObservation)
    (invalidRelationPayload (text "reanchored_as requires observation facts at both endpoints"))

def validate (payload : ReviewFactPortedPayload) : Result Unit := do
  Result.ensure (payload.schema = FACT_PORTED_SCHEMA_V1 && payload.version == 1)
    (invalidRelationPayload (text "unsupported fact-port schema/version"))
  payload.validateFactPort

/-- The JSON a port id is the hash of. -/
def attributionMaterial (payload : ReviewFactPortedPayload) (actorId : ActorId)
    (trackId : TrackId) : Json :=
  .obj [(text "payload", payload.payloadWithoutPortId), (text "actorId", actorId.toValue),
    (text "trackId", trackId.toValue)]

def validateAttribution (sha : Sha256) (payload : ReviewFactPortedPayload) (actorId : ActorId)
    (trackId : TrackId) : Result Unit := do
  payload.validate
  let expected : ReviewFactPortId :=
    ⟨prefixedHash sha IdPrefix.REVIEW_FACT_PORT (payload.attributionMaterial actorId trackId)⟩
  Result.ensure (expected = payload.portId)
    (invalidRelationPayload (text "fact-port identity or attribution mismatch"))

end ReviewFactPortedPayload

/-! ## Commits and refs

A Revision is associated with a commit or a ref under an association id; a withdrawal names the
association it takes back. -/

structure RevisionCommitAssociatedPayload where
  commitAssociationId : CommitAssociationId
  target : ReviewTargetRef
  commit : ReviewEndpoint
deriving DecidableEq

structure RevisionRefAssociatedPayload where
  refAssociationId : RefAssociationId
  target : ReviewTargetRef
  refName : Text
  headOid : Text
deriving DecidableEq

structure RevisionCommitWithdrawnPayload where
  commitWithdrawalId : CommitWithdrawalId
  target : ReviewTargetRef
  commitAssociationId : CommitAssociationId
deriving DecidableEq

structure RevisionRefWithdrawnPayload where
  refWithdrawalId : RefWithdrawalId
  target : ReviewTargetRef
  refAssociationId : RefAssociationId
deriving DecidableEq

/-! ## Relation attestations

Somebody states what relation the content of a Revision has to the commit associated with it, and
what the statement rests on. -/

def RELATION_ATTESTED_SCHEMA_V1 : Text := text "pointbreak.revision-relation-attested"

inductive SemanticRevisionRelationV1 where
  | exactMaterialization | equivalentRewrite | contentPreservingExtension
  | landingProvenance | relatedProvenance | unknown
deriving DecidableEq

namespace SemanticRevisionRelationV1

def toValue : SemanticRevisionRelationV1 → Json
  | .exactMaterialization => .str (text "exact_materialization")
  | .equivalentRewrite => .str (text "equivalent_rewrite")
  | .contentPreservingExtension => .str (text "content_preserving_extension")
  | .landingProvenance => .str (text "landing_provenance")
  | .relatedProvenance => .str (text "related_provenance")
  | .unknown => .str (text "unknown")

/-- The relations that say something about content. -/
def isContentRelation : SemanticRevisionRelationV1 → Bool
  | .exactMaterialization | .equivalentRewrite | .contentPreservingExtension => true
  | .landingProvenance | .relatedProvenance | .unknown => false

end SemanticRevisionRelationV1

inductive RelationProofStatusV1 where
  | verified | asserted | unverified | indeterminate | refuted
deriving DecidableEq

def RelationProofStatusV1.toValue : RelationProofStatusV1 → Json
  | .verified => .str (text "verified")
  | .asserted => .str (text "asserted")
  | .unverified => .str (text "unverified")
  | .indeterminate => .str (text "indeterminate")
  | .refuted => .str (text "refuted")

structure RevisionRelationAttestedPayload where
  schema : Text
  version : Nat
  relationAttestationId : RevisionRelationAttestationId
  revision : RevisionRefV1
  commitAssociationId : CommitAssociationId
  semanticRelation : SemanticRevisionRelationV1
  proofStatus : RelationProofStatusV1
  proofMethod : Text
  proofAlgorithmVersion : Text
  captureScope : List Text
  comparisonBaseOrParent : Option Text
  endpointOids : List Text
  evidenceContentHash : Option Text
  resultDigest : Text

namespace RevisionRelationAttestedPayload

def payloadWithoutAttestationId (payload : RevisionRelationAttestedPayload) : Json :=
  .obj [(text "schema", .str payload.schema), (text "version", .num payload.version),
    (text "revision", payload.revision.toValue),
    (text "commitAssociationId", payload.commitAssociationId.toValue),
    (text "semanticRelation", payload.semanticRelation.toValue),
    (text "proofStatus", payload.proofStatus.toValue),
    (text "proofMethod", .str payload.proofMethod),
    (text "proofAlgorithmVersion", .str payload.proofAlgorithmVersion),
    (text "captureScope", .arr (payload.captureScope.map Json.str)),
    (text "comparisonBaseOrParent", optionToValue Json.str payload.comparisonBaseOrParent),
    (text "endpointOids", .arr (payload.endpointOids.map Json.str)),
    (text "evidenceContentHash", optionToValue Json.str payload.evidenceContentHash),
    (text "resultDigest", .str payload.resultDigest)]

def validate (sha : Sha256) (payload : RevisionRelationAttestedPayload) : Result Unit := do
  Result.ensure (payload.schema = RELATION_ATTESTED_SCHEMA_V1 && payload.version == 1)
    (invalidRelationPayload (text "unsupported relation-attestation schema/version"))
  Result.ensure (!payload.proofMethod.isBlank && !payload.proofAlgorithmVersion.isBlank &&
      isSortedUnique payload.captureScope && isSortedUnique payload.endpointOids &&
      isPrefixedSha256 payload.resultDigest && payload.evidenceContentHash.all isPrefixedSha256)
    (invalidRelationPayload (text
      "relation-attestation proof metadata is not canonical or integrity-qualified"))
  let expected : RevisionRelationAttestationId :=
    ⟨prefixedHash sha IdPrefix.REVISION_RELATION_ATTESTATION payload.payloadWithoutAttestationId⟩
  Result.ensure (expected = payload.relationAttestationId)
    (invalidRelationPayload (text "relation-attestation identity mismatch"))
  Result.ensure (!(payload.proofStatus = .verified && payload.semanticRelation.isContentRelation &&
      payload.evidenceContentHash.isNone))
    (invalidRelationPayload (text "verified content relation requires an evidence content hash"))

end RevisionRelationAttestedPayload

inductive ValidationStatus where
  | passed | failed | errored | skipped
deriving DecidableEq

inductive ValidationTarget where
  | revision (revisionId : RevisionId)
deriving DecidableEq

structure ValidationCheckRecordedPayload where
  validationCheckId : ValidationCheckId
  target : ValidationTarget
  checkName : Text
  status : ValidationStatus
  exitCode : Option Int
  completedAt : Option Text
  logArtifactContentHashes : List Text
deriving DecidableEq

structure ReviewObservationRecordedPayload where
  observationId : ObservationId
  target : ReviewTargetRef
deriving DecidableEq

structure ArtifactRemovedPayload where
  contentHash : Text
deriving DecidableEq

structure TaskCheckpointCapturedPayload where
  checkpointId : CheckpointId
  parentTaskAttemptId : WorkObjectId
  assistantMessageId : Text
  toolUseIds : List Text
  checkpointFingerprint : Option Text

structure TaskObservationRecordedPayload where
  checkpointId : Option CheckpointId

end Pointbreak
