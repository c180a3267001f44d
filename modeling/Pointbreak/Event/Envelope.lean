import Pointbreak.Event.Review

/-!
# Event.Envelope

The event envelope, and what the model takes from outside the repository: SHA-256 and the decoders
that serde derives for the payload types. A stored payload is an opaque value of type `V`; nothing
is assumed of the decoders.
-/

namespace Pointbreak

inductive EventType where
  | reviewInitialized | workObjectProposed | reviewObservationRecorded | reviewAssessmentRecorded
  | inputRequestOpened | inputRequestResponded | reviewNoteImported
  | revisionRefAssociated | revisionRefWithdrawn | revisionCommitAssociated
  | revisionCommitWithdrawn | validationCheckRecorded | taskCheckpointCaptured
  | taskObservationRecorded | eventSignatureRecorded | artifactRemoved
  | changeDeclared | changeMembershipAsserted | changeMembershipWithdrawn | changeLinkAsserted
  | changeRevisionRelationAsserted | changeRevisionRelationWithdrawn
  | revisionRelationAttested | reviewFactPorted
deriving DecidableEq

/-- The name an event type has in counts and in stored rows. -/
def EventType.asStr : EventType → Text
  | .reviewInitialized => text "review_initialized"
  | .workObjectProposed => text "work_object_proposed"
  | .reviewObservationRecorded => text "review_observation_recorded"
  | .reviewAssessmentRecorded => text "review_assessment_recorded"
  | .inputRequestOpened => text "input_request_opened"
  | .inputRequestResponded => text "input_request_responded"
  | .reviewNoteImported => text "review_note_imported"
  | .revisionRefAssociated => text "revision_ref_associated"
  | .revisionRefWithdrawn => text "revision_ref_withdrawn"
  | .revisionCommitAssociated => text "revision_commit_associated"
  | .revisionCommitWithdrawn => text "revision_commit_withdrawn"
  | .validationCheckRecorded => text "validation_check_recorded"
  | .taskCheckpointCaptured => text "task_checkpoint_captured"
  | .taskObservationRecorded => text "task_observation_recorded"
  | .eventSignatureRecorded => text "event_signature_recorded"
  | .artifactRemoved => text "artifact_removed"
  | .changeDeclared => text "change_declared"
  | .changeMembershipAsserted => text "change_membership_asserted"
  | .changeMembershipWithdrawn => text "change_membership_withdrawn"
  | .changeLinkAsserted => text "change_link_asserted"
  | .changeRevisionRelationAsserted => text "change_revision_relation_asserted"
  | .changeRevisionRelationWithdrawn => text "change_revision_relation_withdrawn"
  | .revisionRelationAttested => text "revision_relation_attested"
  | .reviewFactPorted => text "review_fact_ported"

def EventType.all : List EventType :=
  [.reviewInitialized, .workObjectProposed, .reviewObservationRecorded, .reviewAssessmentRecorded,
    .inputRequestOpened, .inputRequestResponded, .reviewNoteImported, .revisionRefAssociated,
    .revisionRefWithdrawn, .revisionCommitAssociated, .revisionCommitWithdrawn,
    .validationCheckRecorded, .taskCheckpointCaptured, .taskObservationRecorded,
    .eventSignatureRecorded, .artifactRemoved, .changeDeclared, .changeMembershipAsserted,
    .changeMembershipWithdrawn, .changeLinkAsserted, .changeRevisionRelationAsserted,
    .changeRevisionRelationWithdrawn, .revisionRelationAttested, .reviewFactPorted]

theorem EventType.mem_all (eventType : EventType) : eventType ∈ EventType.all := by
  cases eventType <;> simp [EventType.all]

theorem EventType.asStr_injective : Function.Injective EventType.asStr := by
  have h : ∀ a ∈ EventType.all, ∀ b ∈ EventType.all, a.asStr = b.asStr → a = b := by
    decide +kernel
  intro a b
  exact h a (mem_all a) b (mem_all b)

structure EventTarget where
  journalId : JournalId
  subjectId : Option Text
  trackId : Option TrackId
deriving DecidableEq

structure WriterProducer where
  name : Text
  version : Text
deriving DecidableEq

structure Writer where
  actorId : ActorId
  producer : WriterProducer
deriving DecidableEq

/-- An event as projections read it. -/
structure ShoreEvent (V : Type) where
  schema : Text
  version : Nat
  eventId : EventId
  eventType : EventType
  idempotencyKey : Text
  target : EventTarget
  writer : Writer
  occurredAt : Text
  payloadHash : Text
  assertionMode : AssertionMode
  payload : V
deriving DecidableEq

def EVENT_SCHEMA : Text := text "shore.event"

def EVENT_VERSION : Nat := 1

def ShoreEvent.validateSchemaVersion {V : Type} (event : ShoreEvent V) : Result Unit :=
  Result.ensure (event.schema = EVENT_SCHEMA && event.version == EVENT_VERSION)
    (.unsupportedEventSchemaVersion event.schema event.version)

/-- SHA-256, and `serde_json::from_value` at each payload type. -/
structure Runtime (V : Type) where
  sha256 : Sha256
  /-- `value.get("mode").is_some()` -/
  hasMode : V → Bool
  workObjectProposed : V → Except Text WorkObjectProposedPayload
  changeDeclared : V → Except Text ChangeDeclaredPayload
  changeMembershipAsserted : V → Except Text ChangeMembershipAssertedPayload
  changeMembershipWithdrawn : V → Except Text ChangeMembershipWithdrawnPayload
  changeRevisionRelationAsserted : V → Except Text ChangeRevisionRelationAssertedPayload
  changeRevisionRelationWithdrawn : V → Except Text ChangeRevisionRelationWithdrawnPayload
  changeLinkAsserted : V → Except Text ChangeLinkAssertedPayload
  reviewAssessmentRecorded : V → Except Text ReviewAssessmentRecordedPayload
  inputRequestOpened : V → Except Text InputRequestOpenedPayload
  inputRequestResponded : V → Except Text InputRequestRespondedPayload
  reviewFactPorted : V → Except Text ReviewFactPortedPayload
  reviewObservationRecorded : V → Except Text ReviewObservationRecordedPayload
  revisionRefAssociated : V → Except Text RevisionRefAssociatedPayload
  revisionRefWithdrawn : V → Except Text RevisionRefWithdrawnPayload
  revisionCommitAssociated : V → Except Text RevisionCommitAssociatedPayload
  revisionCommitWithdrawn : V → Except Text RevisionCommitWithdrawnPayload
  revisionRelationAttested : V → Except Text RevisionRelationAttestedPayload
  validationCheckRecorded : V → Except Text ValidationCheckRecordedPayload
  artifactRemoved : V → Except Text ArtifactRemovedPayload
  taskCheckpointCaptured : V → Except Text TaskCheckpointCapturedPayload
  taskObservationRecorded : V → Except Text TaskObservationRecordedPayload

def fromValue {V P : Type} (decode : V → Except Text P) (value : V) : Result P :=
  (decode value).mapError .json

@[simp] theorem fromValue_eq_ok {V P : Type} {decode : V → Except Text P} {value : V} {p : P} :
    fromValue decode value = .ok p ↔ decode value = .ok p :=
  Result.mapError_eq_ok

def decodeInputRequestOpenedPayload {V : Type} (rt : Runtime V) (value : V) :
    Result InputRequestOpenedPayload := do
  Result.ensure (!rt.hasMode value) (.invalidEvent (text
    "input_request_opened payload mode is no longer supported; use envelope assertionMode"))
  fromValue rt.inputRequestOpened value

def ReviewTargetRef.revisionOf : ReviewTargetRef → RevisionId
  | .revision r | .file r _ | .range r _ _ _ _ | .observation r _ | .inputRequest r _
  | .assessment r _ | .event r _ => r

/-- Payloads that were never serialized: the typed values themselves. -/
inductive WirePayload where
  | workObjectProposed (payload : WorkObjectProposedPayload)
  | changeDeclared (payload : ChangeDeclaredPayload)
  | changeMembershipAsserted (payload : ChangeMembershipAssertedPayload)
  | changeMembershipWithdrawn (payload : ChangeMembershipWithdrawnPayload)
  | changeRevisionRelationAsserted (payload : ChangeRevisionRelationAssertedPayload)
  | changeRevisionRelationWithdrawn (payload : ChangeRevisionRelationWithdrawnPayload)
  | changeLinkAsserted (payload : ChangeLinkAssertedPayload)
  | reviewAssessmentRecorded (payload : ReviewAssessmentRecordedPayload)
  | inputRequestOpened (payload : InputRequestOpenedPayload)
  | inputRequestResponded (payload : InputRequestRespondedPayload)
  | reviewFactPorted (payload : ReviewFactPortedPayload)
  | reviewObservationRecorded (payload : ReviewObservationRecordedPayload)
  | revisionRefAssociated (payload : RevisionRefAssociatedPayload)
  | revisionRefWithdrawn (payload : RevisionRefWithdrawnPayload)
  | revisionCommitAssociated (payload : RevisionCommitAssociatedPayload)
  | revisionCommitWithdrawn (payload : RevisionCommitWithdrawnPayload)
  | validationCheckRecorded (payload : ValidationCheckRecordedPayload)
  | artifactRemoved (payload : ArtifactRemovedPayload)
deriving DecidableEq

namespace WirePayload

def eventType : WirePayload → EventType
  | .workObjectProposed _ => .workObjectProposed
  | .changeDeclared _ => .changeDeclared
  | .changeMembershipAsserted _ => .changeMembershipAsserted
  | .changeMembershipWithdrawn _ => .changeMembershipWithdrawn
  | .changeRevisionRelationAsserted _ => .changeRevisionRelationAsserted
  | .changeRevisionRelationWithdrawn _ => .changeRevisionRelationWithdrawn
  | .changeLinkAsserted _ => .changeLinkAsserted
  | .reviewAssessmentRecorded _ => .reviewAssessmentRecorded
  | .inputRequestOpened _ => .inputRequestOpened
  | .inputRequestResponded _ => .inputRequestResponded
  | .reviewFactPorted _ => .reviewFactPorted
  | .reviewObservationRecorded _ => .reviewObservationRecorded
  | .revisionRefAssociated _ => .revisionRefAssociated
  | .revisionRefWithdrawn _ => .revisionRefWithdrawn
  | .revisionCommitAssociated _ => .revisionCommitAssociated
  | .revisionCommitWithdrawn _ => .revisionCommitWithdrawn
  | .validationCheckRecorded _ => .validationCheckRecorded
  | .artifactRemoved _ => .artifactRemoved

def unread {P : Type} : Except Text P := .error (text "invalid type")

/-- Each decoder accepts the payloads of its own type, as a decoder reading back what was written
does. -/
def runtime (sha : Sha256) : Runtime WirePayload where
  sha256 := sha
  hasMode _ := false
  workObjectProposed
    | .workObjectProposed p => .ok p
    | _ => unread
  changeDeclared
    | .changeDeclared p => .ok p
    | _ => unread
  changeMembershipAsserted
    | .changeMembershipAsserted p => .ok p
    | _ => unread
  changeMembershipWithdrawn
    | .changeMembershipWithdrawn p => .ok p
    | _ => unread
  changeRevisionRelationAsserted
    | .changeRevisionRelationAsserted p => .ok p
    | _ => unread
  changeRevisionRelationWithdrawn
    | .changeRevisionRelationWithdrawn p => .ok p
    | _ => unread
  changeLinkAsserted
    | .changeLinkAsserted p => .ok p
    | _ => unread
  reviewAssessmentRecorded
    | .reviewAssessmentRecorded p => .ok p
    | _ => unread
  inputRequestOpened
    | .inputRequestOpened p => .ok p
    | _ => unread
  inputRequestResponded
    | .inputRequestResponded p => .ok p
    | _ => unread
  reviewFactPorted
    | .reviewFactPorted p => .ok p
    | _ => unread
  reviewObservationRecorded
    | .reviewObservationRecorded p => .ok p
    | _ => unread
  revisionRefAssociated
    | .revisionRefAssociated p => .ok p
    | _ => unread
  revisionRefWithdrawn
    | .revisionRefWithdrawn p => .ok p
    | _ => unread
  revisionCommitAssociated
    | .revisionCommitAssociated p => .ok p
    | _ => unread
  revisionCommitWithdrawn
    | .revisionCommitWithdrawn p => .ok p
    | _ => unread
  validationCheckRecorded
    | .validationCheckRecorded p => .ok p
    | _ => unread
  artifactRemoved
    | .artifactRemoved p => .ok p
    | _ => unread
  revisionRelationAttested _ := unread
  taskCheckpointCaptured _ := unread
  taskObservationRecorded _ := unread

end WirePayload

end Pointbreak
