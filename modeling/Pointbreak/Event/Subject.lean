import Pointbreak.Event.Envelope

/-!
# Event.Subject

What an event is about. The signed envelope binds an opaque subject id only, so the subject is read
off the payload: every family carries its own.
-/

namespace Pointbreak

inductive TargetRef where
  | journal
  | review (target : ReviewTargetRef)
  | task (target : TaskTargetRef)
deriving DecidableEq

def TargetRef.subjectRevisionId : TargetRef → Option RevisionId
  | .review target => some target.revisionOf
  | .task _ | .journal => none

section Subject

variable {V : Type} (rt : Runtime V) (event : ShoreEvent V)

def reconstructSubject : Result TargetRef :=
  match event.eventType with
  | .reviewInitialized | .reviewNoteImported | .eventSignatureRecorded | .artifactRemoved
  | .changeDeclared | .changeMembershipAsserted | .changeMembershipWithdrawn | .changeLinkAsserted
  | .changeRevisionRelationAsserted | .changeRevisionRelationWithdrawn => .ok .journal
  | .revisionRelationAttested => do
    let payload ← fromValue rt.revisionRelationAttested event.payload
    .ok (.review (.revision payload.revision.revisionId))
  | .reviewFactPorted => do
    let payload ← fromValue rt.reviewFactPorted event.payload
    let revisionId := payload.originRevision.revisionId
    .ok (.review (match payload.originFact with
      | .observation observationId => .observation revisionId observationId
      | .inputRequest inputRequestId => .inputRequest revisionId inputRequestId))
  | .workObjectProposed => do
    let payload ← fromValue rt.workObjectProposed event.payload
    match payload.workObject with
    | .revision revision _ _ => .ok (.review (.revision revision.id))
    | .taskAttempt taskAttemptId => .ok (.task (.taskAttempt taskAttemptId))
  | .reviewObservationRecorded => do
    let payload ← fromValue rt.reviewObservationRecorded event.payload
    .ok (.review payload.target)
  | .reviewAssessmentRecorded => do
    let payload ← fromValue rt.reviewAssessmentRecorded event.payload
    .ok (.review payload.target)
  | .revisionRefAssociated => do
    let payload ← fromValue rt.revisionRefAssociated event.payload
    .ok (.review payload.target)
  | .revisionRefWithdrawn => do
    let payload ← fromValue rt.revisionRefWithdrawn event.payload
    .ok (.review payload.target)
  | .revisionCommitAssociated => do
    let payload ← fromValue rt.revisionCommitAssociated event.payload
    .ok (.review payload.target)
  | .revisionCommitWithdrawn => do
    let payload ← fromValue rt.revisionCommitWithdrawn event.payload
    .ok (.review payload.target)
  | .inputRequestOpened => do
    let payload ← decodeInputRequestOpenedPayload rt event.payload
    match payload.taskTarget with
    | some taskTarget => .ok (.task taskTarget)
    | none => .ok (.review payload.target)
  | .inputRequestResponded => do
    let payload ← fromValue rt.inputRequestResponded event.payload
    match payload.revisionId, payload.taskTarget with
    | some revisionId, _ => .ok (.review (.inputRequest revisionId payload.inputRequestId))
    | none, some taskTarget => .ok (.task taskTarget)
    | none, none => .error (.invalidEvent (text
        "input_request_responded payload carries neither a revision_id (review) nor a task_target (task)"))
  | .validationCheckRecorded => do
    let payload ← fromValue rt.validationCheckRecorded event.payload
    match payload.target with
    | .revision revisionId => .ok (.review (.revision revisionId))
  | .taskCheckpointCaptured => do
    let payload ← fromValue rt.taskCheckpointCaptured event.payload
    .ok (.task (.checkpoint payload.checkpointId))
  | .taskObservationRecorded => do
    let payload ← fromValue rt.taskObservationRecorded event.payload
    match payload.checkpointId with
    | some checkpointId => .ok (.task (.checkpoint checkpointId))
    | none => .error (.invalidEvent (text
        "task observation without a checkpoint cannot reconstruct its subject (attempt-level task observations are unsupported)"))

def ShoreEvent.subjectRevisionId : Result (Option RevisionId) := do
  let subject ← reconstructSubject rt event
  .ok subject.subjectRevisionId

variable {rt event}

end Subject

end Pointbreak
