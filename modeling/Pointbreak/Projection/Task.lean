import Pointbreak.Event.Subject
import Pointbreak.Projection.Cosignature
import Pointbreak.Signing.Principal

/-!
# Projection.Task

The task projection: what an agent may do about a task attempt. An attempt is proposed, checkpoints
are captured under it, and input requests hold it up until they are answered by someone whose answer
binds. `agentResumptionWithPrincipalPolicy` says whether the agent may resume.
-/

namespace Pointbreak

open Std KeyedLog

structure TaskProjectionEventEnvelope where
  eventId : EventId
  eventType : EventType
  occurredAt : Text
  payloadHash : Text
  writer : Writer
  assertionMode : AssertionMode
  sourceRef : Option SourceRef
  target : EventTarget
deriving DecidableEq

def TaskProjectionEventEnvelope.fromEvent {V : Type} (event : StoredEvent V) :
    TaskProjectionEventEnvelope where
  eventId := event.eventId
  eventType := event.eventType
  occurredAt := event.occurredAt
  payloadHash := event.payloadHash
  writer := event.writer
  assertionMode := event.assertionMode
  sourceRef := event.sourceRef
  target := event.target

/-- By time of occurrence, then by event id. -/
def envelopeChronologicalOrder (left right : TaskProjectionEventEnvelope) : Ordering :=
  (compare left.occurredAt right.occurredAt).then (compare left.eventId.asStr right.eventId.asStr)

structure TaskCheckpointSummary where
  envelope : TaskProjectionEventEnvelope
  checkpointId : CheckpointId
  assistantMessageId : Text
  toolUseIds : List Text
  checkpointFingerprint : Option Text
deriving DecidableEq

structure TaskProjectionDiagnostic where
  code : Text
  message : Text
  eventId : Option EventId
  reason : Option Text := none

structure TaskAttemptSummary where
  readerActorId : ActorId
  taskAttemptId : WorkObjectId
  attemptEvent : TaskProjectionEventEnvelope
  latestCheckpoint : Option TaskCheckpointSummary
  checkpoints : List TaskCheckpointSummary

/-- What an event says about one attempt. -/
inductive TaskAttemptFact where
  | attempt (envelope : TaskProjectionEventEnvelope)
  | checkpoint (envelope : TaskProjectionEventEnvelope) (payload : TaskCheckpointCapturedPayload)

structure TaskAttemptFold where
  attempt : Option TaskProjectionEventEnvelope := none
  checkpoints : BTreeMap CheckpointId TaskCheckpointSummary := ∅

def taskCheckpointSummary (envelope : TaskProjectionEventEnvelope)
    (payload : TaskCheckpointCapturedPayload) : TaskCheckpointSummary where
  envelope := envelope
  checkpointId := payload.checkpointId
  assistantMessageId := payload.assistantMessageId
  toolUseIds := payload.toolUseIds
  checkpointFingerprint := payload.checkpointFingerprint

/-- The last carrier of a checkpoint stays. -/
def TaskAttemptFold.put (fold : TaskAttemptFold) : Option TaskAttemptFact → TaskAttemptFold
  | none => fold
  | some (.attempt envelope) => { fold with attempt := some envelope }
  | some (.checkpoint envelope payload) =>
    let summary := taskCheckpointSummary envelope payload
    { fold with checkpoints := fold.checkpoints.insert payload.checkpointId summary }

def checkpointLE (left right : TaskCheckpointSummary) : Prop :=
  (envelopeChronologicalOrder left.envelope right.envelope).isLE = true

instance : DecidableRel checkpointLE := fun _ _ => inferInstanceAs (Decidable (_ = true))

def latestOf (checkpoints : List TaskCheckpointSummary) : Option TaskCheckpointSummary :=
  checkpoints.foldl (fun latest checkpoint =>
    match latest with
    | none => some checkpoint
    | some latest =>
      if envelopeChronologicalOrder latest.envelope checkpoint.envelope = .gt then some latest
      else some checkpoint) none

/-! ## Requests and responses -/

structure TaskInputRequestView where
  inputRequestId : InputRequestId
  envelope : TaskProjectionEventEnvelope
  target : TargetRef
  payloadReviewTarget : ReviewTargetRef
  mode : AssertionMode
  reasonCode : InputRequestReasonCode
  title : Text
  body : Option Text
  bodyArtifactPath : Option Text
  bodyByteSize : Option Nat
  bodyContentHash : Option Text
  targetFingerprint : Option Text
deriving DecidableEq

structure TaskInputRequestResponseRecord where
  envelope : TaskProjectionEventEnvelope
  responseId : InputRequestResponseId
  outcome : InputRequestResponseOutcome
  reason : Option Text
  reasonArtifactPath : Option Text
  reasonByteSize : Option Nat
  reasonContentHash : Option Text
  targetFingerprint : Option Text
  cosignatures : CosignatureSet
  inlineStatus : EventVerificationStatus
  ingested : Bool

structure TaskInputRequestRecord where
  view : TaskInputRequestView
  responses : List TaskInputRequestResponseRecord

inductive AgentResumptionState where
  | noAttempt | ready | blocked | ambiguous | stale
deriving DecidableEq

inductive FreshnessBasis where
  | taskAttemptNoFingerprintCheck | checkpointMatchesLatest | checkpointStaleNewerExists
  | checkpointWithoutAttemptCheckpoint | checkpointFingerprintMismatch | checkpointFingerprintMatches

namespace FreshnessBasis

def isFresh : FreshnessBasis → Bool
  | .taskAttemptNoFingerprintCheck | .checkpointMatchesLatest | .checkpointFingerprintMatches => true
  | _ => false

def isStale : FreshnessBasis → Bool
  | .checkpointStaleNewerExists | .checkpointWithoutAttemptCheckpoint
  | .checkpointFingerprintMismatch => true
  | _ => false

end FreshnessBasis

/-- Fingerprints on both sides decide; otherwise the target does. -/
def freshnessForTaskTarget (view : TaskInputRequestView) (latestCheckpoint : Option CheckpointId)
    (latestCheckpointFingerprint responseFingerprint : Option Text) : FreshnessBasis :=
  match latestCheckpointFingerprint, responseFingerprint with
  | some latest, some response =>
    if latest = response then .checkpointFingerprintMatches else .checkpointFingerprintMismatch
  | _, _ =>
    match view.target with
    | .task (.taskAttempt _) => .taskAttemptNoFingerprintCheck
    | .task (.checkpoint checkpointId) =>
      match latestCheckpoint with
      | some latest =>
        if latest = checkpointId then .checkpointMatchesLatest else .checkpointStaleNewerExists
      | none => .checkpointWithoutAttemptCheckpoint
    | .review _ | .journal => .taskAttemptNoFingerprintCheck

inductive ResumptionBindingPolicy where
  | localAndVerified | verifiedOnly

def ResumptionBindingPolicy.permitsLocalPossession : ResumptionBindingPolicy → Bool
  | .localAndVerified => true
  | .verifiedOnly => false

/-- A valid member of the co-signature set binds; so does local possession, unless the event's own
signature is invalid. -/
def responseIdentityIsBinding (cosignatures : CosignatureSet) (inlineStatus : EventVerificationStatus)
    (ingested : Bool) (policy : ResumptionBindingPolicy) : Bool :=
  if cosignatures.hasValidMember then true
  else policy.permitsLocalPossession && !ingested && inlineStatus != .invalid

def nonBindingReason (cosignatures : CosignatureSet) (inlineStatus : EventVerificationStatus)
    (ingested : Bool) : Text :=
  if inlineStatus = .invalid then text "signature_invalid"
  else if cosignatures.hasUntrustedMember then text "signer_not_authorized"
  else if ingested then text "ingested_unsigned"
  else text "policy_excludes_local"

def nonBindingMessage (reason : Text) : Text :=
  if reason = text "signature_invalid" then
    text "response signature is invalid; tampering or corruption — never binds"
  else if reason = text "signer_not_authorized" then
    text "response signature verifies but the allowed-signers trust set does not authorize this signer for the claimed actor"
  else if reason = text "ingested_unsigned" then
    text "response was ingested without a signature; the responder must sign for this response to bind"
  else text "local unsigned response under verified-only; the store's policy requires a key to bind"

def InputRequestResponseOutcome.debug : InputRequestResponseOutcome → Text
  | .approved => text "Approved"
  | .rejected => text "Rejected"
  | .dismissed => text "Dismissed"
  | .superseded => text "Superseded"
  | .abandoned => text "Abandoned"

def principalBlockReason (writerActor : ActorId) (occurredAt : Text)
    (delegationMap : Option DelegationMap) : Option Text :=
  match delegationMap with
  | none =>
    if isAgentActorId writerActor.asStr then some (text "principal_unresolvable") else none
  | some map =>
    match principalResolutionForWriter writerActor map occurredAt with
    | none | some (.resolved _) => none
    | some (.none _) => some (text "principal_unresolvable")
    | some (.ambiguous _) => some (text "principal_ambiguous")

def principalBlockMessage (reason : Text) : Text :=
  if reason = text "principal_ambiguous" then
    text "the responder's agent identity resolves to more than one principal; the delegation map must disambiguate before this response binds"
  else
    text "the responder's agent identity does not resolve to a responsible principal at the response time; require-resolvable-principal will not let it bind"

structure AgentInputRequestResponsePolicyView where
  envelope : TaskProjectionEventEnvelope
  responseId : InputRequestResponseId
  outcome : InputRequestResponseOutcome
  identityTreatedAsBinding : Bool
  freshForTarget : Bool
  operativeReason : Option Text
  reason : Option Text
  reasonArtifactPath : Option Text
  reasonByteSize : Option Nat
  reasonContentHash : Option Text
  targetFingerprint : Option Text

structure AgentResumptionProjection where
  readerActorId : ActorId
  taskAttemptId : WorkObjectId
  mayResume : Bool
  state : AgentResumptionState
  latestCheckpoint : Option CheckpointId
  selectedInputRequest : Option TaskInputRequestView
  selectedResponse : Option AgentInputRequestResponsePolicyView
  treatedAsOperative : Bool
  freshness : Option FreshnessBasis
  diagnostics : List TaskProjectionDiagnostic

/-- A fact that the request pass keeps. -/
inductive TaskInputFact where
  | request (view : TaskInputRequestView)
  | response (inputRequestId : InputRequestId) (record : TaskInputRequestResponseRecord)

structure TaskInputFold where
  requestViews : List TaskInputRequestView := []
  responseRepresentatives :
    BTreeMap InputRequestResponseId (InputRequestId × TaskInputRequestResponseRecord) := ∅

/-- The record of the lowest event id stands for a response; the request it belongs to is the one that
was named first. -/
def representResponse (inputRequestId : InputRequestId) (record : TaskInputRequestResponseRecord) :
    Option (InputRequestId × TaskInputRequestResponseRecord) →
      InputRequestId × TaskInputRequestResponseRecord
  | none => (inputRequestId, record)
  | some (owner, existing) =>
    if compare record.envelope.eventId.asStr existing.envelope.eventId.asStr = .lt then
      (owner, record)
    else (owner, existing)

def TaskInputFold.put (fold : TaskInputFold) : Option TaskInputFact → TaskInputFold
  | none => fold
  | some (.request view) => { fold with requestViews := fold.requestViews ++ [view] }
  | some (.response inputRequestId record) =>
    let represent := fun existing => some (representResponse inputRequestId record existing)
    { fold with
      responseRepresentatives := fold.responseRepresentatives.alter record.responseId represent }

/-- The responses of each request, in the order of their ids. -/
def responsesByInputRequest
    (representatives : List (InputRequestId × TaskInputRequestResponseRecord)) :
    BTreeMap InputRequestId (List TaskInputRequestResponseRecord) :=
  representatives.foldl (fun groups representative =>
    groups.alter representative.1 fun group => some (group.getD [] ++ [representative.2])) ∅

/-- The responses of a request go to the first view of it. -/
def assignResponses (groups : BTreeMap InputRequestId (List TaskInputRequestResponseRecord)) :
    List TaskInputRequestView → List TaskInputRequestRecord
  | [] => []
  | view :: views =>
    { view, responses := groups[view.inputRequestId]?.getD [] } ::
      assignResponses (groups.erase view.inputRequestId) views

section Events

variable {V B : Type} (rt : StoreRuntime V B)

def readTaskAttemptEvent (taskAttemptId : WorkObjectId) (event : StoredEvent V) :
    Result (Option TaskAttemptFact) := do
  event.validateSchemaVersion
  let envelope := TaskProjectionEventEnvelope.fromEvent event
  match event.eventType with
  | .workObjectProposed => do
    let payload ← fromValue rt.workObjectProposed event.payload
    match payload.workObject with
    | .taskAttempt id => .ok (if id = taskAttemptId then some (.attempt envelope) else none)
    | .revision .. => .ok none
  | .taskCheckpointCaptured => do
    let payload ← fromValue rt.taskCheckpointCaptured event.payload
    .ok (if payload.parentTaskAttemptId = taskAttemptId then some (.checkpoint envelope payload)
      else none)
  | .taskObservationRecorded => do
    let _ ← fromValue rt.taskObservationRecorded event.payload
    .ok none
  | _ => .ok none

def taskAttemptSummaryFromEvents (events : List (StoredEvent V)) (taskAttemptId : WorkObjectId)
    (readerActorId : ActorId) : Result (Option TaskAttemptSummary) := do
  let fold ← events.foldlM (fun (fold : TaskAttemptFold) event =>
    (readTaskAttemptEvent rt taskAttemptId event).map fold.put) {}
  match fold.attempt with
  | none => .ok none
  | some attemptEvent =>
    let checkpoints := fold.checkpoints.vals.insertionSort checkpointLE
    .ok (some { readerActorId, taskAttemptId, attemptEvent,
                latestCheckpoint := latestOf checkpoints, checkpoints })

/-- Any task subject is admitted: the attempt id does not narrow. -/
def eventTargetsTaskAttempt (event : StoredEvent V) (_taskAttemptId : WorkObjectId) :
    Result Bool := do
  let subject ← reconstructSubject rt.toRuntime event.toShoreEvent
  match subject with
  | .task _ => .ok true
  | _ => .ok false

def taskInputRequestView (event : StoredEvent V) (subject : TargetRef)
    (payload : InputRequestOpenedPayload) : TaskInputRequestView where
  inputRequestId := payload.inputRequestId
  envelope := .fromEvent event
  target := subject
  payloadReviewTarget := payload.target
  mode := event.assertionMode
  reasonCode := payload.reasonCode
  title := payload.title
  body := payload.body
  bodyArtifactPath := payload.bodyArtifactPath
  bodyByteSize := payload.bodyByteSize
  bodyContentHash := payload.bodyContentHash
  targetFingerprint := payload.targetFingerprint

/-- The view of a request on a task subject. -/
def readTaskInputRequest (taskAttemptId : WorkObjectId) (event : StoredEvent V) :
    Result (Option TaskInputRequestView) := do
  if ← eventTargetsTaskAttempt rt event taskAttemptId then do
    let subject ← reconstructSubject rt.toRuntime event.toShoreEvent
    let payload ← decodeInputRequestOpenedPayload rt.toRuntime event.payload
    .ok (some (taskInputRequestView event subject payload))
  else .ok none

structure ResponseBindingEvidence where
  cosignatures : CosignatureSet
  inlineStatus : EventVerificationStatus
  ingested : Bool

def responseBindingEvidence (events : List (StoredEvent V)) (event : StoredEvent V)
    (trustSet : TrustSet) : Result ResponseBindingEvidence := do
  let cosignatures ← cosignaturesForEvent rt events event.eventId.asStr trustSet
  .ok
    { cosignatures,
      inlineStatus := cosignatures.inlineStatus.getD
        (if event.signature.isSome then .invalid else .unsigned),
      ingested := event.ingest.isSome }

def readTaskResponse (events : List (StoredEvent V)) (trustSet : TrustSet) (event : StoredEvent V) :
    Result (InputRequestId × TaskInputRequestResponseRecord) := do
  let payload ← fromValue rt.inputRequestResponded event.payload
  let evidence ← responseBindingEvidence rt events event trustSet
  .ok (payload.inputRequestId,
    { envelope := .fromEvent event, responseId := payload.inputRequestResponseId,
      outcome := payload.outcome, reason := payload.reason,
      reasonArtifactPath := payload.reasonArtifactPath, reasonByteSize := payload.reasonByteSize,
      reasonContentHash := payload.reasonContentHash,
      targetFingerprint := payload.targetFingerprint, cosignatures := evidence.cosignatures,
      inlineStatus := evidence.inlineStatus, ingested := evidence.ingested })

def readTaskInputEvent (events : List (StoredEvent V)) (taskAttemptId : WorkObjectId)
    (trustSet : TrustSet) (event : StoredEvent V) : Result (Option TaskInputFact) := do
  event.validateSchemaVersion
  match event.eventType with
  | .inputRequestOpened => do
    let view ← readTaskInputRequest rt taskAttemptId event
    .ok (view.map .request)
  | .inputRequestResponded => do
    let (inputRequestId, record) ← readTaskResponse rt events trustSet event
    .ok (some (.response inputRequestId record))
  | _ => .ok none

def collectTaskInputRequestRecords (events : List (StoredEvent V)) (taskAttemptId : WorkObjectId)
    (trustSet : TrustSet) : Result (List TaskInputRequestRecord) := do
  let fold ← events.foldlM (fun (fold : TaskInputFold) event =>
    (readTaskInputEvent rt events taskAttemptId trustSet event).map fold.put) {}
  .ok (assignResponses (responsesByInputRequest fold.responseRepresentatives.vals)
    fold.requestViews)

structure TaskInputRequestsProjection where
  readerActorId : ActorId
  taskAttemptId : WorkObjectId
  openInputRequests : List TaskInputRequestView
  diagnostics : List TaskProjectionDiagnostic

structure OpenRequestFold where
  requests : List TaskInputRequestView := []
  responded : BTreeSet InputRequestId := ∅

def OpenRequestFold.put (fold : OpenRequestFold) :
    Option (TaskInputRequestView ⊕ InputRequestId) → OpenRequestFold
  | none => fold
  | some (.inl view) => { fold with requests := fold.requests ++ [view] }
  | some (.inr inputRequestId) => { fold with responded := fold.responded.insert inputRequestId }

def readOpenRequestEvent (taskAttemptId : WorkObjectId) (event : StoredEvent V) :
    Result (Option (TaskInputRequestView ⊕ InputRequestId)) := do
  event.validateSchemaVersion
  match event.eventType with
  | .inputRequestOpened => do
    let view ← readTaskInputRequest rt taskAttemptId event
    .ok (view.map .inl)
  | .inputRequestResponded => do
    let payload ← fromValue rt.inputRequestResponded event.payload
    .ok (some (.inr payload.inputRequestId))
  | _ => .ok none

def requestViewLE (left right : TaskInputRequestView) : Prop :=
  (envelopeChronologicalOrder left.envelope right.envelope).isLE = true

instance : DecidableRel requestViewLE := fun _ _ => inferInstanceAs (Decidable (_ = true))

def reviewShapedDiagnostic (view : TaskInputRequestView) : TaskProjectionDiagnostic where
  code := text "task_input_request_payload_target_is_review_shaped"
  message := text "input request " ++ view.inputRequestId.asStr ++
    text " targets a TaskAttempt via the envelope but its payload \x60target\x60 is still a ReviewTargetRef"
  eventId := some view.envelope.eventId

def openTaskInputRequestsFromEvents (events : List (StoredEvent V)) (taskAttemptId : WorkObjectId)
    (readerActorId : ActorId) : Result TaskInputRequestsProjection := do
  let fold ← events.foldlM (fun (fold : OpenRequestFold) event =>
    (readOpenRequestEvent rt taskAttemptId event).map fold.put) {}
  let unanswered := fold.requests.filter fun view => view.inputRequestId ∉ fold.responded
  .ok { readerActorId, taskAttemptId, openInputRequests := unanswered.insertionSort requestViewLE,
        diagnostics := unanswered.map reviewShapedDiagnostic }

end Events

/-! ## Resumption -/

structure ResumptionReader where
  readerActorId : ActorId
  trustSet : TrustSet
  bindingPolicy : ResumptionBindingPolicy
  delegationMap : Option DelegationMap
  principalPolicy : PrincipalPolicy

namespace ResumptionReader

variable (reader : ResumptionReader) (response : TaskInputRequestResponseRecord)

def identityBinding : Bool :=
  responseIdentityIsBinding response.cosignatures response.inlineStatus response.ingested
    reader.bindingPolicy

def principalOk : Bool :=
  principalSufficient response.envelope.writer.actorId response.envelope.occurredAt
    reader.delegationMap reader.principalPolicy

def blockReason : Option Text :=
  principalBlockReason response.envelope.writer.actorId response.envelope.occurredAt
    reader.delegationMap

/-- Bound, operative and approved. -/
def permits : Bool :=
  reader.identityBinding response && reader.principalOk response &&
    response.envelope.assertionMode = .operative && response.outcome = .approved

def responsePolicyView (freshness : FreshnessBasis) : AgentInputRequestResponsePolicyView where
  envelope := response.envelope
  responseId := response.responseId
  outcome := response.outcome
  identityTreatedAsBinding := reader.identityBinding response
  freshForTarget := freshness.isFresh
  operativeReason :=
    if reader.permits response then
      some (text "approved by a verified binding identity with envelope-level operative assertion mode")
    else none
  reason := response.reason
  reasonArtifactPath := response.reasonArtifactPath
  reasonByteSize := response.reasonByteSize
  reasonContentHash := response.reasonContentHash
  targetFingerprint := response.targetFingerprint

/-- Under `prefer` an unresolved principal is reported and changes nothing. -/
def principalAdvisory : List TaskProjectionDiagnostic :=
  if reader.principalPolicy = .prefer then
    match reader.blockReason response with
    | some reason =>
      [{ code := text "agent_resumption_response_principal_advisory",
         message := principalBlockMessage reason, eventId := some response.envelope.eventId,
         reason := some reason }]
    | none => []
  else []

/-- Why a response does not permit resumption. The identity's reason comes before the principal's. -/
def blockDiagnostics : List TaskProjectionDiagnostic :=
  (if response.outcome = .approved then [] else
    [{ code := text "agent_resumption_outcome_not_approved",
       message := text "response outcome is " ++ response.outcome.debug ++
         text "; only Approved permits resumption",
       eventId := some response.envelope.eventId }]) ++
  (if response.envelope.assertionMode = .operative then [] else
    [{ code := text "agent_resumption_response_assertion_mode_not_operative",
       message := text "response envelope assertion_mode is not Operative; advisory responses do not bind",
       eventId := some response.envelope.eventId }]) ++
  (if !reader.identityBinding response then
    let reason := nonBindingReason response.cosignatures response.inlineStatus response.ingested
    [{ code := text "agent_resumption_response_identity_not_binding",
       message := nonBindingMessage reason, eventId := some response.envelope.eventId,
       reason := some reason }]
  else if !reader.principalOk response then
    let reason := (reader.blockReason response).getD (text "principal_unresolvable")
    [{ code := text "agent_resumption_response_principal_not_sufficient",
       message := principalBlockMessage reason, eventId := some response.envelope.eventId,
       reason := some reason }]
  else [])

end ResumptionReader

def staleDiagnostic (view : TaskInputRequestView) (response : TaskInputRequestResponseRecord)
    (freshness : FreshnessBasis) : TaskProjectionDiagnostic :=
  match freshness with
  | .checkpointFingerprintMismatch =>
    { code := text "agent_resumption_response_target_fingerprint_mismatch",
      message := text "task input request " ++ view.inputRequestId.asStr ++
        text " was responded to against a code state whose fingerprint disagrees with the latest checkpoint on this attempt",
      eventId := some response.envelope.eventId }
  | _ =>
    { code := text "agent_resumption_response_targets_stale_checkpoint",
      message := text "task input request " ++ view.inputRequestId.asStr ++
        text " was responded to against an older checkpoint than the latest checkpoint on this attempt",
      eventId := some response.envelope.eventId }

structure SatisfiedRequest where
  view : TaskInputRequestView
  response : AgentInputRequestResponsePolicyView
  freshness : FreshnessBasis

/-- The most recent response stays; of equally recent ones the first. -/
def keepMostRecent (satisfied : SatisfiedRequest) : Option SatisfiedRequest → SatisfiedRequest
  | none => satisfied
  | some previous =>
    if (envelopeChronologicalOrder previous.response.envelope satisfied.response.envelope).isGE then
      previous
    else satisfied

structure AttemptState where
  taskAttemptId : WorkObjectId
  latestCheckpoint : Option CheckpointId
  latestCheckpointFingerprint : Option Text

section Resume

variable (reader : ResumptionReader) (attempt : AttemptState)

def heldProjection (state : AgentResumptionState) (view : TaskInputRequestView)
    (response : Option (AgentInputRequestResponsePolicyView × FreshnessBasis))
    (diagnostics : List TaskProjectionDiagnostic) : AgentResumptionProjection where
  readerActorId := reader.readerActorId
  taskAttemptId := attempt.taskAttemptId
  mayResume := false
  state := state
  latestCheckpoint := attempt.latestCheckpoint
  selectedInputRequest := some view
  selectedResponse := response.map Prod.fst
  treatedAsOperative := false
  freshness := response.map Prod.snd
  diagnostics := diagnostics

def readyProjection (lastSatisfied : Option SatisfiedRequest)
    (principalAdvisories : List TaskProjectionDiagnostic) : AgentResumptionProjection where
  readerActorId := reader.readerActorId
  taskAttemptId := attempt.taskAttemptId
  mayResume := true
  state := .ready
  latestCheckpoint := attempt.latestCheckpoint
  selectedInputRequest := lastSatisfied.map (·.view)
  selectedResponse := lastSatisfied.map (·.response)
  treatedAsOperative := lastSatisfied.isSome
  freshness := lastSatisfied.map (·.freshness)
  diagnostics := principalAdvisories

def AttemptState.freshness (view : TaskInputRequestView)
    (response : TaskInputRequestResponseRecord) : FreshnessBasis :=
  freshnessForTaskTarget view attempt.latestCheckpoint attempt.latestCheckpointFingerprint
    response.targetFingerprint

/-- The answered requests one after the other; the first that fails decides. -/
def evaluateAnswered (lastSatisfied : Option SatisfiedRequest)
    (principalAdvisories : List TaskProjectionDiagnostic) :
    List TaskInputRequestRecord → AgentResumptionProjection
  | [] => readyProjection reader attempt lastSatisfied principalAdvisories
  | record :: records =>
    match record.responses with
    -- not reached: an open request was returned before
    | [] => evaluateAnswered lastSatisfied principalAdvisories records
    | response :: _ =>
      let freshness := attempt.freshness record.view response
      let responseView := reader.responsePolicyView response freshness
      if freshness.isStale then
        heldProjection reader attempt .stale record.view (some (responseView, freshness))
          [staleDiagnostic record.view response freshness]
      else if !reader.permits response then
        heldProjection reader attempt .blocked record.view (some (responseView, freshness))
          (reader.blockDiagnostics response)
      else
        evaluateAnswered
          (some (keepMostRecent ⟨record.view, responseView, freshness⟩ lastSatisfied))
          (principalAdvisories ++ reader.principalAdvisory response) records

/-- Of equally early records the first. -/
def earliestRecord (records : List TaskInputRequestRecord) : Option TaskInputRequestRecord :=
  records.foldl (fun earliest record =>
    match earliest with
    | none => some record
    | some earliest =>
      if envelopeChronologicalOrder earliest.view.envelope record.view.envelope = .gt then
        some record
      else some earliest) none

/-- What the operative requests say: an open one blocks, then one with several responses, then the
first whose response fails. -/
def resumptionOver (records : List TaskInputRequestRecord) : AgentResumptionProjection :=
  match earliestRecord (records.filter fun record => record.responses.isEmpty) with
  | some openRecord =>
    heldProjection reader attempt .blocked openRecord.view none
      [{ code := text "agent_resumption_open_task_input_request",
         message := text "task input request " ++ openRecord.view.inputRequestId.asStr ++
           text " is unresponded",
         eventId := some openRecord.view.envelope.eventId }]
  | none =>
    match records.find? fun record => 1 < record.responses.length with
    | some ambiguous =>
      heldProjection reader attempt .ambiguous ambiguous.view none
        [{ code := text "agent_resumption_ambiguous_input_request_responses",
           message := text "task input request " ++ ambiguous.view.inputRequestId.asStr ++
             text " has " ++ text (Nat.repr ambiguous.responses.length) ++
             text " representative responses; projection refuses to pick a winner",
           eventId := some ambiguous.view.envelope.eventId }]
    | none => evaluateAnswered reader attempt none [] records

end Resume

def noAttemptProjection (reader : ResumptionReader) (taskAttemptId : WorkObjectId) :
    AgentResumptionProjection where
  readerActorId := reader.readerActorId
  taskAttemptId := taskAttemptId
  mayResume := false
  state := .noAttempt
  latestCheckpoint := none
  selectedInputRequest := none
  selectedResponse := none
  treatedAsOperative := false
  freshness := none
  diagnostics :=
    [{ code := text "agent_resumption_no_task_attempt",
       message := text "no captured task attempt for " ++ taskAttemptId.asStr ++
         text " — failing closed",
       eventId := none }]

def TaskAttemptSummary.attemptState (summary : TaskAttemptSummary) : AttemptState where
  taskAttemptId := summary.taskAttemptId
  latestCheckpoint := summary.latestCheckpoint.map (·.checkpointId)
  latestCheckpointFingerprint := summary.latestCheckpoint.bind (·.checkpointFingerprint)

def agentResumptionWithPrincipalPolicy {V B : Type} (rt : StoreRuntime V B)
    (events : List (StoredEvent V)) (taskAttemptId : WorkObjectId) (reader : ResumptionReader) :
    Result AgentResumptionProjection := do
  let attemptSummary ← taskAttemptSummaryFromEvents rt events taskAttemptId reader.readerActorId
  match attemptSummary with
  | none => .ok (noAttemptProjection reader taskAttemptId)
  | some summary => do
    let records ← collectTaskInputRequestRecords rt events taskAttemptId reader.trustSet
    .ok (resumptionOver reader summary.attemptState
      (records.filter fun record => record.view.mode = .operative))

end Pointbreak
