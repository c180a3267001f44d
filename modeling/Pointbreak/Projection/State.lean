import Pointbreak.Event.Envelope

/-!
# Projection.State

The session state: a bounded summary of the whole log. The reducer keeps, for each family, which
events carry which semantic id, and of the carriers of one id the value of the one with the lowest
event id; an id with several carriers is reported.
-/

namespace Pointbreak

open Std

structure ProjectionDiagnostic where
  code : Text
  message : Text

def STATE_SCHEMA : Text := text "shore.state"

def STATE_VERSION : Nat := 1

def DUPLICATE_SEMANTIC_OBSERVATION_EVENT_CODE : Text := text "duplicate_semantic_observation_event"

def DUPLICATE_SEMANTIC_INPUT_REQUEST_OPEN_EVENT_CODE : Text :=
  text "duplicate_semantic_input_request_open_event"

def DUPLICATE_SEMANTIC_INPUT_REQUEST_RESPONSE_EVENT_CODE : Text :=
  text "duplicate_semantic_input_request_response_event"

def DUPLICATE_SEMANTIC_ASSESSMENT_EVENT_CODE : Text := text "duplicate_semantic_assessment_event"

def DUPLICATE_SEMANTIC_VALIDATION_EVENT_CODE : Text := text "duplicate_semantic_validation_event"

def DUPLICATE_SEMANTIC_DIAGNOSTIC_EVENT_LIMIT : Nat := 5

structure SessionState where
  schema : Text
  version : Nat
  journalId : JournalId
  currentRevisionId : Option RevisionId
  currentObjectId : Option ObjectId
  revisionCount : Nat
  eventCount : Nat
  eventSetHash : Option Text
  noteCount : Nat
  observationCount : Nat
  assessmentCount : Nat
  validationCheckCount : Nat
  inputRequestCount : Nat
  openInputRequestCount : Nat
  openOperativeInputRequestCount : Nat
  diagnostics : List ProjectionDiagnostic

def eventSetEntryLE (a b : Text × Text) : Prop :=
  ((compare a.1 b.1).then (compare a.2 b.2)).isLE = true

instance : DecidableRel eventSetEntryLE := fun _ _ => inferInstanceAs (Decidable (_ = true))

/-- The hash of a set of events, given by their ids and payload hashes. -/
def eventSetHash (sha : Sha256) (entries : List (Text × Text)) : Text :=
  sha256JsonPrefixed sha (.obj
    [(text "schema", .str (text "shore.event-set.v1")),
      (text "events", .arr ((entries.insertionSort eventSetEntryLE).map fun entry =>
        .obj [(text "eventId", .str entry.1), (text "payloadHash", .str entry.2)]))])

def eventSetHashForEvents {V : Type} (sha : Sha256) (events : List (ShoreEvent V)) : Text :=
  eventSetHash sha (events.map fun event => (event.eventId.asStr, event.payloadHash))

/-- A value together with the event it comes from. -/
structure CanonicalValue (ι α : Type) where
  eventId : ι
  value : α

abbrev CanonicalEventValue (α : Type) : Type := CanonicalValue EventId α

/-- The value of the carrier with the lowest event id stays. -/
def retainCanonicalValue {ι κ α : Type} [Ord ι] [Ord κ] [TransOrd κ]
    (representatives : BTreeMap κ (CanonicalValue ι α)) (semanticId : κ) (eventId : ι) (value : α) :
    BTreeMap κ (CanonicalValue ι α) :=
  KeyedLog.insertLeast compare CanonicalValue.eventId representatives semanticId ⟨eventId, value⟩

structure StateReducer where
  journalId : JournalId := ⟨text "journal:default"⟩
  capturedRevisions : BTreeMap RevisionId (CanonicalEventValue ObjectId) := ∅
  observationEvents : BTreeMap ObservationId (BTreeSet EventId) := ∅
  assessmentEvents : BTreeMap AssessmentId (BTreeSet EventId) := ∅
  validationCheckEvents : BTreeMap ValidationCheckId (BTreeSet EventId) := ∅
  inputRequestModes : BTreeMap InputRequestId (CanonicalEventValue AssertionMode) := ∅
  inputRequestOpenEvents : BTreeMap InputRequestId (BTreeSet EventId) := ∅
  inputRequestResponseEvents : BTreeMap InputRequestResponseId (BTreeSet EventId) := ∅
  inputRequestResponseTargets :
    BTreeMap InputRequestResponseId (CanonicalEventValue InputRequestId) := ∅

namespace StateReducer

variable {V : Type} (rt : Runtime V) (s : StateReducer) (event : ShoreEvent V)

def setIdentityFromEventIfDefault : StateReducer :=
  if s.journalId.asStr = text "journal:default" then { s with journalId := event.target.journalId }
  else s

def applyWorkObjectProposed : Result StateReducer := do
  let payload ← fromValue rt.workObjectProposed event.payload
  match payload.workObject with
  | .revision revision _ _ =>
    .ok { s with
      capturedRevisions :=
        retainCanonicalValue s.capturedRevisions revision.id event.eventId revision.objectId }
  | .taskAttempt _ => .ok s

def applyObservationRecorded : Result StateReducer := do
  let payload ← fromValue rt.reviewObservationRecorded event.payload
  .ok { s with observationEvents := s.observationEvents.addTo payload.observationId event.eventId }

def applyAssessmentRecorded : Result StateReducer := do
  let payload ← fromValue rt.reviewAssessmentRecorded event.payload
  .ok { s with assessmentEvents := s.assessmentEvents.addTo payload.assessmentId event.eventId }

def applyValidationCheckRecorded : Result StateReducer := do
  let payload ← fromValue rt.validationCheckRecorded event.payload
  .ok { s with
    validationCheckEvents :=
      s.validationCheckEvents.addTo payload.validationCheckId event.eventId }

def applyInputRequestOpened : Result StateReducer := do
  let payload ← decodeInputRequestOpenedPayload rt event.payload
  .ok { s with
    inputRequestOpenEvents :=
      s.inputRequestOpenEvents.addTo payload.inputRequestId event.eventId
    inputRequestModes :=
      retainCanonicalValue s.inputRequestModes payload.inputRequestId event.eventId
        event.assertionMode }

def applyInputRequestResponded : Result StateReducer := do
  let payload ← fromValue rt.inputRequestResponded event.payload
  .ok { s with
    inputRequestResponseEvents :=
      s.inputRequestResponseEvents.addTo payload.inputRequestResponseId event.eventId
    inputRequestResponseTargets :=
      retainCanonicalValue s.inputRequestResponseTargets payload.inputRequestResponseId
        event.eventId payload.inputRequestId }

/-- What the payload of an event changes. -/
def applyPayload : Result StateReducer :=
  match event.eventType with
  | .workObjectProposed => s.applyWorkObjectProposed rt event
  | .reviewObservationRecorded => s.applyObservationRecorded rt event
  | .reviewAssessmentRecorded => s.applyAssessmentRecorded rt event
  | .inputRequestOpened => s.applyInputRequestOpened rt event
  | .inputRequestResponded => s.applyInputRequestResponded rt event
  | .validationCheckRecorded => s.applyValidationCheckRecorded rt event
  | .reviewInitialized | .reviewNoteImported | .revisionRefAssociated | .revisionRefWithdrawn
  | .revisionCommitAssociated | .revisionCommitWithdrawn | .taskCheckpointCaptured
  | .taskObservationRecorded | .eventSignatureRecorded | .artifactRemoved | .changeDeclared
  | .changeMembershipAsserted | .changeMembershipWithdrawn | .changeLinkAsserted
  | .changeRevisionRelationAsserted | .changeRevisionRelationWithdrawn
  | .revisionRelationAttested | .reviewFactPorted => .ok s

def apply : Result StateReducer := do
  event.validateSchemaVersion
  if event.eventType = .reviewInitialized then
    .ok { s with journalId := event.target.journalId }
  else (s.setIdentityFromEventIfDefault event).applyPayload rt event

end StateReducer

def listedEventIds (limit count : Nat) (eventIds : List Text) : List Text :=
  eventIds.take limit ++ if limit < count then [text "..."] else []

def duplicateMessage (label semanticId : Text) (eventIds : List Text) : Text :=
  text "duplicate " ++ label ++ text " semantic id " ++ semanticId ++ text " appears in events: " ++
    (text ", ").intercalate eventIds

/-- One diagnostic for each id that several events carry. -/
def duplicateSemanticDiagnostics {kind : IdKind} (code label : Text)
    (eventsById : BTreeMap (Ident kind) (BTreeSet EventId)) : List ProjectionDiagnostic :=
  eventsById.toList.filterMap fun (semanticId, eventIds) =>
    if eventIds.size < 2 then none
    else
      let listed := listedEventIds DUPLICATE_SEMANTIC_DIAGNOSTIC_EVENT_LIMIT eventIds.size
        (eventIds.toList.map Ident.asStr)
      some { code, message := duplicateMessage label semanticId.asStr listed }

def StateReducer.finish (s : StateReducer) (eventCount : Nat) (eventSetHash : Text) :
    SessionState :=
  let currentRevision :=
    if s.capturedRevisions.size = 1 then s.capturedRevisions.toList.head? else none
  let responded := BTreeSet.collect (s.inputRequestResponseTargets.vals.map (·.value))
  { schema := STATE_SCHEMA
    version := STATE_VERSION
    journalId := s.journalId
    currentRevisionId := currentRevision.map Prod.fst
    currentObjectId := currentRevision.map (·.2.value)
    revisionCount := s.capturedRevisions.size
    eventCount
    eventSetHash := some eventSetHash
    noteCount := 0
    observationCount := s.observationEvents.size
    assessmentCount := s.assessmentEvents.size
    validationCheckCount := s.validationCheckEvents.size
    inputRequestCount := s.inputRequestModes.size
    openInputRequestCount := (s.inputRequestModes.keys.filter (· ∉ responded)).length
    openOperativeInputRequestCount := (s.inputRequestModes.toList.filter fun (id, mode) =>
      mode.value = .operative && id ∉ responded).length
    diagnostics :=
      duplicateSemanticDiagnostics DUPLICATE_SEMANTIC_OBSERVATION_EVENT_CODE (text "observation")
        s.observationEvents ++
      duplicateSemanticDiagnostics DUPLICATE_SEMANTIC_INPUT_REQUEST_OPEN_EVENT_CODE
        (text "input request") s.inputRequestOpenEvents ++
      duplicateSemanticDiagnostics DUPLICATE_SEMANTIC_INPUT_REQUEST_RESPONSE_EVENT_CODE
        (text "input request response") s.inputRequestResponseEvents ++
      duplicateSemanticDiagnostics DUPLICATE_SEMANTIC_ASSESSMENT_EVENT_CODE (text "assessment")
        s.assessmentEvents ++
      duplicateSemanticDiagnostics DUPLICATE_SEMANTIC_VALIDATION_EVENT_CODE
        (text "validation check") s.validationCheckEvents }

def SessionState.fromEvents {V : Type} (rt : Runtime V) (events : List (ShoreEvent V)) :
    Result SessionState := do
  let reducer ← events.foldlM (StateReducer.apply rt) {}
  .ok (reducer.finish events.length (eventSetHashForEvents rt.sha256 events))

end Pointbreak
