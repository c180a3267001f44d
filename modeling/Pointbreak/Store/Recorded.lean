import Pointbreak.Event.Recorded
import Pointbreak.Store.Capabilities

/-!
# Store.Recorded

A store whose bytes were never serialized: a record is the typed value itself, so that every reader
gives back what was written. Digests are checksums of the same shape as SHA-256 ones, and a
signature is the digest of the key's name with the message.
-/

namespace Pointbreak

/-- A payload that the store's readers look into, or another JSON object. -/
inductive StorePayload where
  | wire (payload : WirePayload)
  | signature (payload : EventSignatureRecordedPayload)
  | other (object : Text)
deriving DecidableEq

inductive StoredRecord where
  | event (event : StoredEvent StorePayload)
  | activation (activation : StoreCapabilityActivationV1)
  | completion (completion : BulkAdoptionCompletionV1)
deriving DecidableEq

namespace StoreRecorded

/-- Sixty-four hexadecimal digits. -/
def checksum : Sha256 := fun bytes =>
  Text.hexOf 64 (bytes.foldl (fun n byte => (n * 257 + byte.toNat + 1) % 2 ^ 256) 0) []

def signatureOf (signer : SignerId) (message : Text) : Text :=
  checksum (signer.asStr ++ text " " ++ message)

def viaWire {P : Type} (decode : Runtime WirePayload → WirePayload → Except Text P) :
    StorePayload → Except Text P
  | .wire payload => decode (WirePayload.runtime checksum) payload
  | _ => .error (text "unexpected payload")

def payloadBytes : StorePayload → Text
  | .wire (.artifactRemoved payload) => text "removed " ++ payload.contentHash
  | .wire payload => payload.eventType.typeCode
  | .signature payload => text "signature " ++ payload.targetEventRecordHash ++ text " " ++
      payload.attestingSigner.asStr ++ text " " ++ payload.attestation.sig
  | .other object => object

/-- A typed payload of the cohort has the schema of its family. -/
def familyOf : StorePayload → Option RecordFamilyReservationV1
  | .wire payload => reservedFamily payload.eventType.typeCode
  | _ => none

def recordText : StoredRecord → Text
  | .event event => event.eventId.asStr ++ event.payloadHash ++
      ((event.signature.map (·.sig)).getD []) ++ ((event.ingest.map (·.receivedAt)).getD [])
  | .activation activation => activation.activationId ++ activation.signature.sig
  | .completion completion => completion.completionId ++ completion.signature.sig

def runtime : CapabilityRuntime StorePayload StoredRecord where
  sha256 := checksum
  hasMode _ := false
  workObjectProposed := viaWire (·.workObjectProposed)
  changeDeclared := viaWire (·.changeDeclared)
  changeMembershipAsserted := viaWire (·.changeMembershipAsserted)
  changeMembershipWithdrawn := viaWire (·.changeMembershipWithdrawn)
  changeRevisionRelationAsserted := viaWire (·.changeRevisionRelationAsserted)
  changeRevisionRelationWithdrawn := viaWire (·.changeRevisionRelationWithdrawn)
  changeLinkAsserted := viaWire (·.changeLinkAsserted)
  reviewAssessmentRecorded := viaWire (·.reviewAssessmentRecorded)
  inputRequestOpened := viaWire (·.inputRequestOpened)
  inputRequestResponded := viaWire (·.inputRequestResponded)
  reviewFactPorted := viaWire (·.reviewFactPorted)
  reviewObservationRecorded := viaWire (·.reviewObservationRecorded)
  revisionRefAssociated := viaWire (·.revisionRefAssociated)
  revisionRefWithdrawn := viaWire (·.revisionRefWithdrawn)
  revisionCommitAssociated := viaWire (·.revisionCommitAssociated)
  revisionCommitWithdrawn := viaWire (·.revisionCommitWithdrawn)
  revisionRelationAttested := viaWire (·.revisionRelationAttested)
  validationCheckRecorded := viaWire (·.validationCheckRecorded)
  artifactRemoved := viaWire (·.artifactRemoved)
  taskCheckpointCaptured := viaWire (·.taskCheckpointCaptured)
  taskObservationRecorded := viaWire (·.taskObservationRecorded)
  bytesSha256 record := checksum (recordText record)
  payloadBytes := payloadBytes
  recordBytes event := event.eventId.asStr ++ event.payloadHash ++ event.occurredAt
  signingBytes tbs := tbs.eventId.asStr ++ tbs.payloadHash ++ tbs.signer.asStr
  payloadSchema payload := (familyOf payload).map (·.payloadSchema)
  payloadVersion payload := (familyOf payload).map (·.payloadVersion)
  isDidKey value := (text "did:key:").isPrefixOf value
  verifyStrict signer message sig := sig = signatureOf signer message
  eventSignatureRecorded
    | .signature payload => .ok payload
    | _ => .error (text "not an event signature")
  eventSignatureValue := .signature
  artifactRemovedValue payload := .wire (.artifactRemoved payload)
  toVec := .event
  fromSlice
    | .event event => if Text.isBlank event.idempotencyKey
        then .error (text "idempotencyKey cannot be empty") else .ok event
    | _ => .error (text "not an event")
  schemaProbe
    | .event event => .ok event.schema
    | .activation activation => .ok activation.schema
    | .completion completion => .ok completion.schema
  breakProbe
    | .event event => .ok
        { eventType := event.eventType.typeCode, hasRole := false, hasTool := false,
          hasSubject := false }
    | _ => .error (text "missing field eventType")
  eventProbe
    | .event event => .ok event.probe
    | _ => .error (text "missing field eventId")
  activation
    | .activation activation => .ok activation
    | _ => .error (text "not an activation")
  completion
    | .completion completion => .ok completion
    | _ => .error (text "not a completion")
  activationBytes := .activation
  completionBytes := .completion
  isBase64 _ := true

theorem readsBack (event : StoredEvent StorePayload) : ReadsBack runtime.toStoreRuntime event where
  schemaProbe := rfl
  eventProbe := rfl
  breakProbe := rfl
  fromSlice h := by
    show (if Text.isBlank event.idempotencyKey then _ else _) = _
    rw [h]
    rfl
  fromSlice_blank h := by
    refine ⟨text "idempotencyKey cannot be empty", ?_⟩
    show (if Text.isBlank event.idempotencyKey then _ else _) = _
    rw [h]
    rfl

theorem controlRecordsRead : ControlRecordsRead runtime where
  activation {bytes activation} h := by
    cases bytes with
    | activation a => cases h; rfl
    | event e => cases h
    | completion c => cases h
  completion {bytes completion} h := by
    cases bytes with
    | completion c => cases h; rfl
    | event e => cases h
    | activation a => cases h

def signer : SignerId := ⟨text "did:key:maintainer"⟩

def writer : Writer where
  actorId := ⟨text "actor:maintainer"⟩
  producer := { name := text "pointbreak", version := text "1" }

def now : Text := text "2026-01-01T00:00:00Z"

def event (eventType : EventType) (idempotencyKey : Text) (payload : StorePayload) :
    StoredEvent StorePayload where
  schema := EVENT_SCHEMA
  version := EVENT_VERSION
  eventId := eventIdForIdempotencyKey runtime.toStoreRuntime idempotencyKey
  eventType := eventType
  idempotencyKey := idempotencyKey
  target := { journalId := ⟨text "journal:default"⟩, subjectId := none, trackId := none }
  writer := writer
  occurredAt := now
  payloadHash := runtime.payloadHash payload
  assertionMode := .advisory
  payload := payload
  signer := none
  signature := none
  sourceRef := none
  ingest := none
  contentEncoding := []
  payloadVersion := 1

def journalOf (records : List (Text × StoredRecord)) : Journal StoredRecord :=
  records.foldl (fun journal record =>
    (journal.createRecordOnce runtime.sha256 record.1 record.2).2) ∅

def emptyCursor : AuthorityCursorV2 where
  schema := AUTHORITY_CURSOR_SCHEMA_V2
  journalRecordCount := 0
  eventCount := 0
  journalRecordSetHash := sha256JsonPrefixed checksum (.obj
    [(text "schema", .str JOURNAL_RECORD_SET_SCHEMA_V1), (text "records", .arr [])])
  eventSetHash := sha256JsonPrefixed checksum (.obj
    [(text "schema", .str EVENT_SET_SCHEMA_V1), (text "events", .arr [])])
  capabilitySetHash := capabilitySetHash checksum []

/-- The one adopted event. -/
def adopted : StoredEvent StorePayload :=
  event .changeDeclared (text "t:17:change:1") (.wire (Recorded.declared 1))

def manifest : BulkAdoptionManifestV1 where
  schema := BULK_MANIFEST_SCHEMA_V1
  version := 1
  cohortManifestHash := REVIEW_CHANGE_REVISION_MANIFEST_HASH_V1
  sourceAuthorityCursor := emptyCursor
  reservedRecords :=
    [{ logicalKey := adopted.idempotencyKey, recordFamily := text "change_declared_v1",
       recordHash := text "sha256:" ++ runtime.bytesSha256 (.event adopted) }]

/-- The activation that reserves these records. -/
def activationFor (manifest : BulkAdoptionManifestV1) : StoreCapabilityActivationV1 :=
  let draft := activationDraft runtime signer manifest (text "nonce") writer now
  { draft with
    signature.sig := signatureOf signer (preAuthenticationEncoding ACTIVATION_TBS_PAYLOAD_TYPE_V1
      draft.signingView.canonical.render) }

def completionFor (activation : StoreCapabilityActivationV1) : BulkAdoptionCompletionV1 :=
  let draft := completionDraft runtime signer activation writer now
  { draft with
    signature.sig := signatureOf signer (preAuthenticationEncoding COMPLETION_TBS_PAYLOAD_TYPE_V1
      draft.signingView.canonical.render) }

def activation : StoreCapabilityActivationV1 := activationFor manifest

def completion : BulkAdoptionCompletionV1 := completionFor activation

def note : StoredEvent StorePayload :=
  event .reviewNoteImported (text "t:07:note") (.other (text "note"))

def migrated : Journal StoredRecord :=
  journalOf [(note.idempotencyKey, .event note), (activation.logicalKey, .activation activation),
    (adopted.idempotencyKey, .event adopted), (completion.logicalKey, .completion completion)]

end StoreRecorded

end Pointbreak
