import Pointbreak.Event.Envelope

/-!
# Event.Stored

The event as the store keeps it: the record that projections read, with the signature, the ingest
stamp and the storage descriptors around it. The record hash covers the record alone. Stored bytes
are an opaque type `B`; what the model takes from serde, the canonical JSON writer and the Ed25519
library is the structure `StoreRuntime`.
-/

namespace Pointbreak

/-- The frozen code of an event family, which is what the stored envelope has. -/
def EventType.typeCode : EventType → Text
  | .reviewInitialized => text "t:01"
  | .workObjectProposed => text "t:02"
  | .reviewObservationRecorded => text "t:03"
  | .reviewAssessmentRecorded => text "t:04"
  | .inputRequestOpened => text "t:05"
  | .inputRequestResponded => text "t:06"
  | .reviewNoteImported => text "t:07"
  | .revisionRefAssociated => text "t:08"
  | .revisionRefWithdrawn => text "t:09"
  | .revisionCommitAssociated => text "t:10"
  | .revisionCommitWithdrawn => text "t:11"
  | .validationCheckRecorded => text "t:12"
  | .taskCheckpointCaptured => text "t:13"
  | .taskObservationRecorded => text "t:14"
  | .eventSignatureRecorded => text "t:15"
  | .artifactRemoved => text "t:16"
  | .changeDeclared => text "t:17"
  | .changeMembershipAsserted => text "t:18"
  | .changeMembershipWithdrawn => text "t:19"
  | .changeLinkAsserted => text "t:20"
  | .changeRevisionRelationAsserted => text "t:21"
  | .changeRevisionRelationWithdrawn => text "t:22"
  | .revisionRelationAttested => text "t:23"
  | .reviewFactPorted => text "t:24"

def eventTypeFromCode (code : Text) : Option EventType :=
  EventType.all.find? fun eventType => eventType.typeCode = code

@[simp] theorem eventTypeFromCode_typeCode (eventType : EventType) :
    eventTypeFromCode eventType.typeCode = some eventType := by
  cases eventType <;> rfl

structure EventSignature where
  alg : Text
  sigVersion : Nat
  sig : Text
deriving DecidableEq

structure SourceRef where
  sourceSystem : Text
  sourceId : Text
deriving DecidableEq

inductive IngestVia where
  | ingestEvents | bundleApply
deriving DecidableEq

/-- Stamped on every event that enters the store through a foreign-event seam. -/
structure IngestProvenance where
  via : IngestVia
  receivedAt : Text
deriving DecidableEq

/-- The whole envelope. -/
structure StoredEvent (V : Type) extends ShoreEvent V where
  signer : Option SignerId
  signature : Option EventSignature
  sourceRef : Option SourceRef
  ingest : Option IngestProvenance
  contentEncoding : List Text
  payloadVersion : Nat
deriving DecidableEq

structure EventToBeSigned where
  schema : Text
  version : Nat
  eventType : Text
  eventId : EventId
  payloadHash : Text
  target : EventTarget
  actorId : ActorId
  signer : SignerId
  occurredAt : Text
  assertionMode : AssertionMode

/-- Reserved; nothing reads it. -/
structure InclusionProof where
  scheme : Text
  proof : Text
deriving DecidableEq

/-- A detached co-signature: an attestation over another event's signing view. -/
structure EventSignatureRecordedPayload where
  targetEventId : EventId
  targetEventRecordHash : Text
  attestingSigner : SignerId
  attestation : EventSignature
  inclusionProof : Option InclusionProof
deriving DecidableEq

/-- The full attestation triple. -/
def EventSignatureRecordedPayload.idempotencyKey (targetEventRecordHash : Text)
    (attestingSigner : SignerId) (signatureEncoding : Text) : Text :=
  EventType.eventSignatureRecorded.typeCode ++ text ":" ++ targetEventRecordHash ++ text ":" ++
    attestingSigner.asStr ++ text ":" ++ signatureEncoding

def ArtifactRemovedPayload.idempotencyKey (contentHash : Text) : Text :=
  EventType.artifactRemoved.typeCode ++ text ":" ++ contentHash

/-- What the strict reader looks at before it decodes an envelope: the type tag as it stands, and
whether a retired field is there. -/
structure BreakProbe where
  eventType : Text
  hasRole : Bool
  hasTool : Bool
  hasSubject : Bool

structure EventProbe (V : Type) where
  schema : Text
  version : Nat
  eventId : Text
  eventType : Text
  idempotencyKey : Text
  payloadHash : Text
  payload : V

/-- What the store takes from the libraries below it. -/
structure StoreRuntime (V B : Type) extends Runtime V where
  /-- `sha256_bytes_hex` of stored bytes. -/
  bytesSha256 : B → Text
  /-- `canonical_json_bytes` of a payload, of a record view and of a signing view. -/
  payloadBytes : V → Text
  recordBytes : ShoreEvent V → Text
  signingBytes : EventToBeSigned → Text
  /-- `payload.get("schema").as_str()` and `payload.get("version").as_u64()` -/
  payloadSchema : V → Option Text
  payloadVersion : V → Option Nat
  /-- Whether the text decodes as an Ed25519 `did:key`. -/
  isDidKey : Text → Bool
  /-- Ed25519 verification of a message under a key; malformed input does not verify. -/
  verifyStrict : SignerId → Text → Text → Bool
  eventSignatureRecorded : V → Except Text EventSignatureRecordedPayload
  /-- `serde_json::to_value` at the payloads that the store's own workflows build. -/
  eventSignatureValue : EventSignatureRecordedPayload → V
  artifactRemovedValue : ArtifactRemovedPayload → V
  /-- `serde_json::to_vec` and `serde_json::from_slice` -/
  toVec : StoredEvent V → B
  fromSlice : B → Except Text (StoredEvent V)
  schemaProbe : B → Except Text Text
  breakProbe : B → Except Text BreakProbe
  eventProbe : B → Except Text (EventProbe V)

section Runtime

variable {V B : Type} (rt : StoreRuntime V B)

def StoreRuntime.payloadHash (payload : V) : Text :=
  text "sha256:" ++ rt.sha256 (rt.payloadBytes payload)

/-- The signature- and hop-exclusive hash of the record. -/
def StoredEvent.eventRecordHash (event : StoredEvent V) : Text :=
  text "sha256:" ++ rt.sha256 (rt.recordBytes event.toShoreEvent)

def StoreRuntime.parseSigner (value : Text) : Option SignerId :=
  if rt.isDidKey value then some ⟨value⟩ else none

def eventIdForIdempotencyKey (key : Text) : EventId := ⟨text "evt:sha256:" ++ rt.sha256 key⟩

def defaultAssertionMode : EventType → AssertionMode
  | .reviewAssessmentRecorded => .operative
  | _ => .advisory

def StoredEvent.new (eventType : EventType) (idempotencyKey : Text) (target : EventTarget)
    (writer : Writer) (payload : V) (occurredAt : Text) : Result (StoredEvent V) := do
  Result.ensure (!Text.isBlank idempotencyKey)
    (.invalidEvent (text "idempotencyKey cannot be empty"))
  .ok
    { schema := EVENT_SCHEMA, version := EVENT_VERSION,
      eventId := eventIdForIdempotencyKey rt idempotencyKey, eventType, idempotencyKey, target,
      writer, occurredAt, payloadHash := rt.payloadHash payload,
      assertionMode := defaultAssertionMode eventType, payload, signer := none, signature := none,
      sourceRef := none, ingest := none, contentEncoding := [], payloadVersion := 1 }

def StoredEvent.probe (event : StoredEvent V) : EventProbe V where
  schema := event.schema
  version := event.version
  eventId := event.eventId.asStr
  eventType := event.eventType.typeCode
  idempotencyKey := event.idempotencyKey
  payloadHash := event.payloadHash
  payload := event.payload

/-- The readers give back what the writer wrote for this event, which not every float in a payload
allows. The full decoder refuses a blank key. -/
structure ReadsBack (event : StoredEvent V) : Prop where
  schemaProbe : rt.schemaProbe (rt.toVec event) = .ok event.schema
  eventProbe : rt.eventProbe (rt.toVec event) = .ok event.probe
  breakProbe : rt.breakProbe (rt.toVec event) =
    .ok { eventType := event.eventType.typeCode, hasRole := false, hasTool := false,
          hasSubject := false }
  fromSlice : Text.isBlank event.idempotencyKey = false → rt.fromSlice (rt.toVec event) = .ok event
  fromSlice_blank : Text.isBlank event.idempotencyKey = true →
    ∃ message, rt.fromSlice (rt.toVec event) = .error message

end Runtime

end Pointbreak
