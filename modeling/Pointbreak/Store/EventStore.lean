import Pointbreak.Lib.Stateful
import Pointbreak.Store.Capabilities

/-!
# Store.EventStore

The event store over the Journal. A write is admitted by the bounded reader, validated, and created
once under the digest of its idempotency key. When the key is taken, the write is answered from the
comparison with the first-stored event. A call leaves in the Journal what it wrote before an error.
-/

namespace Pointbreak

open Stateful

abbrev StoreM (B : Type) : Type → Type := EStateM ShoreError (Journal B)

inductive EventWriteOutcome where
  | created | existing | existingDivergentSignature
deriving DecidableEq

def schemaBreakFor (retired : Text) : Option SchemaBreakRecord :=
  let record (brokenAt anchor : Text) : Option SchemaBreakRecord := some { retired, brokenAt, anchor }
  if retired = text "review_disposition_recorded" then
    record (text "0.1") (text "docs/assessment-model.md#legacy-disposition-events")
  else if retired = text "intervention_requested" ∨ retired = text "intervention_resolved" then
    record (text "0.1") (text "docs/input-request-model.md#legacy-intervention-events")
  else if retired = text "writer.role" then
    record (text "0.1") (text "docs/storage-model.md#legacy-writer-role-events")
  else if retired = text "writer.tool" then
    record (text "0.1") (text "docs/storage-model.md#legacy-writer-tool-events")
  else if retired = text "eventType.snake_case" ∨ retired = text "target.subject" then
    record (text "0.1")
      (text "docs/store-migration.md#1-a-fail-loud-strict-reader-not-a-dual-read")
  else none

/-- The record of a break that the table is known to have. -/
def schemaBreak (retired : Text) : SchemaBreakRecord :=
  (schemaBreakFor retired).getD { retired, brokenAt := [], anchor := [] }

def filenameIdempotencyMismatch (idempotencyKey : Text) : ShoreError :=
  .message (text "event filename does not match idempotencyKey for " ++ idempotencyKey)

section EventStore

variable {V B : Type} (rt : CapabilityRuntime V B)

def eventSignatureBindingMatches (existing candidate : StoredEvent V) : Bool :=
  existing.signer == candidate.signer && existing.signature == candidate.signature

def validateEvent (event : StoredEvent V) : Result Unit := do
  event.validateSchemaVersion
  Result.ensure (!(event.eventType == .reviewAssessmentRecorded &&
      event.assertionMode != .operative)) (.invalidEvent
    (text "review_assessment_recorded events must use assertionMode Operative"))
  Result.ensure (event.eventId == eventIdForIdempotencyKey rt.toStoreRuntime event.idempotencyKey)
    (.message (text "eventId mismatch for idempotency key " ++ event.idempotencyKey))
  Result.ensure (event.payloadHash == rt.payloadHash event.payload)
    (.message (text "payloadHash mismatch for event " ++ event.eventId.asStr))

/-- The strict reader: retired encodings first, then the envelope, then its checks. -/
def decodeValidatedEvent (bytes : B) : Result (StoredEvent V) := do
  let probe ← fromValue rt.breakProbe bytes
  match schemaBreakFor probe.eventType with
  | some record => .error (.unsupportedEventType record)
  | none => do
    Result.ensure (eventTypeFromCode probe.eventType).isSome
      (.unsupportedEventType (schemaBreak (text "eventType.snake_case")))
    Result.ensure (!probe.hasSubject)
      (.unsupportedEventEnvelope (schemaBreak (text "target.subject")))
    Result.ensure (!probe.hasRole) (.unsupportedEventEnvelope (schemaBreak (text "writer.role")))
    Result.ensure (!probe.hasTool) (.unsupportedEventEnvelope (schemaBreak (text "writer.tool")))
    let event ← fromValue rt.fromSlice bytes
    validateEvent rt event
    .ok event

/-- The event under a key, which must be its own key. -/
def readStoredEvent (journal : Journal B) (idempotencyKey : Text) : Result (StoredEvent V) := do
  let bytes ← Result.okOr (journal.readEventBytes rt.sha256 idempotencyKey)
    (.message (text "stored event for idempotency key " ++ idempotencyKey ++
      text " disappeared during write"))
  let event ← decodeValidatedEvent rt bytes
  Result.ensure (event.idempotencyKey == idempotencyKey)
    (filenameIdempotencyMismatch idempotencyKey)
  .ok event

/-- The event in the file of a key, whose name must be the one its own key gives. -/
def readEvent (journal : Journal B) (idempotencyKey : Text) : Result (StoredEvent V) := do
  let bytes ← Result.okOr (journal.readEventBytes rt.sha256 idempotencyKey)
    (.message (text "No such file or directory"))
  let event ← decodeValidatedEvent rt bytes
  Result.ensure (rt.sha256 event.idempotencyKey == rt.sha256 idempotencyKey)
    (filenameIdempotencyMismatch event.idempotencyKey)
  .ok event

def decodeValidatedEntry (entry : JournalEntry B) : Result (StoredEvent V) := do
  let event ← decodeValidatedEvent rt entry.bytes
  Result.ensure (rt.sha256 event.idempotencyKey == entry.keyDigest)
    (filenameIdempotencyMismatch event.idempotencyKey)
  .ok event

def listEvents (journal : Journal B) : Result (List (StoredEvent V)) := do
  let entries ← eventEntriesForCurrentProduct rt journal
  entries.mapM (decodeValidatedEntry rt)

/-- The answer to a write whose key is taken. Events with one payload hash are one event, whether or
not they are signed alike; a signature that differs over the same record is reported as such. -/
def classifyExisting (existing event : StoredEvent V) : Result EventWriteOutcome :=
  if existing.payloadHash = event.payloadHash then
    if eventSignatureBindingMatches existing event then .ok .existing
    else if existing.eventRecordHash rt.toStoreRuntime = event.eventRecordHash rt.toStoreRuntime then
      .ok .existingDivergentSignature
    else .ok .existing
  else .error (.message (text "event conflict for idempotency key " ++ event.idempotencyKey))

def createEventOnce (idempotencyKey : Text) (bytes : B) : StoreM B CreateOutcome :=
  modifyGet fun journal => journal.createRecordOnce rt.sha256 idempotencyKey bytes

def publishValidatedEvent (event : StoredEvent V) (bytes : B) : StoreM B EventWriteOutcome := do
  match ← createEventOnce rt event.idempotencyKey bytes with
  | .created => pure .created
  | .alreadyExists => do
    let existing ← lift (readStoredEvent rt (← get) event.idempotencyKey)
    lift (classifyExisting rt existing event)

def EventWriteBatch.recordEventOnce (event : StoredEvent V) : StoreM B EventWriteOutcome := do
  lift (validateEvent rt event)
  publishValidatedEvent rt event (rt.toVec event)

def beginCurrentProductBatch : StoreM B Unit := do
  lift (preflightCurrentProduct rt (← get))

def EventStore.recordEventOnce (event : StoredEvent V) : StoreM B EventWriteOutcome := do
  beginCurrentProductBatch rt
  EventWriteBatch.recordEventOnce rt event

def EventStore.recordChangeEventOnce (event : StoredEvent V) : StoreM B EventWriteOutcome := do
  lift (preflightChangeWriter rt (← get))
  EventWriteBatch.recordEventOnce rt event

end EventStore

end Pointbreak
