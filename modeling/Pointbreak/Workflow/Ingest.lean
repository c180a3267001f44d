import Pointbreak.Projection.State
import Pointbreak.Store.EventStore

/-!
# Workflow.Ingest

Events from elsewhere. The whole list is checked and stamped before the writer opens; then each
event is written through the store's own write. A detached co-signature goes through the gate
against its target, and an event that is stored already but signed differently has its signature
transcribed into such a co-signature.
-/

namespace Pointbreak

open Std Stateful

structure EventVerificationPolicy where
  rejectInvalidSignatures : Bool
  requireTrustedSigner : Bool
  allowUnsigned : Bool

def EventVerificationPolicy.advisory : EventVerificationPolicy where
  rejectInvalidSignatures := false
  requireTrustedSigner := false
  allowUnsigned := true

def EventVerificationPolicy.rejects (policy : EventVerificationPolicy) :
    EventVerificationStatus → Bool
  | .valid => false
  | .invalid => policy.rejectInvalidSignatures
  | .untrustedKey => policy.requireTrustedSigner
  | .unsigned => !policy.allowUnsigned

structure IngestEventVerification where
  eventId : EventId
  status : EventVerificationStatus
  message : Option Text
  writeOutcome : Option EventWriteOutcome

def verificationMessage : EventVerificationStatus → Option Text
  | .valid => none
  | .invalid => some (text "event signature is invalid")
  | .untrustedKey => some (text "event signer is not authorized by the trust set")
  | .unsigned => some (text "event is unsigned")

def cosignatureVerificationMessage : EventVerificationStatus → Option Text
  | .valid => none
  | .untrustedKey => some (text "co-signature signer is not authorized by the trust set")
  | .invalid => some (text "co-signature attestation is invalid")
  | .unsigned => some (text "co-signature carrier has no attestation")

def COSIGNATURE_INVALID_CODE : Text := text "cosignature_invalid"

def COSIGNATURE_TARGET_PENDING_CODE : Text := text "cosignature_target_pending"

def COSIGNATURE_BINDING_MISMATCH_CODE : Text := text "cosignature_binding_mismatch"

def COSIGNATURE_UNTRUSTED_SIGNER_CODE : Text := text "cosignature_untrusted_signer"

/-- Whether some character is a control character: U+0000 to U+001F, U+007F to U+009F. -/
def hasControl : Text → Bool
  | [] => false
  | [a] => a.toNat < 32 || a == 127
  | a :: b :: rest => (a.toNat < 32 || a == 127 ||
      (a == 0xC2 && 0x80 ≤ b.toNat && b.toNat ≤ 0x9F)) || hasControl (b :: rest)

/-- Whether some character is a blank. -/
def hasBlank : Text → Bool
  | [] => false
  | [a] => Text.isAsciiBlank a
  | [a, b] => Text.isAsciiBlank a || Text.isAsciiBlank b || Text.isTwoByteBlank a b
  | a :: b :: c :: rest => Text.isAsciiBlank a || Text.isTwoByteBlank a b ||
      Text.isThreeByteBlank a b c || hasBlank (b :: c :: rest)

section Ingest

variable {V B : Type} (rt : CapabilityRuntime V B)

def isValidActorId (value : Text) : Bool :=
  value.length ≤ 256 &&
    (((text "actor:").isPrefixOf value && !(value.drop 6).isEmpty && !hasBlank (value.drop 6) &&
        !hasControl (value.drop 6)) ||
      (rt.parseSigner value).isSome)

/-- Co-signature carriers are left to the gate. -/
def verifyEventsForIngest (policy : EventVerificationPolicy) (trust : TrustSet) :
    List (StoredEvent V) → Result (List IngestEventVerification)
  | [] => .ok []
  | event :: events =>
    if event.eventType = .eventSignatureRecorded then verifyEventsForIngest policy trust events
    else
      let status := verifyEventSignature rt.toStoreRuntime event trust
      if policy.rejects status then .error (.eventVerificationRejected event.eventId status)
      else do
        let rows ← verifyEventsForIngest policy trust events
        .ok ({ eventId := event.eventId, status, message := verificationMessage status,
               writeOutcome := none } :: rows)

/-- Every inbound stamp is overwritten. -/
def stampIngestProvenance (via : IngestVia) (receivedAt : Text) (event : StoredEvent V) :
    StoredEvent V :=
  { event with ingest := some { via, receivedAt } }

def prepareEventsForIngest (events : List (StoredEvent V)) (policy : EventVerificationPolicy)
    (trust : TrustSet) (receivedAt : Text) :
    Result (List (StoredEvent V) × List IngestEventVerification) := do
  events.forM fun event => Result.ensure (isValidActorId rt event.writer.actorId.asStr)
    (.invalidEvent (text "ingested event " ++ event.eventId.asStr ++
      text " has a malformed writer actor id: " ++ event.writer.actorId.asStr))
  let verification ← verifyEventsForIngest rt policy trust events
  .ok (events.map (stampIngestProvenance .ingestEvents receivedAt), verification)

structure CarrierTargetIndex (V : Type) where
  seeded : Bool := false
  idempotencyKeyByEventId : BTreeMap Text Text := ∅
  resolvedEvent : Option (StoredEvent V) := none

namespace CarrierTargetIndex

def orInsert (keys : BTreeMap Text Text) (eventId key : Text) : BTreeMap Text Text :=
  if keys.contains eventId then keys else keys.insert eventId key

def seed (index : CarrierTargetIndex V) : StoreM B (CarrierTargetIndex V) := do
  if index.seeded then pure index
  else do
    let events ← lift (listEvents rt (← get))
    pure { index with
      seeded := true,
      idempotencyKeyByEventId := events.foldl (fun keys event =>
        orInsert keys event.eventId.asStr event.idempotencyKey) index.idempotencyKeyByEventId }

def resolve (index : CarrierTargetIndex V) (eventId : Text) :
    StoreM B (CarrierTargetIndex V × Option (StoredEvent V)) := do
  let index ← seed rt index
  match index.idempotencyKeyByEventId[eventId]? with
  | none => pure ({ index with resolvedEvent := none }, none)
  | some key =>
    match index.resolvedEvent.filter fun event => event.eventId.asStr = eventId with
    | some event => pure (index, some event)
    | none => do
      let event ← lift (readStoredEvent rt (← get) key)
      pure ({ index with resolvedEvent := some event }, some event)

def observeRecordedEvent (index : CarrierTargetIndex V) (event : StoredEvent V) :
    StoreM B (CarrierTargetIndex V) := do
  if !index.seeded || index.idempotencyKeyByEventId.contains event.eventId.asStr then pure index
  else do
    let stored ← lift (readStoredEvent rt (← get) event.idempotencyKey)
    let keys := index.idempotencyKeyByEventId.insert event.eventId.asStr event.idempotencyKey
    pure { index with
      idempotencyKeyByEventId := orInsert keys stored.eventId.asStr stored.idempotencyKey }

def observeBatchWrite (index : CarrierTargetIndex V) (event : StoredEvent V)
    (outcome : EventWriteOutcome) : StoreM B (CarrierTargetIndex V) := do
  if !index.seeded || index.idempotencyKeyByEventId.contains event.eventId.asStr then pure index
  else
    match outcome with
    | .created => pure { index with
        idempotencyKeyByEventId :=
          index.idempotencyKeyByEventId.insert event.eventId.asStr event.idempotencyKey }
    | .existing | .existingDivergentSignature => observeRecordedEvent rt index event

end CarrierTargetIndex

/-- Who writes a transcribed carrier, and when the writes of the batch take place. -/
structure IngestEnvironment where
  receivedAt : Text
  writer : Writer
  timestamp : Nat → Text

structure IngestBatchSession (V : Type) where
  carrierTargets : CarrierTargetIndex V := {}
  diagnostics : List ProjectionDiagnostic := []
  eventsCreated : Nat := 0
  eventsExisting : Nat := 0
  eventsCreatedByType : BTreeMap Text Nat := ∅
  verification : List IngestEventVerification
  /-- The row of the next event that is not a carrier. -/
  verifiedRowCursor : Nat := 0
  /-- The number of events so far. -/
  position : Nat := 0

namespace IngestBatchSession

variable (session : IngestBatchSession V)

def countCreated (eventType : EventType) : IngestBatchSession V :=
  { session with
    eventsCreated := session.eventsCreated + 1,
    eventsCreatedByType := session.eventsCreatedByType.alter eventType.asStr fun count =>
      some (count.getD 0 + 1) }

def countExisting : IngestBatchSession V :=
  { session with eventsExisting := session.eventsExisting + 1 }

def diagnose (code message : Text) : IngestBatchSession V :=
  { session with diagnostics := session.diagnostics ++ [{ code, message }] }

def countCarrier (outcome : EventWriteOutcome) : IngestBatchSession V :=
  match outcome with
  | .created => session.countCreated .eventSignatureRecorded
  | .existing | .existingDivergentSignature => session.countExisting

/-- A stored co-signature by a signer that this reader does not trust is reported once. -/
def diagnoseUntrusted (status : EventVerificationStatus)
    (outcome : EventWriteOutcome) (carrierEventId targetEventId : EventId) (signer : SignerId)
    (claimedActor : ActorId) : IngestBatchSession V :=
  if status = .untrustedKey ∧ outcome = .created then
    session.diagnose COSIGNATURE_UNTRUSTED_SIGNER_CODE
      (text "merged co-signature " ++ carrierEventId.asStr ++ text " over event " ++
        targetEventId.asStr ++ text " is signed by " ++ signer.asStr ++
        text ", which is not authorized for actor " ++ claimedActor.asStr ++
        text " in this trust set")
  else session

end IngestBatchSession

/-- A carrier from a peer. Only what the gate lets through is written. -/
def ingestDetachedCosignature (trust : TrustSet) (session : IngestBatchSession V)
    (event : StoredEvent V) : StoreM B (IngestBatchSession V) := do
  let payload ← lift (fromValue rt.eventSignatureRecorded event.payload)
  let (targets, target) ← session.carrierTargets.resolve rt payload.targetEventId.asStr
  let session := { session with carrierTargets := targets }
  match gateCosignatureForStore rt.toStoreRuntime payload target trust with
  | .store status => do
    let outcome ← EventWriteBatch.recordEventOnce rt event
    let targets ← session.carrierTargets.observeBatchWrite rt event outcome
    let session := { session with carrierTargets := targets }
    let session := session.countCarrier outcome
    let session := { session with
      verification := session.verification ++
        [{ eventId := event.eventId, status, message := cosignatureVerificationMessage status,
           writeOutcome := some outcome }] }
    match target with
    | some target => pure (session.diagnoseUntrusted status outcome event.eventId target.eventId
        payload.attestingSigner target.writer.actorId)
    | none => pure session
  | .dropInvalid => pure (session.diagnose COSIGNATURE_INVALID_CODE
      (text "detached co-signature " ++ event.eventId.asStr ++ text " over event " ++
        payload.targetEventId.asStr ++ text " has an invalid attestation and was not stored"))
  | .targetPending => pure (session.diagnose COSIGNATURE_TARGET_PENDING_CODE
      (text "detached co-signature " ++ event.eventId.asStr ++ text " targets event " ++
        payload.targetEventId.asStr ++ text ", which is not present; not stored"))
  | .bindingMismatch => pure (session.diagnose COSIGNATURE_BINDING_MISMATCH_CODE
      (text "detached co-signature " ++ event.eventId.asStr ++
        text " binds an eventRecordHash that does not match its target " ++
        payload.targetEventId.asStr ++ text "; not stored"))

/-- The carrier of an attestation over a stored event. -/
def cosignaturePayload (target : StoredEvent V) (attestingSigner : SignerId)
    (attestation : EventSignature) : EventSignatureRecordedPayload where
  targetEventId := target.eventId
  targetEventRecordHash := target.eventRecordHash rt.toStoreRuntime
  attestingSigner := attestingSigner
  attestation := attestation
  inclusionProof := none

structure CosignatureRecord (V : Type) where
  carrier : StoredEvent V
  decision : CosignatureGateDecision
  writeOutcome : Option EventWriteOutcome

def assembleAndRecordCosignatureWithWriter (target : StoredEvent V) (attestingSigner : SignerId)
    (attestation : EventSignature) (writer : Writer) (trust : TrustSet) (occurredAt : Text)
    (recordEventOnce : StoredEvent V → StoreM B EventWriteOutcome) :
    StoreM B (CosignatureRecord V) := do
  let payload := cosignaturePayload rt target attestingSigner attestation
  let carrier ← lift (StoredEvent.new rt.toStoreRuntime .eventSignatureRecorded
    (EventSignatureRecordedPayload.idempotencyKey payload.targetEventRecordHash attestingSigner
      attestation.sig)
    { journalId := target.target.journalId, subjectId := none, trackId := none } writer
    (rt.eventSignatureValue payload) occurredAt)
  let decision := gateCosignatureForStore rt.toStoreRuntime payload (some target) trust
  if decision.stores then do
    let outcome ← recordEventOnce carrier
    pure { carrier, decision, writeOutcome := some outcome }
  else pure { carrier, decision, writeOutcome := none }

/-- The incoming signature becomes a carrier. An event with no signature, or with one whose signer is
not known, has nothing to transcribe. -/
def transcribeDivergentSignature (trust : TrustSet) (env : IngestEnvironment)
    (session : IngestBatchSession V) (event : StoredEvent V) :
    StoreM B (IngestBatchSession V) := do
  let storedTarget ← lift (readEvent rt (← get) event.idempotencyKey)
  match event.signature, resolveEffectiveSigner rt.toStoreRuntime event with
  | some attestation, .ok attestingSigner => do
    let record ← assembleAndRecordCosignatureWithWriter rt storedTarget attestingSigner attestation
      env.writer trust (env.timestamp session.position) (EventWriteBatch.recordEventOnce rt)
    match record.decision, record.writeOutcome with
    | .store status, some outcome => do
      let targets ← session.carrierTargets.observeRecordedEvent rt record.carrier
      let session := { session with carrierTargets := targets }
      pure ((session.countCarrier outcome).diagnoseUntrusted status outcome record.carrier.eventId
        storedTarget.eventId attestingSigner storedTarget.writer.actorId)
    | _, _ => pure session
  | _, _ => pure session

def recordVerifiedEvent (trust : TrustSet) (env : IngestEnvironment)
    (session : IngestBatchSession V) (event : StoredEvent V) :
    StoreM B (IngestBatchSession V) :=
  if event.eventType = .eventSignatureRecorded then do
    let session ← ingestDetachedCosignature rt trust session event
    pure { session with position := session.position + 1 }
  else do
    let outcome ← EventWriteBatch.recordEventOnce rt event
    let targets ← session.carrierTargets.observeBatchWrite rt event outcome
    let session := { session with
      carrierTargets := targets,
      verification := session.verification.modify session.verifiedRowCursor fun row =>
        { row with writeOutcome := some outcome },
      verifiedRowCursor := session.verifiedRowCursor + 1 }
    let session ←
      match outcome with
      | .created => pure (session.countCreated event.eventType)
      | .existing => pure session.countExisting
      | .existingDivergentSignature =>
        transcribeDivergentSignature rt trust env session.countExisting event
    pure { session with position := session.position + 1 }

def recordVerifiedEvents (trust : TrustSet) (env : IngestEnvironment) (stamped : List (StoredEvent V))
    (session : IngestBatchSession V) : StoreM B (IngestBatchSession V) :=
  stamped.foldlM (recordVerifiedEvent rt trust env) session

structure IngestEventsOptions (V : Type) where
  events : List (StoredEvent V)
  verificationPolicy : EventVerificationPolicy
  trustSet : TrustSet

structure IngestEventsResult where
  eventsCreated : Nat
  eventsExisting : Nat
  eventsCreatedByType : BTreeMap Text Nat
  verification : List IngestEventVerification
  diagnostics : List ProjectionDiagnostic

def ingestEvents (options : IngestEventsOptions V) (env : IngestEnvironment) :
    StoreM B IngestEventsResult := do
  let (stamped, verification) ← lift (prepareEventsForIngest rt options.events
    options.verificationPolicy options.trustSet env.receivedAt)
  beginCurrentProductBatch rt
  let session ← recordVerifiedEvents rt options.trustSet env stamped { verification }
  pure
    { eventsCreated := session.eventsCreated, eventsExisting := session.eventsExisting,
      eventsCreatedByType := session.eventsCreatedByType, verification := session.verification,
      diagnostics := session.diagnostics }

end Ingest

end Pointbreak
