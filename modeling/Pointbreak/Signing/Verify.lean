import Pointbreak.Event.Stored

/-!
# Signing.Verify

Signatures as a reader judges them. An event signature covers the signing view that names the
signer; whether the signer may sign for the event's actor is the reader's trust set. A detached
co-signature covers the same view with the attesting signer in it.
-/

namespace Pointbreak

open Std

def ED25519_SIGNATURE_ALG : Text := text "ed25519"

def EVENT_SIGNATURE_VERSION : Nat := 1

def EVENT_TO_BE_SIGNED_V1_PAYLOAD_TYPE : Text := text "application/vnd.shore.event-tbs.v1+json"

/-- `DSSEv1 SP len(type) SP type SP len(body) SP body` -/
def preAuthenticationEncoding (payloadType body : Text) : Text :=
  text "DSSEv1 " ++ text (Nat.repr payloadType.length) ++ text " " ++ payloadType ++ text " " ++
    text (Nat.repr body.length) ++ text " " ++ body

/-- Who may sign for whom. -/
structure TrustSet where
  allowedSigners : BTreeMap ActorId (BTreeSet SignerId) := ∅

section Verify

variable {V B : Type} (rt : StoreRuntime V B)

/-- An actor that is itself a key signs for itself. -/
def TrustSet.authorizes (trust : TrustSet) (actor : ActorId) (signer : SignerId) : Bool :=
  if rt.parseSigner actor.asStr = some signer then true
  else (trust.allowedSigners.setAt actor).contains signer

/-- The actors that enroll the signer. -/
def TrustSet.reverseResolve (trust : TrustSet) (signer : SignerId) : BTreeSet ActorId :=
  BTreeSet.collect ((trust.allowedSigners.toList.filter fun entry =>
    entry.2.contains signer).map Prod.fst)

/-- The signer of a signed event; an error is the status that it stands for. -/
def resolveEffectiveSigner (event : StoredEvent V) :
    Except EventVerificationStatus SignerId :=
  match event.signature with
  | none => .error .unsigned
  | some _ =>
    match event.signer with
    | some signer => .ok signer
    | none =>
      match rt.parseSigner event.writer.actorId.asStr with
      | some signer => .ok signer
      | none => .error .invalid

def EventToBeSigned.fromEvent (event : ShoreEvent V) (signer : SignerId) :
    Result EventToBeSigned := do
  event.validateSchemaVersion
  .ok
    { schema := event.schema, version := event.version, eventType := event.eventType.typeCode,
      eventId := event.eventId, payloadHash := event.payloadHash, target := event.target,
      actorId := event.writer.actorId, signer, occurredAt := event.occurredAt,
      assertionMode := event.assertionMode }

def eventToBeSigned (event : StoredEvent V) : Except EventVerificationStatus EventToBeSigned := do
  let signer ← resolveEffectiveSigner rt event
  (EventToBeSigned.fromEvent event.toShoreEvent signer).mapError fun _ => .invalid

def eventSignaturePreAuthenticationEncoding (tbs : EventToBeSigned) : Text :=
  preAuthenticationEncoding EVENT_TO_BE_SIGNED_V1_PAYLOAD_TYPE (rt.signingBytes tbs)

def EventSignature.isEd25519V1 (signature : EventSignature) : Bool :=
  signature.alg == ED25519_SIGNATURE_ALG && signature.sigVersion == EVENT_SIGNATURE_VERSION

def verifyEventSignature (event : StoredEvent V) (trust : TrustSet) : EventVerificationStatus :=
  match event.signature with
  | none => .unsigned
  | some signature =>
    if !signature.isEd25519V1 then .invalid
    else
      match eventToBeSigned rt event with
      | .error status => status
      | .ok tbs =>
        if !rt.verifyStrict tbs.signer (eventSignaturePreAuthenticationEncoding rt tbs)
            signature.sig then .invalid
        else if trust.authorizes rt event.writer.actorId tbs.signer then .valid
        else .untrustedKey

inductive CosignatureVerification where
  | attested (status : EventVerificationStatus)
  | bindingMismatch

def verifyCosignature (carrier : EventSignatureRecordedPayload) (target : StoredEvent V)
    (trust : TrustSet) : CosignatureVerification :=
  if target.eventRecordHash rt ≠ carrier.targetEventRecordHash then .bindingMismatch
  else if !carrier.attestation.isEd25519V1 then .attested .invalid
  else
    match EventToBeSigned.fromEvent target.toShoreEvent carrier.attestingSigner with
    | .error _ => .attested .invalid
    | .ok tbs =>
      if !rt.verifyStrict carrier.attestingSigner (eventSignaturePreAuthenticationEncoding rt tbs)
          carrier.attestation.sig then .attested .invalid
      else if trust.authorizes rt target.writer.actorId carrier.attestingSigner then
        .attested .valid
      else .attested .untrustedKey

inductive CosignatureGateDecision where
  | store (status : EventVerificationStatus)
  | dropInvalid
  | targetPending
  | bindingMismatch

def CosignatureGateDecision.stores : CosignatureGateDecision → Bool
  | .store _ => true
  | _ => false

/-- What is decided before a detached co-signature is stored. -/
def gateCosignatureForStore (carrier : EventSignatureRecordedPayload)
    (target : Option (StoredEvent V)) (trust : TrustSet) : CosignatureGateDecision :=
  match target with
  | none => .targetPending
  | some target =>
    match verifyCosignature rt carrier target trust with
    | .bindingMismatch => .bindingMismatch
    | .attested .invalid | .attested .unsigned => .dropInvalid
    | .attested status => .store status

end Verify

end Pointbreak
