import Pointbreak.Event.Subject
import Pointbreak.Projection.Change

/-!
# Semantic.Fact

Compact facts: what the derived families need of an event, without its payload. `Yields` says that a
fact is the one of an event, and `Yields.factOf` what the fact then holds: the payload is decoded,
and the classification is a function of it.
-/

namespace Pointbreak

structure RevisionFact where
  objectId : Text
  engagementId : Text
  supersedes : List Text
  baseCommitOid : Option Text
  captureCommitOid : Option Text
  captureTreeOid : Option Text

structure AssessmentFact where
  assessment : ReviewAssessment
  replaces : List Text
  relatedObservations : List Text
  relatedRequests : List Text
  revisionScoped : Bool

structure InputRequestFact where
  reasonCode : InputRequestReasonCode
  title : Text

structure InputResponseFact where
  requestId : Text

structure ValidationFact where
  checkName : Text
  status : ValidationStatus
  exitCode : Option Int
  completedAt : Option Text
  logArtifactContentHashes : List Text

structure CommitAssociationFact where
  commitOid : Text
  treeOid : Text

structure CommitWithdrawalFact where
  associationId : Text

structure RefAssociationFact where
  refName : Text
  headOid : Text

structure RefWithdrawalFact where
  associationId : Text

inductive SemanticFactKind where
  | revision (fact : RevisionFact)
  | observation
  | assessment (fact : AssessmentFact)
  | inputRequestOpened (fact : InputRequestFact)
  | inputRequestResponded (fact : InputResponseFact)
  | validation (fact : ValidationFact)
  | commitAssociated (fact : CommitAssociationFact)
  | commitWithdrawn (fact : CommitWithdrawalFact)
  | refAssociated (fact : RefAssociationFact)
  | refWithdrawn (fact : RefWithdrawalFact)
  | artifactRemoved
  | other

/-- A position in the journal. -/
structure TruthCursor where
  epoch : Nat
  sequence : Nat
deriving DecidableEq

structure SemanticFact where
  cursor : TruthCursor
  logicalRereadKey : Text
  replayKey : Text
  eventId : Text
  eventType : Text
  journalId : Text
  revisionId : Option Text
  semanticId : Option Text
  contentHash : Option Text
  payloadHash : Text
  occurredAt : Text
  assertionMode : AssertionMode
  trackId : Option Text
  actorId : Text
  validationWitness : Text
  kind : SemanticFactKind
  change : Option ChangeProjectionFact

inductive SemanticModelError where
  | invalidCursor (cursor : TruthCursor)
  | invalidWitness
  | missingField (label : Text)
  | product (error : ShoreError)
  | json (message : Text)

abbrev SemanticResult (α : Type) : Type := Except SemanticModelError α

def required {α : Type} (value : Option α) (label : Text) : SemanticResult α :=
  match value with
  | some a => .ok a
  | none => .error (.missingField label)

@[simp] theorem required_some {α : Type} {a : α} {label : Text} :
    required (some a) label = .ok a := rfl

structure ClassifiedFact where
  revisionId : Option Text
  semanticId : Option Text
  contentHash : Option Text
  kind : SemanticFactKind

namespace ClassifiedFact

def other : ClassifiedFact :=
  { revisionId := none, semanticId := none, contentHash := none, kind := .other }

def proposed (payload : WorkObjectProposedPayload) : ClassifiedFact :=
  match payload.workObject with
  | .revision revision objectArtifactContentHash supersedes =>
    { revisionId := some revision.id.asStr, semanticId := some revision.id.asStr,
      contentHash := some objectArtifactContentHash,
      kind := .revision
        { objectId := revision.objectId.asStr, engagementId := payload.engagementId.asStr,
          supersedes := supersedes.map Ident.asStr,
          baseCommitOid := revision.gitProvenance.bind fun p => p.base.commit.map Prod.fst,
          captureCommitOid := revision.gitProvenance.bind fun p => p.target.commit.map Prod.fst,
          captureTreeOid := revision.gitProvenance.bind fun p => p.target.commit.map Prod.snd } }
  | .taskAttempt _ => other

variable (revisionId : Option Text)

def observation (payload : ReviewObservationRecordedPayload) : ClassifiedFact :=
  { revisionId, semanticId := some payload.observationId.asStr, contentHash := none,
    kind := .observation }

def assessment (payload : ReviewAssessmentRecordedPayload) : ClassifiedFact :=
  { revisionId, semanticId := some payload.assessmentId.asStr, contentHash := none,
    kind := .assessment
      { assessment := payload.assessment,
        replaces := payload.replacesAssessmentIds.map Ident.asStr,
        relatedObservations := payload.relatedObservationIds.map Ident.asStr,
        relatedRequests := payload.relatedInputRequestIds.map Ident.asStr,
        revisionScoped := match payload.target with
          | .revision _ => true
          | _ => false } }

def inputRequestOpened (payload : InputRequestOpenedPayload) : ClassifiedFact :=
  { revisionId, semanticId := some payload.inputRequestId.asStr, contentHash := none,
    kind := .inputRequestOpened { reasonCode := payload.reasonCode, title := payload.title } }

/-- A response says itself which Revision it is about, if any. -/
def inputRequestResponded (payload : InputRequestRespondedPayload) : ClassifiedFact :=
  { revisionId := payload.revisionId.map Ident.asStr,
    semanticId := some payload.inputRequestResponseId.asStr, contentHash := none,
    kind := .inputRequestResponded { requestId := payload.inputRequestId.asStr } }

def validation (payload : ValidationCheckRecordedPayload) : ClassifiedFact :=
  match payload.target with
  | .revision targetRevision =>
    { revisionId := some targetRevision.asStr,
      semanticId := some payload.validationCheckId.asStr, contentHash := none,
      kind := .validation
        { checkName := payload.checkName, status := payload.status, exitCode := payload.exitCode,
          completedAt := payload.completedAt,
          logArtifactContentHashes := payload.logArtifactContentHashes } }

def commitAssociated (payload : RevisionCommitAssociatedPayload) : ClassifiedFact :=
  { revisionId, semanticId := some payload.commitAssociationId.asStr, contentHash := none,
    kind := match payload.commit with
      | .gitCommit commitOid treeOid => .commitAssociated { commitOid, treeOid }
      | _ => .other }

def commitWithdrawn (payload : RevisionCommitWithdrawnPayload) : ClassifiedFact :=
  { revisionId, semanticId := some payload.commitWithdrawalId.asStr, contentHash := none,
    kind := .commitWithdrawn { associationId := payload.commitAssociationId.asStr } }

def refAssociated (payload : RevisionRefAssociatedPayload) : ClassifiedFact :=
  { revisionId, semanticId := some payload.refAssociationId.asStr, contentHash := none,
    kind := .refAssociated { refName := payload.refName, headOid := payload.headOid } }

def refWithdrawn (payload : RevisionRefWithdrawnPayload) : ClassifiedFact :=
  { revisionId, semanticId := some payload.refWithdrawalId.asStr, contentHash := none,
    kind := .refWithdrawn { associationId := payload.refAssociationId.asStr } }

def artifactRemoved (payload : ArtifactRemovedPayload) : ClassifiedFact :=
  { revisionId := none, semanticId := some payload.contentHash,
    contentHash := some payload.contentHash, kind := .artifactRemoved }

end ClassifiedFact

section Classify

variable {V : Type} (rt : Runtime V) (event : ShoreEvent V)

def decodePayload {P : Type} (decode : V → Except Text P) (value : V) : SemanticResult P :=
  (decode value).mapError .json

/-- The Revision of the families whose subject is a review target. -/
def classifiedRevision : SemanticResult (Option Text) :=
  match event.eventType with
  | .reviewObservationRecorded | .reviewAssessmentRecorded | .inputRequestOpened
  | .revisionRefAssociated | .revisionRefWithdrawn | .revisionCommitAssociated
  | .revisionCommitWithdrawn | .validationCheckRecorded => do
    let subject ← (event.subjectRevisionId rt).mapError .product
    .ok (subject.map Ident.asStr)
  | _ => .ok none

def classifyEvent : SemanticResult ClassifiedFact := do
  let revisionId ← classifiedRevision rt event
  match event.eventType with
  | .workObjectProposed => do
    let payload ← decodePayload rt.workObjectProposed event.payload
    .ok (.proposed payload)
  | .reviewObservationRecorded => do
    let payload ← decodePayload rt.reviewObservationRecorded event.payload
    .ok (.observation revisionId payload)
  | .reviewAssessmentRecorded => do
    let payload ← decodePayload rt.reviewAssessmentRecorded event.payload
    .ok (.assessment revisionId payload)
  | .inputRequestOpened => do
    let payload ← (decodeInputRequestOpenedPayload rt event.payload).mapError .product
    .ok (.inputRequestOpened revisionId payload)
  | .inputRequestResponded => do
    let payload ← decodePayload rt.inputRequestResponded event.payload
    .ok (.inputRequestResponded payload)
  | .validationCheckRecorded => do
    let payload ← decodePayload rt.validationCheckRecorded event.payload
    .ok (.validation payload)
  | .revisionCommitAssociated => do
    let payload ← decodePayload rt.revisionCommitAssociated event.payload
    .ok (.commitAssociated revisionId payload)
  | .revisionCommitWithdrawn => do
    let payload ← decodePayload rt.revisionCommitWithdrawn event.payload
    .ok (.commitWithdrawn revisionId payload)
  | .revisionRefAssociated => do
    let payload ← decodePayload rt.revisionRefAssociated event.payload
    .ok (.refAssociated revisionId payload)
  | .revisionRefWithdrawn => do
    let payload ← decodePayload rt.revisionRefWithdrawn event.payload
    .ok (.refWithdrawn revisionId payload)
  | .artifactRemoved => do
    let payload ← decodePayload rt.artifactRemoved event.payload
    .ok (.artifactRemoved payload)
  | .reviewInitialized | .reviewNoteImported | .taskCheckpointCaptured | .taskObservationRecorded
  | .eventSignatureRecorded | .changeDeclared | .changeMembershipAsserted
  | .changeMembershipWithdrawn | .changeLinkAsserted | .changeRevisionRelationAsserted
  | .changeRevisionRelationWithdrawn | .revisionRelationAttested | .reviewFactPorted =>
    .ok .other

def SemanticFact.fromEvent (cursor : TruthCursor) (validationWitness : Text) :
    SemanticResult SemanticFact := do
  if cursor.epoch = 0 ∨ cursor.sequence = 0 then .error (.invalidCursor cursor)
  else if validationWitness.length ≠ 64 ∨ ¬ validationWitness.all Text.isAsciiHexdigit then
    .error .invalidWitness
  else
    let classified ← classifyEvent rt event
    let change ← (extractChangeProjectionFact rt event).mapError .product
    .ok {
      cursor
      logicalRereadKey := event.idempotencyKey
      replayKey := rt.sha256 event.idempotencyKey
      eventId := event.eventId.asStr
      eventType := event.eventType.asStr
      journalId := event.target.journalId.asStr
      revisionId := classified.revisionId
      semanticId := classified.semanticId
      contentHash := classified.contentHash
      payloadHash := event.payloadHash
      occurredAt := event.occurredAt
      assertionMode := event.assertionMode
      trackId := event.target.trackId.map Ident.asStr
      actorId := event.writer.actorId.asStr
      validationWitness
      kind := classified.kind
      change }

end Classify

section Reads

variable {V : Type} {rt : Runtime V} {e : ShoreEvent V}

variable (rt e) in
/-- The payload decodes as its family asks, and the classification is a function of it. -/
def Reads (c : ClassifiedFact) : Prop :=
  match e.eventType with
  | .workObjectProposed => ∃ p, rt.workObjectProposed e.payload = .ok p ∧ c = .proposed p
  | .reviewObservationRecorded => ∃ p, rt.reviewObservationRecorded e.payload = .ok p ∧
      c = .observation (some p.target.revisionOf.asStr) p
  | .reviewAssessmentRecorded => ∃ p, rt.reviewAssessmentRecorded e.payload = .ok p ∧
      c = .assessment (some p.target.revisionOf.asStr) p
  | .inputRequestOpened => ∃ p, decodeInputRequestOpenedPayload rt e.payload = .ok p ∧
      c = .inputRequestOpened
        (if p.taskTarget.isSome then none else some p.target.revisionOf.asStr) p
  | .inputRequestResponded => ∃ p, rt.inputRequestResponded e.payload = .ok p ∧
      c = .inputRequestResponded p
  | .validationCheckRecorded => ∃ p, rt.validationCheckRecorded e.payload = .ok p ∧
      c = .validation p
  | .revisionCommitAssociated => ∃ p, rt.revisionCommitAssociated e.payload = .ok p ∧
      c = .commitAssociated (some p.target.revisionOf.asStr) p
  | .revisionCommitWithdrawn => ∃ p, rt.revisionCommitWithdrawn e.payload = .ok p ∧
      c = .commitWithdrawn (some p.target.revisionOf.asStr) p
  | .revisionRefAssociated => ∃ p, rt.revisionRefAssociated e.payload = .ok p ∧
      c = .refAssociated (some p.target.revisionOf.asStr) p
  | .revisionRefWithdrawn => ∃ p, rt.revisionRefWithdrawn e.payload = .ok p ∧
      c = .refWithdrawn (some p.target.revisionOf.asStr) p
  | .artifactRemoved => ∃ p, rt.artifactRemoved e.payload = .ok p ∧ c = .artifactRemoved p
  | _ => c = .other

theorem classifyEvent_eq_ok {c : ClassifiedFact} (h : classifyEvent rt e = .ok c) :
    Reads rt e c := by
  unfold classifyEvent classifiedRevision at h
  unfold Reads
  cases ht : e.eventType <;>
    simp only [ht, ShoreEvent.subjectRevisionId, reconstructSubject, Result.bind_eq_ok,
      decodePayload, Result.mapError_eq_ok, fromValue, Except.ok.injEq, exists_eq_left'] at h ⊢
  -- The subject is reconstructed from the same payload that is then decoded.
  case reviewObservationRecorded | reviewAssessmentRecorded | revisionRefAssociated |
      revisionRefWithdrawn | revisionCommitAssociated | revisionCommitWithdrawn =>
    obtain ⟨_, ⟨_, ⟨_, ⟨p, hp, rfl⟩, rfl⟩, rfl⟩, q, hq, rfl⟩ := h
    cases hp.symm.trans hq
    exact ⟨p, hp, rfl⟩
  case inputRequestOpened =>
    obtain ⟨_, ⟨_, ⟨subject, ⟨p, hp, hs⟩, rfl⟩, rfl⟩, q, hq, rfl⟩ := h
    cases hp.symm.trans hq
    refine ⟨p, hp, ?_⟩
    cases htask : p.taskTarget <;> simp only [htask, Except.ok.injEq] at hs <;> subst hs <;> rfl
  case validationCheckRecorded =>
    obtain ⟨_, -, p, hp, rfl⟩ := h
    exact ⟨p, hp, rfl⟩
  case workObjectProposed | inputRequestResponded | artifactRemoved =>
    obtain ⟨p, hp, rfl⟩ := h
    exact ⟨p, hp, rfl⟩
  all_goals exact h.symm

/-- What the fact of an event holds. -/
structure FactOf (rt : Runtime V) (e : ShoreEvent V) (f : SemanticFact) : Prop where
  eventId : f.eventId = e.eventId.asStr
  eventType : f.eventType = e.eventType.asStr
  journalId : f.journalId = e.target.journalId.asStr
  payloadHash : f.payloadHash = e.payloadHash
  occurredAt : f.occurredAt = e.occurredAt
  assertionMode : f.assertionMode = e.assertionMode
  trackId : f.trackId = e.target.trackId.map Ident.asStr
  actorId : f.actorId = e.writer.actorId.asStr
  reads : Reads rt e ⟨f.revisionId, f.semanticId, f.contentHash, f.kind⟩

variable (rt e) in
def Yields (f : SemanticFact) : Prop :=
  ∃ cursor witness, SemanticFact.fromEvent rt e cursor witness = .ok f

theorem Yields.factOf {f : SemanticFact} (h : Yields rt e f) : FactOf rt e f := by
  obtain ⟨cursor, witness, h⟩ := h
  unfold SemanticFact.fromEvent at h
  split at h
  · cases h
  · split at h
    · cases h
    · simp only [Result.bind_eq_ok, Result.mapError_eq_ok, Except.ok.injEq] at h
      obtain ⟨c, hc, change, -, rfl⟩ := h
      exact ⟨rfl, rfl, rfl, rfl, rfl, rfl, rfl, rfl, classifyEvent_eq_ok hc⟩

end Reads

end Pointbreak
