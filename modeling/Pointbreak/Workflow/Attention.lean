import Pointbreak.Model.Instant
import Pointbreak.Workflow.AssessmentView
import Pointbreak.Workflow.Effective
import Pointbreak.Workflow.InputRequestView

/-!
# Workflow.Attention

What needs attention, out of the events. The current assessments of each Revision come first; the
items read them, the open requests, the validation checks and the supersession views.
-/

namespace Pointbreak

open Std KeyedLog

structure AttentionAssessmentRecord where
  assessmentId : AssessmentId
  assessment : ReviewAssessment
  trackId : TrackId
  recordedBy : ActorId
  recordedAt : Text
  relatedObservationIds : List ObservationId
  relatedInputRequestIds : List InputRequestId
  revisionScoped : Bool

/-- By time of recording, then by assessment id. -/
def attentionRecordCmp (a b : AttentionAssessmentRecord) : Ordering :=
  (compare a.recordedAt b.recordedAt).then (compare a.assessmentId b.assessmentId)

def attentionRecordLE (a b : AttentionAssessmentRecord) : Prop :=
  (attentionRecordCmp a b).isLE = true

instance : DecidableRel attentionRecordLE := fun _ _ => inferInstanceAs (Decidable (_ = true))

section Current

variable {V : Type}

def AssessmentEventRecord.attention (record : AssessmentEventRecord V) :
    AttentionAssessmentRecord where
  assessmentId := record.payload.assessmentId
  assessment := record.payload.assessment
  trackId := record.trackId
  recordedBy := record.event.writer.actorId
  recordedAt := record.event.occurredAt
  relatedObservationIds := sortedUnique record.payload.relatedObservationIds
  relatedInputRequestIds := sortedUnique record.payload.relatedInputRequestIds
  revisionScoped := match record.payload.target with
    | .revision _ => true
    | _ => false

/-- The records of one Revision that no record of it replaces. -/
def currentRecords (records : BTreeMap AssessmentId (AssessmentEventRecord V)) :
    List (AssessmentEventRecord V) :=
  let replaced := BTreeSet.collect (records.vals.flatMap (·.payload.replacesAssessmentIds))
  records.vals.filter fun record => record.payload.assessmentId ∉ replaced

def currentAssessmentRecordsByRevision (rt : Runtime V) (events : List (ShoreEvent V)) :
    Result (BTreeMap RevisionId (List AttentionAssessmentRecord)) := do
  let byRevision ← collectAssessmentRecordsByRevision rt events
  .ok (byRevision.map fun _ records =>
    ((currentRecords records).map (·.attention)).insertionSort attentionRecordLE)

end Current

inductive AttentionTier where
  | primary | secondary

inductive AttentionFreshnessState where
  | current | superseded
deriving DecidableEq

structure AttentionFreshness where
  state : AttentionFreshnessState
  supersededBy : List RevisionId

def AttentionFreshness.current : AttentionFreshness where
  state := .current
  supersededBy := []

inductive AttentionDetail where
  | openInputRequest (inputRequestId : InputRequestId) (mode : AssertionMode)
      (reasonCode : InputRequestReasonCode) (title : Text) (trackId : TrackId) (openedBy : ActorId)
  | ambiguousAssessment (assessments : List AttentionAssessmentRecord)
  | competingHeads (headRevisionIds : List RevisionId) (threadRevisionCount : Nat)
  | staleAssessment (assessmentId : AssessmentId) (assessment : ReviewAssessment)
      (trackId : TrackId) (recordedBy : ActorId) (headRevisionIds : List RevisionId)
  | failedValidation (validationCheckId : ValidationCheckId) (checkName : Text)
      (status : ValidationStatus) (exitCode : Option Int) (trackId : TrackId) (recordedBy : ActorId)
      (logArtifactContentHashes : List Text)
  | followUpOutstanding (assessmentId : AssessmentId) (trackId : TrackId) (recordedBy : ActorId)
      (openInputRequestIds : List InputRequestId)

structure AttentionItem where
  id : Text
  tier : AttentionTier
  revisionId : Option RevisionId
  freshness : AttentionFreshness
  observedAt : Text
  detail : AttentionDetail

def tierFor : AttentionDetail → AttentionTier
  | .openInputRequest _ .advisory _ _ _ _ => .secondary
  | _ => .primary

def tierRank : AttentionTier → Nat
  | .primary => 0
  | .secondary => 1

/-- Primary before secondary, the oldest first, then by id. -/
def attentionItemCmp (a b : AttentionItem) : Ordering :=
  ((compare (tierRank a.tier) (tierRank b.tier)).then
    (compareEventInstants a.observedAt b.observedAt)).then (compare a.id b.id)

def attentionItemLE (a b : AttentionItem) : Prop := (attentionItemCmp a b).isLE = true

instance : DecidableRel attentionItemLE := fun _ _ => inferInstanceAs (Decidable (_ = true))

/-- The greatest of some texts. -/
def maxText (texts : List Text) : Option Text :=
  texts.foldl (fun greatest value =>
    some (greatest.elim value fun t => if compare t value = .gt then t else value)) none

namespace SupersessionView

variable (supersession : SupersessionView) (revision : RevisionId)

def componentOf : Option (BTreeSet RevisionId) :=
  supersession.components.find? fun component => revision ∈ component

def headsFor : BTreeSet RevisionId :=
  match supersession.componentOf revision with
  | some component => component.filter (· ∈ supersession.heads)
  | none => ∅

def staleBySupersedingRevision : BTreeSet RevisionId := supersession.supersededBy.setAt revision

end SupersessionView

def freshnessFor (supersession : SupersessionView) (revision : RevisionId) : AttentionFreshness :=
  let superseders := supersession.staleBySupersedingRevision revision
  if superseders.isEmpty then .current
  else { state := .superseded, supersededBy := superseders.toList }

section Assessments

-- The records of strict replay and those out of facts are read by the same rules.
variable {β : Type} (attention : β → AttentionAssessmentRecord)
  (current : BTreeMap RevisionId (List β)) (supersession : SupersessionView)

/-- Every head of the thread has an assessment of the Revision itself; never under a cycle. -/
def threadHeadsAllAssessed (revision : RevisionId) : Bool :=
  if (supersession.componentOf revision).all fun component =>
      component.toList.any (· ∈ supersession.cycleRevisions) then false
  else
    let heads := supersession.headsFor revision
    !heads.isEmpty && heads.toList.all fun head =>
      current[head]?.any fun records => records.any fun record => (attention record).revisionScoped

def ReviewAssessment.isAccepting : ReviewAssessment → Bool
  | .accepted | .acceptedWithFollowUp => true
  | _ => false

/-- A later judgment of the Revision, with all judgments accepting. A text that is no instant is
never later. -/
def assessmentSubsumesFailure (records : List β) (failureTime : Text) : Bool :=
  if records.isEmpty || !records.all fun record => (attention record).assessment.isAccepting then
    false
  else match parseEventInstant failureTime with
    | none => false
    | some failure => records.any fun record => (attention record).revisionScoped &&
        (parseEventInstant (attention record).recordedAt).any (failure < ·)

def ambiguousItem (entry : RevisionId × List β) : Option AttentionItem :=
  let freshness := freshnessFor supersession entry.1
  if entry.2.length < 2 then none
  else if freshness.state = .superseded &&
      threadHeadsAllAssessed attention current supersession entry.1 then none
  else
    let detail := .ambiguousAssessment (entry.2.map attention)
    some {
      id := text "ambiguous_assessment:" ++ entry.1.asStr
      tier := tierFor detail
      revisionId := some entry.1
      freshness
      observedAt := (maxText (entry.2.map fun record => (attention record).recordedAt)).getD []
      detail }

def ambiguousAssessmentItems : List AttentionItem :=
  current.toList.filterMap (ambiguousItem attention current supersession)

def staleItem (revisionId : RevisionId) (record : AttentionAssessmentRecord) : AttentionItem :=
  let detail := .staleAssessment record.assessmentId record.assessment record.trackId
    record.recordedBy (supersession.headsFor revisionId).toList
  { id := text "stale_assessment:" ++ record.assessmentId.asStr
    tier := tierFor detail
    revisionId := some revisionId
    freshness := freshnessFor supersession revisionId
    observedAt := record.recordedAt
    detail }

def staleItemsOf (entry : RevisionId × List β) : List AttentionItem :=
  if (freshnessFor supersession entry.1).state ≠ .superseded then []
  else if threadHeadsAllAssessed attention current supersession entry.1 then []
  else entry.2.map fun record => staleItem supersession entry.1 (attention record)

def staleAssessmentItems : List AttentionItem :=
  current.toList.flatMap (staleItemsOf attention current supersession)

def followUpItem (openRequestIds : BTreeSet InputRequestId) (revisionId : RevisionId)
    (record : AttentionAssessmentRecord) : Option AttentionItem :=
  if record.assessment ≠ .acceptedWithFollowUp then none
  else
    let openLinked := record.relatedInputRequestIds.filter (· ∈ openRequestIds)
    if openLinked.isEmpty then none
    else
      let detail := .followUpOutstanding record.assessmentId record.trackId record.recordedBy
        openLinked
      some {
        id := text "follow_up_outstanding:" ++ record.assessmentId.asStr
        tier := tierFor detail
        revisionId := some revisionId
        freshness := freshnessFor supersession revisionId
        observedAt := record.recordedAt
        detail }

def followUpOutstandingItems (openRequestIds : BTreeSet InputRequestId) : List AttentionItem :=
  current.toList.flatMap fun entry => entry.2.filterMap fun record =>
    followUpItem supersession openRequestIds entry.1 (attention record)

end Assessments

/-- One thread with at least two heads. -/
def competingHeadsItem (supersession : SupersessionView) (capturedAt : RevisionId → Option Text)
    (component : BTreeSet RevisionId) : Option AttentionItem :=
  let heads := (component.filter (· ∈ supersession.heads)).toList
  if heads.length < 2 then none
  else
    let detail := .competingHeads heads component.size
    -- with two heads the thread is not empty
    component.toList.head?.map fun smallest =>
      { id := text "competing_heads:" ++ smallest.asStr
        tier := tierFor detail
        revisionId := none
        freshness := .current
        observedAt := (maxText (heads.filterMap capturedAt)).getD []
        detail }

def competingHeadsItems (supersession : SupersessionView) (capturedAt : RevisionId → Option Text) :
    List AttentionItem :=
  supersession.components.filterMap (competingHeadsItem supersession capturedAt)

section Events

variable {V : Type} (rt : Runtime V)

def captureRepresentative (representatives : BTreeMap RevisionId (ShoreEvent V))
    (event : ShoreEvent V) : Result (BTreeMap RevisionId (ShoreEvent V)) := do
  let payload ← fromValue rt.workObjectProposed event.payload
  match payload.workObject with
  | .revision revision _ _ =>
    .ok (insertLeast compare (·.eventId) representatives revision.id event)
  | .taskAttempt _ => .ok representatives

def capturedAtMap (events : List (ShoreEvent V)) : Result (BTreeMap RevisionId Text) := do
  let representatives ← (events.filter fun event =>
    event.eventType = .workObjectProposed).foldlM (captureRepresentative rt) ∅
  .ok (representatives.map fun _ event => event.occurredAt)

structure ValidationRecord (V : Type) where
  event : ShoreEvent V
  payload : ValidationCheckRecordedPayload
  trackId : TrackId

def ValidationCheckRecordedPayload.revisionId (payload : ValidationCheckRecordedPayload) :
    RevisionId :=
  match payload.target with
  | .revision revisionId => revisionId

def ValidationRecord.sortTime (record : ValidationRecord V) : Text :=
  record.payload.completedAt.getD record.event.occurredAt

def collectValidationRecord (records : BTreeMap ValidationCheckId (ValidationRecord V))
    (event : ShoreEvent V) : Result (BTreeMap ValidationCheckId (ValidationRecord V)) := do
  let payload ← fromValue rt.validationCheckRecorded event.payload
  let trackId ← Result.okOr event.target.trackId
    (.message (text "validation event missing track id"))
  .ok (insertLeast compare (·.event.eventId) records payload.validationCheckId
    { event, payload, trackId })

instance : Ord (TrackId × Text) := lexOrd

instance : TransOrd (TrackId × Text) :=
  inferInstanceAs (TransCmp (compareLex (compareOn Prod.fst) (compareOn Prod.snd)))

instance : LawfulEqOrd (TrackId × Text) := inferInstanceAs (LawfulEqCmp lexOrd.compare)

instance : Ord (RevisionId × TrackId × Text) := lexOrd

instance : TransOrd (RevisionId × TrackId × Text) :=
  inferInstanceAs (TransCmp (compareLex (compareOn Prod.fst) (compareOn Prod.snd)))

instance : LawfulEqOrd (RevisionId × TrackId × Text) := inferInstanceAs (LawfulEqCmp lexOrd.compare)

/-- Checks of one name, on one track, of one Revision. -/
abbrev ValidationGroups (γ : Type) : Type := BTreeMap (RevisionId × TrackId × Text) (List γ)

def ValidationRecord.groupKey (record : ValidationRecord V) : RevisionId × TrackId × Text :=
  (record.payload.revisionId, record.trackId, record.payload.checkName)

def groupValidations (records : List (ValidationRecord V)) : ValidationGroups (ValidationRecord V) :=
  records.foldl (fun groups record =>
    groups.alter record.groupKey fun group => some (group.getD [] ++ [record])) ∅

def validationRecordLE (a b : ValidationRecord V) : Prop :=
  (compare a.payload.validationCheckId b.payload.validationCheckId).isLE = true

instance : DecidableRel (validationRecordLE (V := V)) :=
  fun _ _ => inferInstanceAs (Decidable (_ = true))

def ValidationStatus.isFailing : ValidationStatus → Bool
  | .failed | .errored => true
  | _ => false

def ValidationRecord.item (supersession : SupersessionView) (revisionId : RevisionId)
    (record : ValidationRecord V) : AttentionItem :=
  let detail := .failedValidation record.payload.validationCheckId record.payload.checkName
    record.payload.status record.payload.exitCode record.trackId record.event.writer.actorId
    record.payload.logArtifactContentHashes
  { id := text "failed_validation:" ++ record.payload.validationCheckId.asStr
    tier := tierFor detail
    revisionId := some revisionId
    freshness := freshnessFor supersession revisionId
    observedAt := record.sortTime
    detail }

/-- The failing records of one group at its latest time; skipped records do not count. -/
def failedGroupItems (supersession : SupersessionView)
    (current : BTreeMap RevisionId (List AttentionAssessmentRecord))
    (entry : (RevisionId × TrackId × Text) × List (ValidationRecord V)) : List AttentionItem :=
  if entry.1.1 ∉ supersession.heads then []
  else match maxText ((entry.2.filter (·.payload.status ≠ .skipped)).map (·.sortTime)) with
    | none => []
    | some maxTime =>
      if assessmentSubsumesFailure id (current[entry.1.1]?.getD []) maxTime then []
      else ((entry.2.insertionSort validationRecordLE).filter fun record =>
        record.sortTime = maxTime && record.payload.status.isFailing).map
          (·.item supersession entry.1.1)

def failedValidationItems (events : List (ShoreEvent V)) (supersession : SupersessionView)
    (current : BTreeMap RevisionId (List AttentionAssessmentRecord)) :
    Result (List AttentionItem) := do
  let records ← (events.filter fun event =>
    event.eventType = .validationCheckRecorded).foldlM (collectValidationRecord rt) ∅
  .ok ((groupValidations records.vals).toList.flatMap (failedGroupItems supersession current))

def InputRequestOpenRecord.item (supersession : SupersessionView) (inputRequestId : InputRequestId)
    (record : InputRequestOpenRecord V) (revisionId : RevisionId) : AttentionItem :=
  let detail := .openInputRequest inputRequestId record.event.assertionMode
    record.payload.reasonCode record.payload.title record.trackId record.event.writer.actorId
  { id := text "open_input_request:" ++ inputRequestId.asStr
    tier := tierFor detail
    revisionId := some revisionId
    freshness := freshnessFor supersession revisionId
    observedAt := record.event.occurredAt
    detail }

/-- The item of a request without a response; a request of a task has no Revision and no item. -/
def openInputRequestItem (records : InputRequestProjectionRecords V)
    (supersession : SupersessionView) (entry : InputRequestId × InputRequestOpenRecord V) :
    Result (Option AttentionItem) :=
  if entry.1 ∈ records.responses then .ok none
  else do
    let subject ← entry.2.event.subjectRevisionId rt
    .ok (subject.map (entry.2.item supersession entry.1))

def openInputRequestItems (records : InputRequestProjectionRecords V)
    (supersession : SupersessionView) : Result (List AttentionItem) := do
  let items ← records.requestRecords.toList.mapM (openInputRequestItem rt records supersession)
  .ok (items.filterMap id)

structure AttentionProjection where
  items : List AttentionItem
  diagnostics : List ProjectionDiagnostic

/-- Whether an item is in scope: an anchored item by its Revision, competing heads by their
thread. -/
def itemCoversScope (scope : RevisionId) (scopeComponent : Option (BTreeSet RevisionId))
    (item : AttentionItem) : Bool :=
  match item.revisionId with
  | some revisionId => revisionId = scope
  | none => match item.detail with
    | .competingHeads headRevisionIds _ =>
      scopeComponent.any fun component => headRevisionIds.any (· ∈ component)
    | _ => false

def scopeAttentionItems (items : List AttentionItem) (scope : RevisionId)
    (supersession : SupersessionView) : List AttentionItem :=
  items.filter (itemCoversScope scope (supersession.componentOf scope))

def attentionFromEventsWithChanges (events : List (ShoreEvent V)) (scope : Option RevisionId)
    (changes : ChangeProjection) : Result AttentionProjection := do
  let legacy ← SupersessionView.fromEvents rt events
  let views := changeAwareSupersession legacy changes
  let supersession := views.replacement
  let current ← currentAssessmentRecordsByRevision rt events
  let capturedAt ← capturedAtMap rt events
  let requestRecords ← collectInputRequestProjectionRecords rt events
  let openRequestIds := openInputRequestIds requestRecords
  let requestItems ← openInputRequestItems rt requestRecords supersession
  let failedItems ← failedValidationItems rt events supersession current
  let items := requestItems ++ ambiguousAssessmentItems id current supersession ++
    competingHeadsItems views.competition (capturedAt[·]?) ++
    staleAssessmentItems id current supersession ++ failedItems ++
    followUpOutstandingItems id current supersession openRequestIds
  let covered := scope.elim items fun scope => scopeAttentionItems items scope supersession
  .ok { items := covered.insertionSort attentionItemLE, diagnostics := supersession.diagnostics }

end Events

end Pointbreak
