import Pointbreak.Semantic.Currency

/-!
# Semantic.Attention

The attention snapshot, from events and from facts. The fold over facts does not count a request of
a task among the open ones, while strict replay does, and an accepted assessment with a follow-up
may be linked to such a request (`attention_parity_iff`).
-/

namespace Pointbreak

open Std BTreeMap KeyedLog

structure CurrentAssessmentFact where
  revisionId : Text
  assessmentId : Text
  assessment : ReviewAssessment
  eventId : Text

structure OpenRequestFact where
  revisionId : Text
  inputRequestId : Text
  mode : AssertionMode
  eventId : Text

structure AttentionSemanticSnapshot where
  currentAssessments : List CurrentAssessmentFact
  openRequests : List OpenRequestFact
  items : List AttentionItem
  diagnostics : List ProjectionDiagnostic

/-- By Revision, by assessment id, by event id. -/
def currentAssessmentFactCmp (a b : CurrentAssessmentFact) : Ordering :=
  ((compare a.revisionId b.revisionId).then (compare a.assessmentId b.assessmentId)).then
    (compare a.eventId b.eventId)

def currentAssessmentFactLE (a b : CurrentAssessmentFact) : Prop :=
  (currentAssessmentFactCmp a b).isLE = true

instance : DecidableRel currentAssessmentFactLE :=
  fun _ _ => inferInstanceAs (Decidable (_ = true))

/-- By Revision, then by request id. -/
def openRequestFactLE (a b : OpenRequestFact) : Prop :=
  ((compare a.revisionId b.revisionId).then (compare a.inputRequestId b.inputRequestId)).isLE = true

instance : DecidableRel openRequestFactLE := fun _ _ => inferInstanceAs (Decidable (_ = true))

section FromEvents

variable {V : Type} (rt : Runtime V)

def AssessmentEventRecord.currentFact (revisionId : RevisionId) (record : AssessmentEventRecord V) :
    CurrentAssessmentFact where
  revisionId := revisionId.asStr
  assessmentId := record.payload.assessmentId.asStr
  assessment := record.payload.assessment
  eventId := record.event.eventId.asStr

def openRequestFact (entry : InputRequestId × InputRequestOpenRecord V) : Option OpenRequestFact :=
  (entry.2.event.subjectRevisionId rt).toOption.join.map fun revisionId =>
    { revisionId := revisionId.asStr, inputRequestId := entry.1.asStr,
      mode := entry.2.event.assertionMode, eventId := entry.2.event.eventId.asStr }

def AttentionSemanticSnapshot.fromEvents (events : List (ShoreEvent V))
    (changes : ChangeProjection) : Result AttentionSemanticSnapshot := do
  let byRevision ← collectAssessmentRecordsByRevision rt events
  let currentAssessments := byRevision.toList.flatMap fun entry =>
    (currentRecords entry.2).map (·.currentFact entry.1)
  let records ← collectInputRequestProjectionRecords rt events
  let openIds := openInputRequestIds records
  let openRequests := (records.requestRecords.toList.filter (·.1 ∈ openIds)).filterMap
    (openRequestFact rt)
  let attention ← attentionFromEventsWithChanges rt events none changes
  .ok {
    currentAssessments := currentAssessments.insertionSort currentAssessmentFactLE
    openRequests := openRequests.insertionSort openRequestFactLE
    items := attention.items
    diagnostics := attention.diagnostics }

end FromEvents

structure RequestRecord where
  revisionId : Text
  inputRequestId : Text
  mode : AssertionMode
  reasonCode : InputRequestReasonCode
  title : Text
  trackId : Text
  openedBy : Text
  observedAt : Text
  eventId : Text

def RequestRecord.openFact (request : RequestRecord) : OpenRequestFact where
  revisionId := request.revisionId
  inputRequestId := request.inputRequestId
  mode := request.mode
  eventId := request.eventId

def requestRecordLE (a b : RequestRecord) : Prop := openRequestFactLE a.openFact b.openFact

instance : DecidableRel requestRecordLE :=
  fun a b => inferInstanceAs (Decidable (openRequestFactLE a.openFact b.openFact))

structure RequestFold where
  requests : BTreeMap Text SemanticFact := ∅
  responses : BTreeMap Text SemanticFact := ∅

def RequestFold.enter (s : RequestFold) (fact : SemanticFact) : SemanticResult RequestFold :=
  match fact.kind with
  | .inputRequestOpened _ => do
    let id ← required fact.semanticId (text "semantic_id")
    .ok { s with requests := replaceLowest s.requests id fact }
  | .inputRequestResponded _ => do
    let id ← required fact.semanticId (text "semantic_id")
    .ok { s with responses := replaceLowest s.responses id fact }
  | _ => .ok s

def SemanticFact.respondedTo (fact : SemanticFact) : Option Text :=
  match fact.kind with
  | .inputRequestResponded response => some response.requestId
  | _ => none

/-- The record of a request without a response; one without a Revision is left out. -/
def openRequestRecord (respondedIds : BTreeSet Text) (entry : Text × SemanticFact) :
    SemanticResult (Option RequestRecord) :=
  if entry.1 ∈ respondedIds then .ok none
  else match entry.2.revisionId, entry.2.kind with
    | some revisionId, .inputRequestOpened request => do
      let trackId ← required entry.2.trackId (text "track_id")
      .ok (some {
        revisionId
        inputRequestId := entry.1
        mode := entry.2.assertionMode
        reasonCode := request.reasonCode
        title := request.title
        trackId
        openedBy := entry.2.actorId
        observedAt := entry.2.occurredAt
        eventId := entry.2.eventId })
    | _, _ => .ok none

def openRequestRecords (facts : List SemanticFact) :
    SemanticResult (List RequestRecord × BTreeSet InputRequestId) := do
  let fold ← facts.foldlM RequestFold.enter {}
  let respondedIds := BTreeSet.collect (fold.responses.vals.filterMap SemanticFact.respondedTo)
  let records ← fold.requests.toList.mapM (openRequestRecord respondedIds)
  let records := records.filterMap id
  .ok (records.insertionSort requestRecordLE,
    BTreeSet.collect (records.map fun record => ⟨record.inputRequestId⟩))

def RequestRecord.item (supersession : SupersessionView) (request : RequestRecord) :
    AttentionItem :=
  let detail := .openInputRequest ⟨request.inputRequestId⟩ request.mode request.reasonCode
    request.title ⟨request.trackId⟩ ⟨request.openedBy⟩
  { id := text "open_input_request:" ++ request.inputRequestId
    tier := tierFor detail
    revisionId := some ⟨request.revisionId⟩
    freshness := freshnessFor supersession ⟨request.revisionId⟩
    observedAt := request.observedAt
    detail }

def enterCapture (capturedAt : BTreeMap RevisionId SemanticFact) (fact : SemanticFact) :
    SemanticResult (BTreeMap RevisionId SemanticFact) :=
  match fact.kind with
  | .revision _ => do
    let id ← required fact.revisionId (text "revision_id")
    .ok (insertLeast compare SemanticFact.eventId capturedAt ⟨id⟩ fact)
  | _ => .ok capturedAt

def enterValidation (representatives : BTreeMap Text SemanticFact) (fact : SemanticFact) :
    SemanticResult (BTreeMap Text SemanticFact) :=
  match fact.kind with
  | .validation _ => do
    let id ← required fact.semanticId (text "semantic_id")
    .ok (replaceLowest representatives id fact)
  | _ => .ok representatives

def groupValidation (groups : ValidationGroups SemanticFact) (fact : SemanticFact) :
    SemanticResult (ValidationGroups SemanticFact) :=
  match fact.kind with
  | .validation validation => do
    let revisionId ← required fact.revisionId (text "revision_id")
    let trackId ← required fact.trackId (text "track_id")
    .ok (groups.alter (⟨revisionId⟩, ⟨trackId⟩, validation.checkName)
      fun group => some (group.getD [] ++ [fact]))
  | _ => .ok groups

/-- The time of a validation, with the status it has. -/
def SemanticFact.validationTime (fact : SemanticFact) : Option (ValidationStatus × Text) :=
  match fact.kind with
  | .validation validation =>
    some (validation.status, validation.completedAt.getD fact.occurredAt)
  | _ => none

def semanticIdLE (a b : SemanticFact) : Prop :=
  (compare (a.semanticId.getD []) (b.semanticId.getD [])).isLE = true

instance : DecidableRel semanticIdLE := fun _ _ => inferInstanceAs (Decidable (_ = true))

def failedFactItem (supersession : SupersessionView) (revisionId : RevisionId) (maxTime : Text)
    (fact : SemanticFact) : SemanticResult (Option AttentionItem) :=
  match fact.kind with
  | .validation validation =>
    let sortTime := validation.completedAt.getD fact.occurredAt
    if sortTime ≠ maxTime || !validation.status.isFailing then .ok none
    else do
      let id ← required fact.semanticId (text "semantic_id")
      let trackId ← required fact.trackId (text "track_id")
      let detail := .failedValidation ⟨id⟩ validation.checkName validation.status
        validation.exitCode ⟨trackId⟩ ⟨fact.actorId⟩ validation.logArtifactContentHashes
      .ok (some {
        id := text "failed_validation:" ++ id
        tier := tierFor detail
        revisionId := some revisionId
        freshness := freshnessFor supersession revisionId
        observedAt := sortTime
        detail })
  | _ => .ok none

def failedFactGroup (supersession : SupersessionView)
    (current : BTreeMap RevisionId (List AssessmentRecord))
    (entry : (RevisionId × TrackId × Text) × List SemanticFact) :
    SemanticResult (List AttentionItem) :=
  if entry.1.1 ∉ supersession.heads then .ok []
  else match maxText (((entry.2.filterMap SemanticFact.validationTime).filter
      (·.1 ≠ .skipped)).map Prod.snd) with
    | none => .ok []
    | some maxTime =>
      if assessmentSubsumesFailure AssessmentRecord.asAttention (current[entry.1.1]?.getD [])
          maxTime then .ok []
      else do
        let items ← (entry.2.insertionSort semanticIdLE).mapM
          (failedFactItem supersession entry.1.1 maxTime)
        .ok (items.filterMap id)

def failedValidationItemsFromFacts (facts : List SemanticFact)
    (current : BTreeMap RevisionId (List AssessmentRecord)) (supersession : SupersessionView) :
    SemanticResult (List AttentionItem) := do
  let representatives ← facts.foldlM enterValidation ∅
  let groups ← representatives.vals.foldlM groupValidation ∅
  let items ← groups.toList.mapM (failedFactGroup supersession current)
  .ok items.flatten

def AssessmentRecord.currentFact (revisionId : RevisionId) (record : AssessmentRecord) :
    CurrentAssessmentFact where
  revisionId := revisionId.asStr
  assessmentId := record.assessmentId.asStr
  assessment := record.assessment
  eventId := record.eventId

def AttentionSemanticSnapshot.fromFactsWithSupersession (facts : List SemanticFact)
    (views : AttentionSupersession) : SemanticResult AttentionSemanticSnapshot := do
  let supersession := views.replacement
  let current ← currentAssessmentRecords facts
  let (requests, openRequestIds) ← openRequestRecords facts
  let capturedAt ← facts.foldlM enterCapture ∅
  let failedItems ← failedValidationItemsFromFacts facts current supersession
  let items := requests.map (·.item supersession) ++
    ambiguousAssessmentItems AssessmentRecord.asAttention current supersession ++
    competingHeadsItems views.competition (fun head => capturedAt[head]?.map (·.occurredAt)) ++
    staleAssessmentItems AssessmentRecord.asAttention current supersession ++ failedItems ++
    followUpOutstandingItems AssessmentRecord.asAttention current supersession openRequestIds
  let currentAssessments := current.toList.flatMap fun entry =>
    entry.2.map (·.currentFact entry.1)
  .ok {
    currentAssessments := currentAssessments.insertionSort currentAssessmentFactLE
    openRequests := requests.map (·.openFact)
    items := items.insertionSort attentionItemLE
    diagnostics := supersession.diagnostics }

end Pointbreak
