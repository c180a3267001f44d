import Pointbreak.Event.Recorded
import Pointbreak.Event.Subject
import Pointbreak.Projection.BodyContent
import Pointbreak.Projection.ChangeEvents

/-!
# Workflow.AssessmentView

The assessments of one Revision as the review surfaces show them: one record for each assessment id,
taken from its carrier with the lowest event id. It is written apart from the Change fold;
`qualified_iff_resolved` says that the two come to the same verdict.
-/

namespace Pointbreak

open Std KeyedLog List

structure AssessmentEventRecord (V : Type) where
  event : ShoreEvent V
  payload : ReviewAssessmentRecordedPayload
  trackId : TrackId

section Records

variable {V : Type} (rt : Runtime V)

abbrev AssessmentTable (V : Type) : Type :=
  BTreeMap RevisionId (BTreeMap AssessmentId (AssessmentEventRecord V))

def collectAssessmentRecord (byRevision : AssessmentTable V) (event : ShoreEvent V) :
    Result (AssessmentTable V) := do
  match ← event.subjectRevisionId rt with
  | none => .ok byRevision
  | some revisionId => do
    let payload ← fromValue rt.reviewAssessmentRecorded event.payload
    let trackId ← Result.okOr event.target.trackId
      (.message (text "assessment event missing track id"))
    let records := byRevision[revisionId]?.getD ∅
    let replaceRecord := records[payload.assessmentId]?.all fun record =>
      compare event.eventId record.event.eventId = .lt
    .ok (byRevision.insert revisionId
      (if replaceRecord then records.insert payload.assessmentId { event, payload, trackId }
        else records))

def collectAssessmentRecordsByRevision (events : List (ShoreEvent V)) :
    Result (AssessmentTable V) :=
  (events.filter fun event => event.eventType = .reviewAssessmentRecorded).foldlM
    (collectAssessmentRecord rt) ∅

def collectAssessmentRecords (events : List (ShoreEvent V)) (revisionId : RevisionId) :
    Result (BTreeMap AssessmentId (AssessmentEventRecord V)) := do
  let byRevision ← collectAssessmentRecordsByRevision rt events
  .ok (byRevision[revisionId]?.getD ∅)

end Records

inductive CurrentAssessmentStatus where
  | unassessed
  | resolved (assessment : ReviewAssessment)
  | ambiguous (assessments : List ReviewAssessment)

inductive AssessmentRecordStatus where
  | current | replaced
deriving DecidableEq

structure AssessmentView where
  id : AssessmentId
  eventId : EventId
  trackId : TrackId
  target : ReviewTargetRef
  assessment : ReviewAssessment
  summary : Option Text
  summaryContentType : BodyContentType
  summaryContentHash : Option Text
  summaryContentState : BodyContentState
  status : AssessmentRecordStatus
  replaces : List AssessmentId
  relatedObservations : List ObservationId
  relatedInputRequests : List InputRequestId
  createdAt : Text
  writer : Writer

structure CurrentAssessmentView where
  status : CurrentAssessmentStatus
  records : List AssessmentView

/-- What a caller asks for; `revisionId` is that of the resolved Revision. -/
structure AssessmentProjectionOptions (V : Type) where
  backend : Option StoreBackend
  events : List (ShoreEvent V)
  revisionId : RevisionId
  trackFilter : Option TrackId
  includeSummary : Bool
  includeAll : Bool
  readForDisplay : Bool
  removalLens : Option BodyRemovalLens

section Views

variable {V : Type}

def assessmentSummary (backend : Option StoreBackend) (payload : ReviewAssessmentRecordedPayload) :
    Result (Option Text) :=
  if payload.summary.isSome then .ok payload.summary
  else match payload.summaryArtifactPath with
    | some path => do
      let backend ← Result.okOr backend
        (.message (text "store backend is required to hydrate an assessment summary"))
      backend.loadBodyArtifact path
    | none => .ok none

/-- The summary and its state. Without a lens the state stays unresolved. -/
def readSummary (options : AssessmentProjectionOptions V)
    (payload : ReviewAssessmentRecordedPayload) : Result (Option Text × BodyContentState) :=
  match options.backend, options.removalLens with
  | some backend, some lens => do
    let content ← lens.resolveBodyContentForRead backend options.includeSummary payload.summary
      payload.summaryArtifactPath payload.summaryContentHash options.readForDisplay
    .ok (content.intoText, content.state)
  | backend, _ => do
    let summary ← if options.includeSummary then assessmentSummary backend payload else .ok none
    .ok (summary, .present)

def AssessmentEventRecord.view (record : AssessmentEventRecord V)
    (replacedIds : BTreeSet AssessmentId) (summary : Option Text × BodyContentState) :
    AssessmentView where
  id := record.payload.assessmentId
  eventId := record.event.eventId
  trackId := record.trackId
  target := record.payload.target
  assessment := record.payload.assessment
  summary := summary.1
  summaryContentType := record.payload.summaryContentType
  summaryContentHash := record.payload.summaryContentHash
  summaryContentState := summary.2
  status := if record.payload.assessmentId ∈ replacedIds then .replaced else .current
  replaces := sortedUnique record.payload.replacesAssessmentIds
  relatedObservations := sortedUnique record.payload.relatedObservationIds
  relatedInputRequests := sortedUnique record.payload.relatedInputRequestIds
  createdAt := record.event.occurredAt
  writer := record.event.writer

def assessmentViewFromEvent (options : AssessmentProjectionOptions V)
    (replacedIds : BTreeSet AssessmentId) (record : AssessmentEventRecord V) :
    Result AssessmentView := do
  let summary ← readSummary options record.payload
  .ok (record.view replacedIds summary)

/-- By time of creation, then by event id. -/
def assessmentViewLE (a b : AssessmentView) : Prop :=
  ((compare a.createdAt b.createdAt).then (compare a.eventId b.eventId)).isLE = true

instance : DecidableRel assessmentViewLE := fun _ _ => inferInstanceAs (Decidable (_ = true))

def currentAssessmentStatus : List AssessmentView → CurrentAssessmentStatus
  | [] => .unassessed
  | [record] => .resolved record.assessment
  | records => .ambiguous (records.map (·.assessment))

/-- The views in order, those that are current, and the status they give. -/
def presentAssessments (includeAll : Bool) (views : List AssessmentView) :
    CurrentAssessmentView × List AssessmentView :=
  let allViews := views.insertionSort assessmentViewLE
  let currentRecords := allViews.filter (·.status = .current)
  ({ status := currentAssessmentStatus currentRecords, records := currentRecords },
    if includeAll then allViews else currentRecords)

def projectAssessments (rt : Runtime V) (options : AssessmentProjectionOptions V) :
    Result (CurrentAssessmentView × List AssessmentView) := do
  let records ← collectAssessmentRecords rt options.events options.revisionId
  let replacedIds := BTreeSet.collect (records.vals.flatMap (·.payload.replacesAssessmentIds))
  let shown := records.vals.filter fun record => options.trackFilter.all (· = record.trackId)
  let views ← shown.mapM (assessmentViewFromEvent options replacedIds)
  .ok (presentAssessments options.includeAll views)

end Views

section Agreement

variable {V : Type} {rt : Runtime V} {E : List (ShoreEvent V)} {byRevision : AssessmentTable V}

def readAssessment (rt : Runtime V) (event : ShoreEvent V) :
    Result (Option (RevisionId × AssessmentEventRecord V)) := do
  match ← event.subjectRevisionId rt with
  | none => .ok none
  | some revisionId => do
    let payload ← fromValue rt.reviewAssessmentRecorded event.payload
    let trackId ← Result.okOr event.target.trackId
      (.message (text "assessment event missing track id"))
    .ok (some (revisionId, { event, payload, trackId }))

def enterAssessment (byRevision : AssessmentTable V)
    (entry : Option (RevisionId × AssessmentEventRecord V)) : AssessmentTable V :=
  entry.elim byRevision fun (revisionId, record) =>
    byRevision.insert revisionId (insertLeast compare (·.event.eventId)
      (byRevision[revisionId]?.getD ∅) record.payload.assessmentId record)

variable (rt) in
theorem collectAssessmentRecord_eq (byRevision : AssessmentTable V) (event : ShoreEvent V) :
    collectAssessmentRecord rt byRevision event =
      (readAssessment rt event).map (enterAssessment byRevision) := by
  rw [collectAssessmentRecord, readAssessment]
  cases event.subjectRevisionId rt with
  | error e => rfl
  | ok subject =>
    cases subject with
    | none => rfl
    | some revisionId =>
      simp only [bind, Except.bind]
      cases fromValue rt.reviewAssessmentRecorded event.payload with
      | error e => rfl
      | ok payload => cases Result.okOr event.target.trackId _ <;> rfl

theorem readAssessment_eq_ok {event : ShoreEvent V}
    (h : event.eventType = .reviewAssessmentRecorded)
    {entry : Option (RevisionId × AssessmentEventRecord V)} :
    readAssessment rt event = .ok entry ↔ ∃ payload trackId,
      rt.reviewAssessmentRecorded event.payload = .ok payload ∧
      event.target.trackId = some trackId ∧
      entry = some (payload.target.revisionOf, { event, payload, trackId }) := by
  rw [readAssessment, ShoreEvent.subjectRevisionId, reconstructSubject, h]
  cases hp : rt.reviewAssessmentRecorded event.payload with
  | error e => simp [fromValue, hp, Except.mapError, bind, Except.bind]
  | ok payload =>
    simp only [fromValue, hp, Except.mapError, bind, Except.bind, TargetRef.subjectRevisionId]
    cases ht : event.target.trackId with
    | none => simp [Result.okOr]
    | some trackId => simp [Result.okOr, eq_comm]

def assessmentRecordEntry (rt : Runtime V) (event : ShoreEvent V) :
    Option ((RevisionId × AssessmentId) × (EventId × AssessmentEventRecord V)) :=
  (readAssessment rt event).toOption.join.map fun (revisionId, record) =>
    ((revisionId, record.payload.assessmentId), (record.event.eventId, record))

def AssessmentEventRecord.fact (record : AssessmentEventRecord V) : ChangeAssessmentFact :=
  ⟨record.payload.assessmentId, record.payload.assessment, record.payload.replacesAssessmentIds⟩

variable (rt) in
/-- The kept records, stamped, are the least of each id. -/
def KeepsLeast (E : List (ShoreEvent V)) (byRevision : AssessmentTable V) : Prop :=
  ∀ r a, (byRevision[r]?.bind fun records => records[a]?).map (fun w => (w.event.eventId, w)) =
    leastOf compare (entries (assessmentRecordEntry rt) (r, a)
      (E.filter fun event => event.eventType = .reviewAssessmentRecorded))

theorem collectAssessmentRecordsByRevision_eq_ok
    (h : ∀ e ∈ E, e.eventType = .reviewAssessmentRecorded → ∃ x, readAssessment rt e = .ok x) :
    ∃ byRevision, collectAssessmentRecordsByRevision rt E = .ok byRevision ∧
      KeepsLeast rt E byRevision := by
  refine ⟨_, (foldlM_read (collectAssessmentRecord_eq rt)).mpr ⟨?_, rfl⟩, ?_⟩
  · intro e he
    rw [mem_filter, decide_eq_true_eq] at he
    exact h e he.1 he.2
  · intro r a
    refine get_foldl (fun (s : AssessmentTable V) (k : RevisionId × AssessmentId) =>
      (s[k.1]?.bind fun records => records[k.2]?).map fun w => (w.event.eventId, w)) _
      (least compare) ?_ _ ∅ (r, a)
    intro s e ⟨r, a⟩
    simp only [assessmentRecordEntry]
    cases readAssessment rt e with
    | error x => rfl
    | ok entry =>
      cases entry with
      | none => rfl
      | some entry =>
        obtain ⟨r', record⟩ := entry
        simp only [Except.toOption, Option.join_some, enterAssessment, Option.elim_some,
          BTreeMap.get_insert, Option.map_some, Prod.mk.injEq]
        by_cases hr : r' = r
        · subst hr
          simp only [if_true, Option.bind_some, true_and, get_insertLeast]
          cases s[r']? <;> simp
        · simp [hr]

/-- The event lists the assessment of the Revision. -/
structure Lists (rt : Runtime V) (E : List (ShoreEvent V)) (r : RevisionId) (event : ShoreEvent V)
    (payload : ReviewAssessmentRecordedPayload) : Prop where
  mem : event ∈ E
  eventType : event.eventType = .reviewAssessmentRecorded
  read : rt.reviewAssessmentRecorded event.payload = .ok payload
  revision : payload.target.revisionOf = r

theorem lists_of_collect (hcollect : KeepsLeast rt E byRevision)
    {r : RevisionId} {record : AssessmentEventRecord V}
    (h : record ∈ (byRevision[r]?.getD ∅).vals) : Lists rt E r record.event record.payload := by
  obtain ⟨a, ha⟩ := BTreeMap.mem_vals_iff.mp h
  have hkept := hcollect r a
  have hget : (byRevision[r]?.bind fun records => records[a]?) = some record := by
    cases hr : byRevision[r]? with
    | none => simp [hr] at ha
    | some records => simpa [hr] using ha
  rw [hget, Option.map_some] at hkept
  obtain ⟨e, he, hentry⟩ := mem_entries.mp (leastOf_spec hkept.symm).1
  rw [mem_filter, decide_eq_true_eq] at he
  simp only [assessmentRecordEntry, Option.map_eq_some_iff, Option.join_eq_some_iff,
    Result.toOption_eq_some, Prod.mk.injEq] at hentry
  obtain ⟨entry, hread, ⟨hr, -⟩, -, hrecord⟩ := hentry
  obtain ⟨payload, trackId, hp, -, hentry⟩ := (readAssessment_eq_ok he.2).mp hread
  cases hentry
  cases hrecord
  exact ⟨he.1, he.2, hp, hr⟩

theorem assessmentEntry_factOf {e : ShoreEvent V} (h : e.eventType = .reviewAssessmentRecorded)
    (hread : ∃ x, readAssessment rt e = .ok x) :
    ((factOf rt e).bind ChangeProjectionFact.assessmentEntry) =
      (assessmentRecordEntry rt e).map fun kv => (kv.1, (kv.2.1, kv.2.2.fact)) := by
  obtain ⟨entry, hentry⟩ := hread
  obtain ⟨payload, trackId, hp, -, rfl⟩ := (readAssessment_eq_ok h).mp hentry
  have hfact : factOf rt e = some (.assessment e.eventId payload.target.revisionOf
      payload.assessmentId payload.assessment payload.replacesAssessmentIds) :=
    factOf_eq_some.mpr ⟨h, rfl, payload, hp, rfl, rfl, rfl, rfl⟩
  rw [hfact, assessmentRecordEntry, hentry]
  rfl

theorem assessmentRecord_eq_of_collect
    (h : ∀ e ∈ E, e.eventType = .reviewAssessmentRecorded → ∃ x, readAssessment rt e = .ok x)
    (hcollect : KeepsLeast rt E byRevision) (r : RevisionId) :
    assessmentRecord (facts rt E) r =
      fun a => ((byRevision[r]?.getD ∅)[a]?).map fun w => (w.event.eventId, w.fact) := by
  funext a
  have hmap : entries (fun e => (factOf rt e).bind ChangeProjectionFact.assessmentEntry) (r, a) E =
      (entries (assessmentRecordEntry rt) (r, a)
        (E.filter fun event => event.eventType = .reviewAssessmentRecorded)).map
        fun v => (v.1, v.2.fact) := by
    refine (entries_filter ?_).symm.trans (entries_map ?_)
    · intro e _ v hv
      obtain ⟨f, hf, hentry⟩ := Option.bind_eq_some_iff.mp hv
      obtain ⟨rfl, -⟩ := ChangeProjectionFact.assessmentEntry_eq_some.mp hentry
      exact decide_eq_true (factOf_eq_some.mp hf).1
    · intro e he
      rw [mem_filter, decide_eq_true_eq] at he
      exact assessmentEntry_factOf he.2 (h e he.1 he.2)
  rw [assessmentRecord, facts, entries_filterMap, hmap, leastOf_map, ← hcollect, Option.map_map]
  cases byRevision[r]? <;> simp [Function.comp_def]

end Agreement

section Verdict

variable {V : Type} {rt : Runtime V}

theorem readAssessment_isOk {E : List (ShoreEvent V)} (hE : Readable rt E) {e : ShoreEvent V}
    (he : e ∈ E) (h : e.eventType = .reviewAssessmentRecorded) (htrack : e.target.trackId.isSome) :
    ∃ x, readAssessment rt e = .ok x := by
  have hread := hE e he
  rw [extractChangeProjectionFact, h] at hread
  obtain ⟨trackId, ht⟩ := Option.isSome_iff_exists.mp htrack
  cases hp : rt.reviewAssessmentRecorded e.payload with
  | error x => simp [fromValue, hp, Except.mapError, bind, Except.bind, Except.isOk, Except.toBool] at hread
  | ok payload => exact ⟨_, (readAssessment_eq_ok h).mpr ⟨payload, trackId, hp, ht, rfl⟩⟩

def summaryOf (options : AssessmentProjectionOptions V) (record : AssessmentEventRecord V) :
    Option Text × BodyContentState :=
  (readSummary options record.payload).toOption.getD (none, .present)

theorem projectAssessments_eq {options : AssessmentProjectionOptions V}
    {records : BTreeMap AssessmentId (AssessmentEventRecord V)}
    (hrecords : collectAssessmentRecords rt options.events options.revisionId = .ok records)
    (hfilter : options.trackFilter = none)
    (hsummary : ∀ record ∈ records.vals, ∃ x, readSummary options record.payload = .ok x) :
    projectAssessments rt options = .ok (presentAssessments options.includeAll
      (records.vals.map fun record => record.view
        (BTreeSet.collect (records.vals.flatMap (·.payload.replacesAssessmentIds)))
        (summaryOf options record))) := by
  have hviews : ∀ replacedIds, records.vals.mapM (assessmentViewFromEvent options replacedIds) =
      .ok (records.vals.map fun record => record.view replacedIds (summaryOf options record)) := by
    intro replacedIds
    refine Result.mapM_eq_ok ?_
    intro record hrecord
    obtain ⟨x, hx⟩ := hsummary record hrecord
    rw [assessmentViewFromEvent, summaryOf, hx]
    rfl
  have hshown : (records.vals.filter fun record => options.trackFilter.all (· = record.trackId)) =
      records.vals := by
    rw [hfilter]
    exact filter_true _
  rw [projectAssessments, hrecords]
  simp only [bind, Except.bind]
  rw [hshown, hviews]

/-- The current views are those of the records that nothing replaces, in some order. -/
theorem presentAssessments_records (includeAll : Bool) (records : List (AssessmentEventRecord V))
    (replacedIds : BTreeSet AssessmentId)
    (summary : AssessmentEventRecord V → Option Text × BodyContentState) :
    (presentAssessments includeAll
        (records.map fun record => record.view replacedIds (summary record))).1.records.Perm
      ((records.filter fun record => record.payload.assessmentId ∉ replacedIds).map
        fun record => record.view replacedIds (summary record)) := by
  refine ((perm_insertionSort assessmentViewLE _).filter _).trans ?_
  rw [filter_map]
  refine List.Perm.of_eq (congrArg _ (filter_congr fun record _ => ?_))
  simp [AssessmentEventRecord.view]

/-- A current Revision qualifies exactly when the assessment view has it resolved by one accepting
assessment. -/
theorem qualified_iff_resolved {options : AssessmentProjectionOptions V} {c : ChangeId}
    {v : ChangeView} (hv : changeView rt options.events c = some v)
    (hr : options.revisionId ∈ v.currentRevisions) (hfilter : options.trackFilter = none)
    (htrack : ∀ e ∈ options.events, e.eventType = .reviewAssessmentRecorded →
      e.target.trackId.isSome)
    (hsummary : ∀ event payload, Lists rt options.events options.revisionId event payload →
      ∃ x, readSummary options payload = .ok x) :
    ∃ view all, projectAssessments rt options = .ok (view, all) ∧
      (options.revisionId ∈ v.qualifiedCurrentRevisions ↔
        ∃ record, view.records = [record] ∧ view.status = .resolved record.assessment ∧
          Accepting record.assessment) := by
  obtain ⟨P, hP, hc⟩ := changeView_eq_some.mp hv
  have hE := projectChanges_isOk.mp ⟨P, hP⟩
  have hspec := changeView_spec hv
  have hread : ∀ e ∈ options.events, e.eventType = .reviewAssessmentRecorded →
      ∃ x, readAssessment rt e = .ok x :=
    fun e he h => readAssessment_isOk hE he h (htrack e he h)
  obtain ⟨byRevision, hby, hcollect⟩ := collectAssessmentRecordsByRevision_eq_ok hread
  have hrecord := assessmentRecord_eq_of_collect hread hcollect options.revisionId
  have hreads : ∀ record ∈ (byRevision[options.revisionId]?.getD ∅).vals,
      ∃ x, readSummary options record.payload = .ok x :=
    fun record h => hsummary record.event record.payload (lists_of_collect hcollect h)
  generalize hrec : byRevision[options.revisionId]?.getD ∅ = records at hrecord hreads
  have hrecords : collectAssessmentRecords rt options.events options.revisionId = .ok records := by
    rw [collectAssessmentRecords, hby, ← hrec]
    rfl
  have hid : ∀ (a : AssessmentId) w, records[a]? = some w →
      (w.event.eventId, w.fact).2.assessmentId = a := by
    intro a w hw
    refine assessmentRecord_id (r := options.revisionId) (F := facts rt options.events) ?_
    simp [hrecord, hw]
  have hmem : ∀ a, a ∈ BTreeSet.collect (records.vals.flatMap (·.payload.replacesAssessmentIds)) ↔
      ReplacedBy (fun a => records[a]?.map fun w => (w.event.eventId, w.fact)) a := by
    intro a
    rw [← mem_replaced]
    rfl
  have hok := projectAssessments_eq hrecords hfilter hreads
  generalize BTreeSet.collect (records.vals.flatMap (·.payload.replacesAssessmentIds)) = replaced
    at hmem hok
  have hperm := presentAssessments_records options.includeAll records.vals replaced
    (summaryOf options)
  generalize hshown : presentAssessments _ _ = shown at hok hperm
  have hstatus : shown.1.status = currentAssessmentStatus shown.1.records := by
    rw [← hshown]
    rfl
  refine ⟨shown.1, shown.2, hok, ?_⟩
  rw [hspec.qualified, ← hspec.current, and_iff_right hr, Qualified, hrecord,
    qualifiedBy_iff hid (p := fun record => record.payload.assessmentId ∉ replaced)
      fun w => by rw [decide_eq_true_eq, hmem]; rfl, hstatus]
  constructor
  · rintro ⟨w, hw, hacc⟩
    rw [hw, map_singleton, perm_singleton] at hperm
    rw [hperm]
    exact ⟨_, rfl, rfl, hacc⟩
  · rintro ⟨record, hone, _, hacc⟩
    rw [hone] at hperm
    obtain ⟨w, hw, hview⟩ := map_eq_singleton_iff.mp (perm_singleton.mp hperm.symm)
    refine ⟨w, hw, ?_⟩
    rw [← hview] at hacc
    exact hacc

end Verdict

section Replacement

open Recorded

/-- An assessment that asks for changes, and an accepting one that replaces it along with one of
another Revision. -/
def reassessed : List (ShoreEvent WirePayload) :=
  journal 1 [declared 1, proposed 1, member 1 1, assessed 1 1 .needsChanges [],
    assessed 2 1 .accepted [assessment 1, assessment 3], assessed 3 2 .needsChanges []]

/-- A status-only projection reads no summaries. -/
def statusOnly (events : List (ShoreEvent WirePayload)) (r : RevisionId) :
    AssessmentProjectionOptions WirePayload where
  backend := none
  events := events
  revisionId := r
  trackFilter := none
  includeSummary := false
  includeAll := false
  readForDisplay := false
  removalLens := none

theorem reassessed_resolved :
    ∃ v, changeView runtime reassessed (change 1) = some v ∧
      rev 1 ∈ v.qualifiedCurrentRevisions ∧
      ∃ view all, projectAssessments runtime (statusOnly reassessed (rev 1)) = .ok (view, all) ∧
        ∃ record, view.records = [record] ∧ view.status = .resolved record.assessment ∧
          Accepting record.assessment := by
  have hrun : ∃ v ∈ changeView runtime reassessed (change 1),
      rev 1 ∈ v.currentRevisions ∧ rev 1 ∈ v.qualifiedCurrentRevisions := by decide +kernel
  obtain ⟨v, hv, hcur, hqual⟩ := hrun
  have hv' : changeView runtime (statusOnly reassessed (rev 1)).events (change 1) = some v := hv
  obtain ⟨view, all, hok, hiff⟩ := qualified_iff_resolved hv' hcur rfl (by decide +kernel)
    fun _ payload _ => ⟨(none, .present), rfl⟩
  exact ⟨v, hv, hqual, view, all, hok, hiff.mp hqual⟩

end Replacement

end Pointbreak
