import Pointbreak.Lib.Latest
import Pointbreak.Projection.Resumption

/-!
# Projection.ResumptionOutline

What a verdict says, without the wording: the earliest open request is shown, then the first one
with several responses, then the first whose response fails, and otherwise the most recent response.
`resumptionOver_state` says what state the requests give, as the events open and answer them.
-/

namespace Pointbreak

open Std KeyedLog List

def TaskProjectionEventEnvelope.stamp (envelope : TaskProjectionEventEnvelope) : Text × Text :=
  (envelope.occurredAt, envelope.eventId.asStr)

def stampOrder : Text × Text → Text × Text → Ordering :=
  compareLex (compareOn Prod.fst) (compareOn Prod.snd)

instance : TransCmp stampOrder :=
  inferInstanceAs (TransCmp (compareLex (compareOn Prod.fst) (compareOn Prod.snd)))

instance : LawfulEqCmp stampOrder where
  eq_of_compare {left right} h := by
    obtain ⟨htime, hid⟩ := compareLex_eq_eq.mp h
    exact Prod.ext (LawfulEqCmp.eq_of_compare htime) (LawfulEqCmp.eq_of_compare hid)

def reverseStampOrder (left right : Text × Text) : Ordering := stampOrder right left

instance : TransCmp reverseStampOrder :=
  (TransCmp.opposite : TransCmp fun left right => stampOrder right left)

theorem envelopeChronologicalOrder_eq (left right : TaskProjectionEventEnvelope) :
    envelopeChronologicalOrder left right = stampOrder left.stamp right.stamp := rfl

theorem earliestRecord_eq (records : List TaskInputRequestRecord) :
    earliestRecord records = leastBy stampOrder (fun record => record.view.envelope.stamp) records := by
  induction records using List.reverseRecOn with
  | nil => rfl
  | append_singleton records record ih =>
    rw [leastBy_append_singleton, ← ih, earliestRecord, foldl_append, ← earliestRecord,
      foldl_cons, foldl_nil]
    cases earliestRecord records with
    | none => rfl
    | some earliest =>
      simp only [Option.elim_some, envelopeChronologicalOrder_eq, OrientedCmp.gt_iff_lt]
      split <;> rfl

section Outline

/-- What the verdict says, without the wording. -/
structure ResumptionOutline where
  mayResume : Bool
  state : AgentResumptionState
  latestCheckpoint : Option CheckpointId
  selectedInputRequest : Option InputRequestId
deriving DecidableEq

abbrev ResumptionOutline.held (latestCheckpoint : Option CheckpointId)
    (state : AgentResumptionState) (inputRequestId : InputRequestId) : ResumptionOutline where
  mayResume := false
  state
  latestCheckpoint
  selectedInputRequest := some inputRequestId

def AgentResumptionProjection.outline (projection : AgentResumptionProjection) :
    ResumptionOutline where
  mayResume := projection.mayResume
  state := projection.state
  latestCheckpoint := projection.latestCheckpoint
  selectedInputRequest := projection.selectedInputRequest.map (·.inputRequestId)

variable (reader : ResumptionReader) (attempt : AttemptState)

def fails (record : TaskInputRequestRecord) : Bool :=
  record.responses.head?.any fun response =>
    (attempt.freshness record.view response).isStale || !reader.permits response

def isStale (record : TaskInputRequestRecord) : Bool :=
  record.responses.head?.any fun response => (attempt.freshness record.view response).isStale

def satisfiedRequest (record : TaskInputRequestRecord) : Option SatisfiedRequest :=
  record.responses.head?.map fun response =>
    { view := record.view,
      response := reader.responsePolicyView response (attempt.freshness record.view response),
      freshness := attempt.freshness record.view response }

variable {reader attempt} {records : List TaskInputRequestRecord}

/-- The first record that fails decides; if there is none, the most recent response is shown. -/
theorem evaluateAnswered_outline (records : List TaskInputRequestRecord)
    (lastSatisfied : Option SatisfiedRequest) (advisories : List TaskProjectionDiagnostic) :
    (evaluateAnswered reader attempt lastSatisfied advisories records).outline =
      match records.find? (fails reader attempt) with
      | some record => .held attempt.latestCheckpoint
          (if isStale attempt record then .stale else .blocked) record.view.inputRequestId
      | none =>
        { mayResume := true, state := .ready, latestCheckpoint := attempt.latestCheckpoint,
          selectedInputRequest := ((records.filterMap (satisfiedRequest reader attempt)).foldl
            (fun last satisfied => some (keepMostRecent satisfied last)) lastSatisfied).map
              (·.view.inputRequestId) } := by
  induction records generalizing lastSatisfied advisories with
  | nil =>
    cases lastSatisfied <;> rfl
  | cons record records ih =>
    rw [evaluateAnswered, find?_cons, filterMap_cons]
    cases hresponses : record.responses with
    | nil =>
      simp only [fails, satisfiedRequest, hresponses, head?_nil, Option.any_none,
        Option.map_none]
      exact ih lastSatisfied advisories
    | cons response rest =>
      simp only [fails, satisfiedRequest, hresponses, head?_cons, Option.any_some,
        Option.map_some, foldl_cons]
      have his : isStale attempt record = (attempt.freshness record.view response).isStale := by
        simp [isStale, hresponses]
      cases hstale : (attempt.freshness record.view response).isStale with
      | true =>
        simp only [his, hstale, Bool.true_or, if_true]
        rfl
      | false =>
        cases hpermits : reader.permits response with
        | false =>
          simp only [his, hstale, Bool.not_false, Bool.or_true, if_true, Bool.false_eq_true,
            if_false]
          rfl
        | true =>
          simp only [Bool.not_true, Bool.or_false, Bool.false_eq_true, if_false]
          exact ih _ _

theorem foldl_keepMostRecent (satisfied : List SatisfiedRequest) :
    satisfied.foldl (fun last satisfied => some (keepMostRecent satisfied last)) none =
      leastBy reverseStampOrder (fun satisfied => satisfied.response.envelope.stamp) satisfied := by
  induction satisfied using List.reverseRecOn with
  | nil => rfl
  | append_singleton satisfied next ih =>
    rw [foldl_append, ih, foldl_cons, foldl_nil, leastBy_append_singleton]
    cases leastBy reverseStampOrder (fun satisfied : SatisfiedRequest =>
        satisfied.response.envelope.stamp) satisfied with
    | none => rfl
    | some last =>
      simp only [keepMostRecent, Option.elim_some, envelopeChronologicalOrder_eq, reverseStampOrder]
      by_cases hlater : stampOrder last.response.envelope.stamp next.response.envelope.stamp = .lt
      · simp [hlater]
      · simp [hlater, Ordering.isGE_iff_ne_lt]

theorem resumptionOver_open {earliest : TaskInputRequestRecord}
    (h : earliestRecord (records.filter fun record => record.responses.isEmpty) = some earliest) :
    (resumptionOver reader attempt records).outline =
      .held attempt.latestCheckpoint .blocked earliest.view.inputRequestId := by
  rw [resumptionOver, h]
  rfl

section Answered

variable (hanswered : ∀ record ∈ records, record.responses ≠ [])
include hanswered

theorem earliest_open_eq_none :
    earliestRecord (records.filter fun record => record.responses.isEmpty) = none := by
  rw [earliestRecord_eq_none, filter_eq_nil_iff]
  intro record hrecord hempty
  exact hanswered record hrecord (isEmpty_iff.mp hempty)

theorem resumptionOver_many {many : TaskInputRequestRecord}
    (h : (records.find? fun record => 1 < record.responses.length) = some many) :
    (resumptionOver reader attempt records).outline =
      .held attempt.latestCheckpoint .ambiguous many.view.inputRequestId := by
  rw [resumptionOver, earliest_open_eq_none hanswered]
  simp only [h]
  rfl

theorem resumptionOver_single (h : ∀ record ∈ records, ¬ 1 < record.responses.length) :
    resumptionOver reader attempt records = evaluateAnswered reader attempt none [] records := by
  have hnone : (records.find? fun record => 1 < record.responses.length) = none := by
    simpa [find?_eq_none] using h
  rw [resumptionOver, earliest_open_eq_none hanswered]
  simp only [hnone]

end Answered

theorem fails_iff {view : TaskInputRequestView} {response : TaskInputRequestResponseRecord} :
    fails reader attempt { view, responses := [response] } = true ↔
      ¬ Satisfies reader attempt view response := by
  rw [satisfies_iff]
  cases hstale : (attempt.freshness view response).isStale <;> simp [fails, hstale]

theorem exists_earliest (h : ∃ record ∈ records, record.responses = []) :
    ∃ earliest, earliestRecord (records.filter fun record => record.responses.isEmpty) =
      some earliest := by
  obtain ⟨record, hrecord, hnil⟩ := h
  refine Option.ne_none_iff_exists'.mp fun hnone => ?_
  rw [earliestRecord_eq_none, filter_eq_nil_iff] at hnone
  exact hnone record hrecord (isEmpty_iff.mpr hnil)

theorem exists_first_many (h : ∃ record ∈ records, 1 < record.responses.length) :
    ∃ many, (records.find? fun record => 1 < record.responses.length) = some many := by
  obtain ⟨record, hrecord, hlength⟩ := h
  rw [← Option.isSome_iff_exists, find?_isSome]
  exact ⟨record, hrecord, decide_eq_true hlength⟩

theorem resumptionOver_mayResume :
    (resumptionOver reader attempt records).mayResume = true ↔ ∀ record ∈ records,
      ∃ response, record.responses = [response] ∧
        Satisfies reader attempt record.view response := by
  change (resumptionOver reader attempt records).outline.mayResume = true ↔ _
  by_cases hanswered : ∀ record ∈ records, record.responses ≠ []
  swap
  · push Not at hanswered
    obtain ⟨earliest, hearliest⟩ := exists_earliest hanswered
    obtain ⟨record, hrecord, hnil⟩ := hanswered
    rw [resumptionOver_open hearliest]
    refine iff_of_false Bool.false_ne_true fun h => ?_
    obtain ⟨response, hone, -⟩ := h record hrecord
    cases hnil.symm.trans hone
  by_cases hsingle : ∀ record ∈ records, ¬ 1 < record.responses.length
  swap
  · push Not at hsingle
    obtain ⟨many, hmany⟩ := exists_first_many hsingle
    rw [resumptionOver_many hanswered hmany]
    refine iff_of_false Bool.false_ne_true fun h => ?_
    obtain ⟨response, hone, -⟩ := h many (mem_of_find?_eq_some hmany)
    simpa [hone] using find?_some hmany
  rw [resumptionOver_single hanswered hsingle, evaluateAnswered_outline]
  cases hfind : records.find? (fails reader attempt) with
  | some record =>
    refine iff_of_false Bool.false_ne_true fun h => ?_
    obtain ⟨response, hone, hsatisfies⟩ := h record (mem_of_find?_eq_some hfind)
    obtain ⟨view, responses⟩ := record
    subst hone
    exact fails_iff.mp (find?_some hfind) hsatisfies
  | none =>
    refine iff_of_true rfl fun record hrecord => ?_
    have hpos := length_pos_of_ne_nil (hanswered record hrecord)
    have hone := hsingle record hrecord
    obtain ⟨response, hresponse⟩ := length_eq_one_iff.mp (by omega : record.responses.length = 1)
    refine ⟨response, hresponse, ?_⟩
    obtain ⟨view, responses⟩ := record
    subst hresponse
    exact not_not.mp (mt fails_iff.mpr (find?_eq_none.mp hfind _ hrecord))

end Outline

section Checkpoints

variable {checkpoints : List TaskCheckpointSummary} {checkpoint latest : TaskCheckpointSummary}

def lastCheckpoints (checkpoints : List TaskCheckpointSummary) :
    BTreeMap CheckpointId TaskCheckpointSummary :=
  checkpoints.foldl (fun map checkpoint => map.insert checkpoint.checkpointId checkpoint) ∅

def latestAmong (checkpoints : List TaskCheckpointSummary) : Option TaskCheckpointSummary :=
  latestOf ((lastCheckpoints checkpoints).vals.insertionSort checkpointLE)

theorem get_lastCheckpoints (checkpoints : List TaskCheckpointSummary) (id : CheckpointId) :
    (lastCheckpoints checkpoints)[id]? =
      (checkpoints.filter fun checkpoint => checkpoint.checkpointId = id).getLast? := by
  rw [← entries_some TaskCheckpointSummary.checkpointId, ← foldl_last]
  refine get_foldl_put (fun map => map) ?_ checkpoints ∅ id
  exact fun _ _ => rfl

theorem of_get_lastCheckpoints {id : CheckpointId}
    (h : (lastCheckpoints checkpoints)[id]? = some checkpoint) :
    checkpoint ∈ checkpoints ∧ checkpoint.checkpointId = id := by
  rw [get_lastCheckpoints] at h
  obtain ⟨hmem, hid⟩ := mem_filter.mp (mem_of_getLast? h)
  exact ⟨hmem, of_decide_eq_true hid⟩

def checkpointOrder (left right : TaskCheckpointSummary) : Ordering :=
  stampOrder left.envelope.stamp right.envelope.stamp

instance : TransCmp checkpointOrder where
  eq_swap {_ _} := @OrientedCmp.eq_swap _ stampOrder _ _ _
  isLE_trans hab hbc := @TransCmp.isLE_trans _ stampOrder _ _ _ _ hab hbc

theorem latestOf_eq (checkpoints : List TaskCheckpointSummary) :
    latestOf checkpoints = maxBy checkpointOrder checkpoints := by
  refine congrArg (fun step => checkpoints.foldl step none) (funext₂ fun latest checkpoint => ?_)
  cases latest with
  | none => rfl
  | some latest =>
    simp only [Option.elim_some, envelopeChronologicalOrder_eq, checkpointOrder]
    exact (apply_ite some _ _ _).symm

theorem mem_sorted_lastCheckpoints :
    checkpoint ∈ (lastCheckpoints checkpoints).vals.insertionSort checkpointLE ↔
      ∃ id : CheckpointId, (lastCheckpoints checkpoints)[id]? = some checkpoint := by
  rw [mem_insertionSort, BTreeMap.mem_vals_iff]

/-- The latest checkpoint is the last carrier of its id, and no last carrier is later. -/
theorem latestAmong_spec (h : latestAmong checkpoints = some latest) :
    (lastCheckpoints checkpoints)[latest.checkpointId]? = some latest ∧
      ∀ (id : CheckpointId) (last : TaskCheckpointSummary),
        (lastCheckpoints checkpoints)[id]? = some last →
        (stampOrder last.envelope.stamp latest.envelope.stamp).isLE = true := by
  rw [latestAmong, latestOf_eq] at h
  obtain ⟨hmem, hle⟩ := maxBy_spec h
  constructor
  · obtain ⟨id, hid⟩ := mem_sorted_lastCheckpoints.mp hmem
    rwa [(of_get_lastCheckpoints hid).2]
  · intro id last hlast
    exact Ordering.isLE_iff_ne_gt.mpr (hle last (mem_sorted_lastCheckpoints.mpr ⟨id, hlast⟩))

theorem exists_last (h : checkpoint ∈ checkpoints) :
    ∃ last ∈ checkpoints, last.checkpointId = checkpoint.checkpointId ∧
      (lastCheckpoints checkpoints)[checkpoint.checkpointId]? = some last := by
  have hne : (checkpoints.filter fun other =>
      other.checkpointId = checkpoint.checkpointId) ≠ [] :=
    ne_nil_of_mem (mem_filter.mpr ⟨h, decide_eq_true rfl⟩)
  obtain ⟨last, hlast⟩ := Option.isSome_iff_exists.mp (getLast?_isSome.mpr hne)
  rw [← get_lastCheckpoints] at hlast
  obtain ⟨hmem, hid⟩ := of_get_lastCheckpoints hlast
  exact ⟨last, hmem, hid, hlast⟩

theorem latestAmong_eq_none : latestAmong checkpoints = none ↔ checkpoints = [] := by
  constructor
  · intro h
    rw [eq_nil_iff_forall_not_mem]
    intro checkpoint hmem
    obtain ⟨last, -, -, hget⟩ := exists_last hmem
    rw [latestAmong, latestOf_eq, maxBy_eq_none] at h
    have hin := mem_sorted_lastCheckpoints.mpr ⟨_, hget⟩
    rw [h] at hin
    cases hin
  · rintro rfl
    rfl

theorem stampOrder_isLE_fst {left right : Text × Text} (h : (stampOrder left right).isLE = true) :
    (compare left.1 right.1).isLE = true := by
  have hthen : stampOrder left right = (compare left.1 right.1).then (compare left.2 right.2) := rfl
  rw [hthen] at h
  cases htime : compare left.1 right.1 with
  | lt => rfl
  | eq => rfl
  | gt =>
    rw [htime] at h
    cases h

end Checkpoints

section Attempt

variable {V B : Type} {rt : StoreRuntime V B} {taskAttemptId : WorkObjectId}
  {events : List (StoredEvent V)}

theorem attemptFold_checkpoints : (attemptFold rt taskAttemptId events).checkpoints =
    lastCheckpoints (events.filterMap (checkpointOf rt taskAttemptId)) := by
  have hfold : ∀ (log : List (StoredEvent V)) (fold : TaskAttemptFold),
      (log.foldl (attemptStep rt taskAttemptId) fold).checkpoints =
        (log.filterMap (checkpointOf rt taskAttemptId)).foldl
          (fun map checkpoint => map.insert checkpoint.checkpointId checkpoint) fold.checkpoints := by
    intro log
    induction log with
    | nil => exact fun fold => rfl
    | cons event log ih =>
      intro fold
      rw [foldl_cons, ih]
      cases hcheckpoint : checkpointOf rt taskAttemptId event <;>
        simp [attemptStep, hcheckpoint]
  exact hfold events {}

end Attempt

section Standing

variable {V B : Type} (rt : StoreRuntime V B) (events : List (StoredEvent V))
  (taskAttemptId : WorkObjectId) (reader : ResumptionReader)

/-- Some operative request is open: an earlier event has opened it, or no response id is first seen
for it. -/
def Unresponded : Prop :=
  ∃ front request back, events.filterMap (taskRequestOf rt) = front ++ request :: back ∧
    request.mode = .operative ∧ (request.inputRequestId ∈ front.map (·.inputRequestId) ∨
      ∀ id, ¬ FirstNames rt events reader.trustSet id request.inputRequestId)

/-- Two response ids are first seen for an operative request. -/
def Contested : Prop :=
  ∃ request ∈ events.filterMap (taskRequestOf rt), request.mode = .operative ∧ ∃ id id', id ≠ id' ∧
    FirstNames rt events reader.trustSet id request.inputRequestId ∧
    FirstNames rt events reader.trustSet id' request.inputRequestId

/-- The operative requests before this one are satisfied, and this one is not by its one response. -/
structure FirstFailure (request : TaskInputRequestView) (record : TaskInputRequestResponseRecord) :
    Prop where
  reached : ∃ front back, events.filterMap (taskRequestOf rt) = front ++ request :: back ∧
    ∀ earlier ∈ front, earlier.mode = .operative → ∃ id other,
      SoleAnswer rt events reader.trustSet earlier.inputRequestId id other ∧
        Satisfies reader (attemptStateOf rt taskAttemptId events) earlier other
  operative : request.mode = .operative
  answered : ∃ id, SoleAnswer rt events reader.trustSet request.inputRequestId id record
  fails : ¬ Satisfies reader (attemptStateOf rt taskAttemptId events) request record

/-- The first failure is a stale response, or a fresh one that does not permit. -/
def FailsFirst (stale : Bool) : Prop :=
  ∃ request record, FirstFailure rt events taskAttemptId reader request record ∧
    ((attemptStateOf rt taskAttemptId events).freshness request record).isStale = stale

variable {rt events taskAttemptId reader} {trustSet : TrustSet} {inputRequestId : InputRequestId}

theorem responsesTo_eq_nil : responsesTo rt events trustSet inputRequestId = [] ↔
    ∀ id, ¬ FirstNames rt events trustSet id inputRequestId := by
  rw [eq_nil_iff_forall_not_mem]
  constructor
  · intro h id hid
    obtain ⟨answer, hanswer, -⟩ := mem_of_head_fst hid
    obtain ⟨lowest, -, hlowest⟩ := lowestCarrier_isSome (ne_nil_of_mem hanswer)
    exact h lowest.2 (mem_responsesTo.mpr ⟨id, standsFor_eq_some.mpr ⟨hid, by rw [hlowest]; rfl⟩⟩)
  · intro h record hrecord
    obtain ⟨id, hstands⟩ := mem_responsesTo.mp hrecord
    exact h id (standsFor_eq_some.mp hstands).1

theorem one_lt_responsesTo : 1 < (responsesTo rt events trustSet inputRequestId).length ↔
    ∃ id id', id ≠ id' ∧ FirstNames rt events trustSet id inputRequestId ∧
      FirstNames rt events trustSet id' inputRequestId := by
  constructor
  · intro hlength
    by_contra! hone
    obtain ⟨record, hrecord⟩ := exists_mem_of_ne_nil _
      (ne_nil_of_length_pos (Nat.zero_lt_of_lt hlength))
    obtain ⟨id, hstands⟩ := mem_responsesTo.mp hrecord
    obtain ⟨hfirst, hlowest⟩ := standsFor_eq_some.mp hstands
    have hsingle := exists_soleAnswer.mp ⟨id, hfirst,
      fun id' hid' => by_contra fun hne => hone id id' (Ne.symm hne) hfirst hid', hlowest⟩
    rw [hsingle] at hlength
    exact absurd hlength (Nat.lt_irrefl 1)
  · rintro ⟨id, id', hne, hid, hid'⟩
    match hresponses : responsesTo rt events trustSet inputRequestId with
    | [] => exact absurd hid (responsesTo_eq_nil.mp hresponses id)
    | [record] =>
      obtain ⟨only, honly⟩ := exists_soleAnswer.mpr hresponses
      exact absurd ((honly.only id hid).trans (honly.only id' hid').symm) hne
    | _ :: _ :: _ => simp

theorem mem_operativeRecords {record : TaskInputRequestRecord} :
    record ∈ operativeRecords rt events reader ↔ record.view.mode = .operative ∧
      ∃ front back, events.filterMap (taskRequestOf rt) = front ++ record.view :: back ∧
        record.responses = if record.view.inputRequestId ∈ front.map (·.inputRequestId) then []
          else responsesTo rt events reader.trustSet record.view.inputRequestId := by
  simp only [operativeRecords, mem_filter, mem_assignResponses, getD_responsesByInputRequest,
    decide_eq_true_eq]
  constructor
  · rintro ⟨⟨front, view, back, hviews, rfl⟩, hmode⟩
    exact ⟨hmode, front, back, hviews, rfl⟩
  · rintro ⟨hmode, front, back, hviews, hresponses⟩
    exact ⟨⟨front, record.view, back, hviews, by rw [← hresponses]⟩, hmode⟩

theorem exists_open_iff :
    (∃ record ∈ operativeRecords rt events reader, record.responses = []) ↔
      Unresponded rt events reader := by
  simp only [mem_operativeRecords]
  constructor
  · rintro ⟨record, ⟨hmode, front, back, hviews, hresponses⟩, hnil⟩
    refine ⟨front, record.view, back, hviews, hmode, ?_⟩
    by_cases hearlier : record.view.inputRequestId ∈ front.map (·.inputRequestId)
    · exact .inl hearlier
    · rw [hnil, if_neg hearlier] at hresponses
      exact .inr (responsesTo_eq_nil.mp hresponses.symm)
  · rintro ⟨front, request, back, hviews, hmode, hopen⟩
    refine ⟨{ view := request, responses := [] }, ⟨hmode, front, back, hviews, ?_⟩, rfl⟩
    rcases hopen with hearlier | hnone
    · rw [if_pos hearlier]
    · rw [responsesTo_eq_nil.mpr hnone, ite_self]

theorem operative_assignResponses_once
    {groups : BTreeMap InputRequestId (List TaskInputRequestResponseRecord)}
    {views : List TaskInputRequestView}
    (honce : ∀ front view back, views = front ++ view :: back → view.mode = .operative →
      view.inputRequestId ∉ front.map (·.inputRequestId)) :
    (assignResponses groups views).filter (fun record => record.view.mode = .operative) =
      (views.filter fun view => view.mode = .operative).map fun view =>
        { view, responses := groups[view.inputRequestId]?.getD [] } := by
  induction views generalizing groups with
  | nil => rfl
  | cons view views ih =>
    have hviews : ∀ front later back, views = front ++ later :: back → later.mode = .operative →
        later.inputRequestId ∉ front.map (·.inputRequestId) := by
      rintro front later back rfl hmode hmem
      exact honce (view :: front) later back rfl hmode (mem_cons_of_mem _ hmem)
    have hrest : ∀ later ∈ views.filter fun view => view.mode = .operative,
        (groups.erase view.inputRequestId)[later.inputRequestId]? =
          groups[later.inputRequestId]? := by
      intro later hlater
      obtain ⟨hmem, hmode⟩ := mem_filter.mp hlater
      obtain ⟨front, back, rfl⟩ := append_of_mem hmem
      have hne := honce (view :: front) later back rfl (of_decide_eq_true hmode)
      rw [BTreeMap.get_erase, if_neg fun hsame => hne (by simp [hsame])]
    rw [assignResponses, filter_cons, filter_cons, ih hviews,
      map_congr_left fun later hlater => by rw [hrest later hlater]]
    by_cases hmode : view.mode = .operative
    · rw [if_pos (decide_eq_true hmode), if_pos (decide_eq_true hmode), map_cons]
    · rw [if_neg (by simpa using hmode), if_neg (by simpa using hmode)]

theorem operativeRecords_eq (hopen : ¬ Unresponded rt events reader) :
    operativeRecords rt events reader =
      ((events.filterMap (taskRequestOf rt)).filter fun view => view.mode = .operative).map
        fun view => { view, responses := responsesTo rt events reader.trustSet view.inputRequestId } := by
  rw [operativeRecords, operative_assignResponses_once]
  · simp only [getD_responsesByInputRequest]
  · intro front view back hviews hmode hmem
    exact hopen ⟨front, view, back, hviews, hmode, .inl hmem⟩

theorem exists_many_iff (hopen : ¬ Unresponded rt events reader) :
    (∃ record ∈ operativeRecords rt events reader, 1 < record.responses.length) ↔
      Contested rt events reader := by
  simp only [operativeRecords_eq hopen, mem_map, mem_filter, decide_eq_true_eq]
  constructor
  · rintro ⟨-, ⟨view, ⟨hview, hmode⟩, rfl⟩, hlength⟩
    exact ⟨view, hview, hmode, one_lt_responsesTo.mp hlength⟩
  · rintro ⟨view, hview, hmode, hmany⟩
    exact ⟨_, ⟨view, ⟨hview, hmode⟩, rfl⟩, one_lt_responsesTo.mpr hmany⟩

section Answered

variable (hopen : ¬ Unresponded rt events reader) (hone : ¬ Contested rt events reader)
include hopen hone

theorem exists_answer {view : TaskInputRequestView}
    (hview : view ∈ events.filterMap (taskRequestOf rt)) (hmode : view.mode = .operative) :
    ∃ response, responsesTo rt events reader.trustSet view.inputRequestId = [response] := by
  have hnil : responsesTo rt events reader.trustSet view.inputRequestId ≠ [] := by
    intro hnil
    obtain ⟨front, back, hviews⟩ := append_of_mem hview
    exact hopen ⟨front, view, back, hviews, hmode, .inr (responsesTo_eq_nil.mp hnil)⟩
  have hmany : ¬ 1 < (responsesTo rt events reader.trustSet view.inputRequestId).length :=
    fun hlength => hone ⟨view, hview, hmode, one_lt_responsesTo.mp hlength⟩
  have hpos := length_pos_of_ne_nil hnil
  exact length_eq_one_iff.mp (by omega)

theorem failsFirst_iff {stale : Bool} : FailsFirst rt events taskAttemptId reader stale ↔
    ∃ record, (operativeRecords rt events reader).find?
        (fails reader (attemptStateOf rt taskAttemptId events)) = some record ∧
      isStale (attemptStateOf rt taskAttemptId events) record = stale := by
  -- an operative request fails when its one response does not satisfy it
  have hfails : ∀ (view : TaskInputRequestView) record,
      (∃ id, SoleAnswer rt events reader.trustSet view.inputRequestId id record) →
        (fails reader (attemptStateOf rt taskAttemptId events)
          { view, responses := responsesTo rt events reader.trustSet view.inputRequestId } = true ↔
          ¬ Satisfies reader (attemptStateOf rt taskAttemptId events) view record) := by
    intro view record hrecord
    rw [exists_soleAnswer.mp hrecord, fails_iff]
  rw [operativeRecords_eq hopen, find?_map, find?_filter]
  simp only [Option.map_eq_some_iff, find?_eq_some_iff_append, Function.comp_def]
  constructor
  · rintro ⟨request, record, hfirst, hstale⟩
    obtain ⟨front, back, hviews, hearlier⟩ := hfirst.reached
    refine ⟨_, ⟨request, ⟨?_, front, back, hviews, fun earlier hmem => ?_⟩, rfl⟩, ?_⟩
    · simp [hfirst.operative, (hfails request record hfirst.answered).mpr hfirst.fails]
    · by_cases hmode : earlier.mode = .operative
      · obtain ⟨id, other, hanswered, hsatisfies⟩ := hearlier earlier hmem hmode
        have hnot := mt (hfails earlier other ⟨id, hanswered⟩).mp (not_not.mpr hsatisfies)
        simpa [hmode] using hnot
      · simp [hmode]
    · rw [exists_soleAnswer.mp hfirst.answered]
      simpa [isStale] using hstale
  · rintro ⟨-, ⟨request, ⟨hfound, front, back, hviews, hearlier⟩, rfl⟩, hstale⟩
    obtain ⟨hmode, hfailing⟩ := of_decide_eq_true hfound
    have hin : ∀ view, view ∈ front ∨ view = request →
        view ∈ events.filterMap (taskRequestOf rt) := by
      rintro view (hmem | rfl)
      · exact hviews ▸ mem_append_left _ hmem
      · exact hviews ▸ mem_append_right _ (.head _)
    obtain ⟨record, hrecord⟩ := exists_answer hopen hone (hin request (.inr rfl))
      (of_decide_eq_true hmode)
    have hanswered := exists_soleAnswer.mpr hrecord
    refine ⟨request, record, ⟨⟨front, back, hviews, fun earlier hmem hmode => ?_⟩,
      of_decide_eq_true hmode, hanswered, (hfails request record hanswered).mp hfailing⟩, ?_⟩
    · obtain ⟨other, hother⟩ := exists_answer hopen hone (hin earlier (.inl hmem)) hmode
      obtain ⟨id, hanswered'⟩ := exists_soleAnswer.mpr hother
      refine ⟨id, other, hanswered', not_not.mp fun hfail => ?_⟩
      have hfailing' := (hfails earlier other ⟨id, hanswered'⟩).mpr hfail
      have hnot := hearlier earlier hmem
      simp [hmode, hfailing'] at hnot
    · rw [hrecord] at hstale
      simpa [isStale] using hstale

end Answered

theorem answered_of_not_unresponded (hopen : ¬ Unresponded rt events reader) :
    ∀ record ∈ operativeRecords rt events reader, record.responses ≠ [] :=
  fun record hrecord hnil => hopen (exists_open_iff.mp ⟨record, hrecord, hnil⟩)

theorem single_of_not_contested (hopen : ¬ Unresponded rt events reader)
    (hone : ¬ Contested rt events reader) :
    ∀ record ∈ operativeRecords rt events reader, ¬ 1 < record.responses.length :=
  fun record hrecord hlength => hone ((exists_many_iff hopen).mp ⟨record, hrecord, hlength⟩)

/-- What the verdict makes of how the requests stand. -/
theorem resumptionOver_state : (resumptionOver reader (attemptStateOf rt taskAttemptId events)
      (operativeRecords rt events reader)).state =
    open Classical in
    if Unresponded rt events reader then .blocked
    else if Contested rt events reader then .ambiguous
    else if FailsFirst rt events taskAttemptId reader true then .stale
    else if FailsFirst rt events taskAttemptId reader false then .blocked else .ready := by
  change (resumptionOver reader (attemptStateOf rt taskAttemptId events)
    (operativeRecords rt events reader)).outline.state = _
  by_cases hopen : Unresponded rt events reader
  · obtain ⟨earliest, hearliest⟩ := exists_earliest (exists_open_iff.mpr hopen)
    rw [if_pos hopen, resumptionOver_open hearliest]
  have hanswered := answered_of_not_unresponded hopen
  rw [if_neg hopen]
  by_cases hone : Contested rt events reader
  · obtain ⟨many, hmany⟩ := exists_first_many ((exists_many_iff hopen).mpr hone)
    rw [if_pos hone, resumptionOver_many hanswered hmany]
  · rw [if_neg hone, resumptionOver_single hanswered (single_of_not_contested hopen hone),
      evaluateAnswered_outline]
    simp only [failsFirst_iff hopen hone]
    cases (operativeRecords rt events reader).find?
        (fails reader (attemptStateOf rt taskAttemptId events)) with
    | none => simp
    | some record =>
      cases hstale : isStale (attemptStateOf rt taskAttemptId events) record <;> simp [hstale]

theorem resumptionOver_mayResume_state {attempt : AttemptState}
    {records : List TaskInputRequestRecord} :
    (resumptionOver reader attempt records).mayResume =
      decide ((resumptionOver reader attempt records).state = .ready) := by
  rw [resumptionOver]
  split
  · rfl
  · split
    · rfl
    · change (evaluateAnswered reader attempt none [] records).outline.mayResume =
        decide ((evaluateAnswered reader attempt none [] records).outline.state = .ready)
      rw [evaluateAnswered_outline]
      split
      · split <;> rfl
      · rfl

variable {projection : AgentResumptionProjection}

/-- The agent may resume when the attempt was proposed and each operative request is opened once,
and answered by one response that satisfies it. -/
theorem mayResume_iff
    (h : agentResumptionWithPrincipalPolicy rt events taskAttemptId reader = .ok projection) :
    projection.mayResume = true ↔ (∃ event ∈ events, proposes rt taskAttemptId event = true) ∧
      ∀ front view back, events.filterMap (taskRequestOf rt) = front ++ view :: back →
        view.mode = .operative → view.inputRequestId ∉ front.map (·.inputRequestId) ∧
        ∃ response, responsesTo rt events reader.trustSet view.inputRequestId = [response] ∧
          Satisfies reader (attemptStateOf rt taskAttemptId events) view response := by
  obtain ⟨-, h⟩ := agentResumption_eq_ok.mp h
  by_cases hproposed : ∃ event ∈ events, proposes rt taskAttemptId event = true
  · rw [if_pos hproposed] at h
    obtain ⟨-, rfl⟩ := h
    rw [resumptionOver_mayResume]
    simp only [hproposed, true_and, mem_operativeRecords]
    constructor
    · intro hall front view back hviews hmode
      by_cases hlater : view.inputRequestId ∈ front.map (·.inputRequestId)
      · -- a later view of the request has no responses
        obtain ⟨response, hresponse, -⟩ := hall { view, responses := [] }
          ⟨hmode, front, back, hviews, (if_pos hlater).symm⟩
        cases hresponse
      · exact ⟨hlater, hall
          { view, responses := responsesTo rt events reader.trustSet view.inputRequestId }
          ⟨hmode, front, back, hviews, (if_neg hlater).symm⟩⟩
    · rintro hall record ⟨hmode, front, back, hviews, hresponses⟩
      obtain ⟨hfirst, response, hresponse, hsatisfies⟩ :=
        hall front record.view back hviews hmode
      exact ⟨response, by rw [hresponses, if_neg hfirst, hresponse], hsatisfies⟩
  · rw [if_neg hproposed] at h
    cases h
    simp [hproposed, noAttemptProjection]

end Standing

end Pointbreak
