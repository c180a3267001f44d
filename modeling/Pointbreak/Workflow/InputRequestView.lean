import Pointbreak.Event.Subject
import Pointbreak.Projection.BodyContent
import Pointbreak.Projection.Obligations

/-!
# Workflow.InputRequestView

The input requests of a Revision as the review surfaces show them. A response id counts once, for
the request that its carrier with the lowest event id names. The Change fold counts response events
instead; `discharge_agrees_iff` says for which lists the two agree about a request.
-/

namespace Pointbreak

open Std KeyedLog Result List

structure InputRequestOpenRecord (V : Type) where
  event : ShoreEvent V
  payload : InputRequestOpenedPayload
  trackId : TrackId

structure InputRequestResponseRecord (V : Type) where
  event : ShoreEvent V
  payload : InputRequestRespondedPayload

structure InputRequestRepresentatives (V : Type) where
  requestRecords : BTreeMap InputRequestId (InputRequestOpenRecord V) := ∅
  responseRecords : BTreeMap InputRequestResponseId (InputRequestResponseRecord V) := ∅

structure InputRequestProjectionRecords (V : Type) where
  requestRecords : BTreeMap InputRequestId (InputRequestOpenRecord V)
  responses : BTreeMap InputRequestId (List (InputRequestResponseRecord V))

section Records

variable {V : Type}

def shouldReplaceRepresentative (current : Option (ShoreEvent V)) (candidate : ShoreEvent V) :
    Bool :=
  current.all fun existing => compare candidate.eventId existing.eventId = .lt

def collectInputRequestRecord (rt : Runtime V) (kept : InputRequestRepresentatives V)
    (event : ShoreEvent V) : Result (InputRequestRepresentatives V) :=
  match event.eventType with
  | .inputRequestOpened => do
    let payload ← decodeInputRequestOpenedPayload rt event.payload
    let trackId ← Result.okOr event.target.trackId
      (.message (text "input request event missing track id"))
    let current := kept.requestRecords[payload.inputRequestId]?.map (·.event)
    .ok (if shouldReplaceRepresentative current event then
        { kept with requestRecords :=
            kept.requestRecords.insert payload.inputRequestId { event, payload, trackId } }
      else kept)
  | .inputRequestResponded => do
    let payload ← fromValue rt.inputRequestResponded event.payload
    let current := kept.responseRecords[payload.inputRequestResponseId]?.map (·.event)
    .ok (if shouldReplaceRepresentative current event then
        { kept with responseRecords :=
            kept.responseRecords.insert payload.inputRequestResponseId { event, payload } }
      else kept)
  | _ => .ok kept

def responseRecordLE (a b : InputRequestResponseRecord V) : Prop :=
  ((compare a.event.occurredAt b.event.occurredAt).then
    (compare a.event.eventId b.event.eventId)).isLE = true

instance : DecidableRel (responseRecordLE (V := V)) :=
  fun _ _ => inferInstanceAs (Decidable (_ = true))

/-- The responses of each request, in the order of their ids. -/
def groupResponses (records : List (InputRequestResponseRecord V)) :
    BTreeMap InputRequestId (List (InputRequestResponseRecord V)) :=
  records.foldl (fun responses record =>
    responses.alter record.payload.inputRequestId fun group => some (group.getD [] ++ [record])) ∅

def collectInputRequestProjectionRecords (rt : Runtime V) (events : List (ShoreEvent V)) :
    Result (InputRequestProjectionRecords V) := do
  let kept ← events.foldlM (collectInputRequestRecord rt) {}
  .ok { requestRecords := kept.requestRecords,
        responses := (groupResponses kept.responseRecords.vals).map fun _ group =>
          group.insertionSort responseRecordLE }

def openInputRequestIds (records : InputRequestProjectionRecords V) : BTreeSet InputRequestId :=
  BTreeSet.collect (records.requestRecords.keys.filter fun id => id ∉ records.responses)

end Records

inductive InputRequestStatus where
  | open | responded | ambiguous
deriving DecidableEq

def statusForResponseCount : Nat → InputRequestStatus
  | 0 => .open
  | 1 => .responded
  | _ => .ambiguous

inductive InputRequestStatusFilter where
  | open | responded | ambiguous | all

def InputRequestStatusFilter.matches : InputRequestStatusFilter → InputRequestStatus → Bool
  | .open, status => status = .open
  | .responded, status => status = .responded
  | .ambiguous, status => status = .ambiguous
  | .all, _ => true

structure InputRequestResponseView where
  id : InputRequestResponseId
  eventId : EventId
  outcome : InputRequestResponseOutcome
  reason : Option Text
  reasonContentType : BodyContentType
  reasonContentHash : Option Text
  reasonContentState : BodyContentState
  createdAt : Text
  writer : Writer

structure InputRequestView where
  id : InputRequestId
  eventId : EventId
  trackId : TrackId
  target : ReviewTargetRef
  mode : AssertionMode
  reasonCode : InputRequestReasonCode
  title : Text
  body : Option Text
  bodyContentType : BodyContentType
  bodyContentHash : Option Text
  bodyContentState : BodyContentState
  status : InputRequestStatus
  responses : List InputRequestResponseView
  createdAt : Text
  writer : Writer

/-- What a caller asks for; `revisionId` is that of the resolved Revision. -/
structure InputRequestProjectionOptions (V : Type) where
  backend : StoreBackend
  events : List (ShoreEvent V)
  revisionId : RevisionId
  trackFilter : Option TrackId
  modeFilter : Option AssertionMode
  fileFilter : Option Text
  statusFilter : InputRequestStatusFilter
  includeBody : Bool
  readForDisplay : Bool
  removalLens : BodyRemovalLens

def targetMatchesFile (target : ReviewTargetRef) (file : Text) : Bool :=
  match target with
  | .file _ filePath | .range _ filePath _ _ _ => filePath = file
  | .revision _ | .observation _ _ | .inputRequest _ _ | .assessment _ _ | .event _ _ => false

section Views

variable {V : Type} (options : InputRequestProjectionOptions V)

def InputRequestProjectionOptions.resolve (inline artifactPath contentHash : Option Text) :
    Result BodyContent :=
  options.removalLens.resolveBodyContentForRead options.backend options.includeBody inline
    artifactPath contentHash options.readForDisplay

def responseViewFromRecord (record : InputRequestResponseRecord V) :
    Result InputRequestResponseView := do
  let content ← options.resolve record.payload.reason record.payload.reasonArtifactPath
    record.payload.reasonContentHash
  .ok { id := record.payload.inputRequestResponseId, eventId := record.event.eventId,
        outcome := record.payload.outcome, reason := content.intoText,
        reasonContentType := record.payload.reasonContentType,
        reasonContentHash := record.payload.reasonContentHash,
        reasonContentState := content.state, createdAt := record.event.occurredAt,
        writer := record.event.writer }

def responseViewsFromRecords (records : List (InputRequestResponseRecord V)) :
    Result (List InputRequestResponseView) :=
  records.mapM (responseViewFromRecord options)

def inputRequestViewFromEvent (record : InputRequestOpenRecord V)
    (responses : List InputRequestResponseView) : Result InputRequestView := do
  let content ← options.resolve record.payload.body record.payload.bodyArtifactPath
    record.payload.bodyContentHash
  .ok { id := record.payload.inputRequestId, eventId := record.event.eventId,
        trackId := record.trackId, target := record.payload.target,
        mode := record.event.assertionMode, reasonCode := record.payload.reasonCode,
        title := record.payload.title, body := content.intoText,
        bodyContentType := record.payload.bodyContentType,
        bodyContentHash := record.payload.bodyContentHash, bodyContentState := content.state,
        status := statusForResponseCount responses.length, responses,
        createdAt := record.event.occurredAt, writer := record.event.writer }

def InputRequestProjectionRecords.responseCount (records : InputRequestProjectionRecords V)
    (q : InputRequestId) : Nat :=
  records.responses[q]?.elim 0 List.length

def readResponses (records : InputRequestProjectionRecords V) (q : InputRequestId) :
    Result (List InputRequestResponseView) :=
  match records.responses[q]? with
  | some group => responseViewsFromRecords options group
  | none => .ok []

/-- One turn of the loop over the requests: the view, unless a filter leaves the request out. The
status gates before any response is read. -/
def projectInputRequest (rt : Runtime V) (options : InputRequestProjectionOptions V)
    (records : InputRequestProjectionRecords V) (record : InputRequestOpenRecord V) :
    Result (Option InputRequestView) := do
  let subject ← record.event.subjectRevisionId rt
  if subject ≠ some options.revisionId then .ok none
  else if !options.trackFilter.all (· = record.trackId) then .ok none
  else if !options.modeFilter.all (· = record.event.assertionMode) then .ok none
  else if !options.fileFilter.all (targetMatchesFile record.payload.target) then .ok none
  else if !options.statusFilter.matches
      (statusForResponseCount (records.responseCount record.payload.inputRequestId)) then .ok none
  else do
    let responses ← readResponses options records record.payload.inputRequestId
    let view ← inputRequestViewFromEvent options record responses
    .ok (some view)

def inputRequestViewLE (a b : InputRequestView) : Prop :=
  ((compare a.createdAt b.createdAt).then (compare a.eventId b.eventId)).isLE = true

instance : DecidableRel inputRequestViewLE := fun _ _ => inferInstanceAs (Decidable (_ = true))

def projectInputRequests (rt : Runtime V) (options : InputRequestProjectionOptions V) :
    Result (List InputRequestView) := do
  let records ← collectInputRequestProjectionRecords rt options.events
  let rows ← records.requestRecords.vals.mapM (projectInputRequest rt options records)
  .ok ((rows.filterMap id).insertionSort inputRequestViewLE)

/-- The status of a request: every view of it carries this one (`projectInputRequests_status`). -/
def InputRequestProjectionRecords.status (records : InputRequestProjectionRecords V)
    (q : InputRequestId) : InputRequestStatus :=
  statusForResponseCount (records.responseCount q)

variable {options} {records : InputRequestProjectionRecords V}

theorem length_readResponses {q : InputRequestId} {responses : List InputRequestResponseView}
    (h : readResponses options records q = .ok responses) :
    responses.length = records.responseCount q := by
  rw [readResponses] at h
  rw [InputRequestProjectionRecords.responseCount]
  cases hgroup : records.responses[q]? with
  | none =>
    rw [hgroup] at h
    cases h
    rfl
  | some group =>
    rw [hgroup] at h
    exact (mapM_spec h).1

theorem projectInputRequest_status {rt : Runtime V} {record : InputRequestOpenRecord V}
    {view : InputRequestView}
    (h : projectInputRequest rt options records record = .ok (some view)) :
    view.status = records.status view.id := by
  simp only [projectInputRequest, bind_eq_ok] at h
  obtain ⟨subject, -, h⟩ := h
  split at h
  · cases h
  split at h
  · cases h
  split at h
  · cases h
  split at h
  · cases h
  split at h
  · cases h
  simp only [bind_eq_ok, inputRequestViewFromEvent] at h
  obtain ⟨responses, hresponses, _, ⟨content, -, hview⟩, h⟩ := h
  cases hview
  cases h
  simp only [InputRequestProjectionRecords.status, length_readResponses hresponses]

theorem projectInputRequests_status {rt : Runtime V} {views : List InputRequestView}
    (hrecords : collectInputRequestProjectionRecords rt options.events = .ok records)
    (hviews : projectInputRequests rt options = .ok views) :
    ∀ view ∈ views, view.status = records.status view.id := by
  simp only [projectInputRequests, bind_eq_ok, hrecords] at hviews
  obtain ⟨_, hrec, rows, hrows, hviews⟩ := hviews
  cases hrec
  cases hviews
  intro view hview
  rw [mem_insertionSort, mem_filterMap] at hview
  obtain ⟨row, hrow, rfl⟩ := hview
  obtain ⟨record, _, hproject⟩ := (mapM_spec hrows).2 _ hrow
  exact projectInputRequest_status hproject

end Views

section Counting

variable {V : Type} (rt : Runtime V)

def responseEntryOf (event : ShoreEvent V) :
    Option (InputRequestResponseId × (EventId × InputRequestResponseRecord V)) :=
  if event.eventType = .inputRequestResponded then
    (rt.inputRequestResponded event.payload).toOption.map fun payload =>
      (payload.inputRequestResponseId, (event.eventId, { event, payload }))
  else none

/-- The request that the carrier of a response with the lowest event id names. -/
def answers (E : List (ShoreEvent V)) (i : InputRequestResponseId) : Option InputRequestId :=
  (leastOf compare (entries (responseEntryOf rt) i E)).map (·.2.payload.inputRequestId)

/-- The number of responses that answer a request. -/
def distinctResponses (E : List (ShoreEvent V)) (q : InputRequestId) : Nat :=
  ((E.filterMap (responseEntryOf rt)).map Prod.fst).dedup.countP fun i => answers rt E i = some q

def readInputRequest (event : ShoreEvent V) :
    Result (Option (InputRequestOpenRecord V ⊕ InputRequestResponseRecord V)) :=
  match event.eventType with
  | .inputRequestOpened => do
    let payload ← decodeInputRequestOpenedPayload rt event.payload
    let trackId ← Result.okOr event.target.trackId
      (.message (text "input request event missing track id"))
    .ok (some (.inl { event, payload, trackId }))
  | .inputRequestResponded => do
    let payload ← fromValue rt.inputRequestResponded event.payload
    .ok (some (.inr { event, payload }))
  | _ => .ok none

def enterInputRequest (kept : InputRequestRepresentatives V) :
    Option (InputRequestOpenRecord V ⊕ InputRequestResponseRecord V) → InputRequestRepresentatives V
  | none => kept
  | some (.inl record) =>
    let requestRecords := insertLeast compare (·.event.eventId) kept.requestRecords
      record.payload.inputRequestId record
    { kept with requestRecords }
  | some (.inr record) =>
    let responseRecords := insertLeast compare (·.event.eventId) kept.responseRecords
      record.payload.inputRequestResponseId record
    { kept with responseRecords }

theorem collectInputRequestRecord_eq (kept : InputRequestRepresentatives V)
    (event : ShoreEvent V) :
    collectInputRequestRecord rt kept event =
      (readInputRequest rt event).map (enterInputRequest kept) := by
  rw [collectInputRequestRecord, readInputRequest]
  split
  · cases decodeInputRequestOpenedPayload rt event.payload with
    | error e => rfl
    | ok payload =>
      cases okOr event.target.trackId _ with
      | error e => rfl
      | ok trackId =>
        simp only [bind, Except.bind, Except.map, enterInputRequest, insertLeast,
          shouldReplaceRepresentative, Option.all_map]
        split <;> rfl
  · cases fromValue rt.inputRequestResponded event.payload with
    | error e => rfl
    | ok payload =>
      simp only [bind, Except.bind, Except.map, enterInputRequest, insertLeast,
        shouldReplaceRepresentative, Option.all_map]
      split <;> rfl
  · rfl

variable {rt} {E : List (ShoreEvent V)}

theorem responseRecords_of_collect {kept : InputRequestRepresentatives V}
    (h : E.foldlM (collectInputRequestRecord rt) {} = .ok kept) (i : InputRequestResponseId) :
    kept.responseRecords[i]?.map (fun w => (w.event.eventId, w)) =
      leastOf compare (entries (responseEntryOf rt) i E) := by
  obtain ⟨_, rfl⟩ := (foldlM_read (collectInputRequestRecord_eq rt)).mp h
  refine get_foldl (fun (s : InputRequestRepresentatives V) (i : InputRequestResponseId) =>
    s.responseRecords[i]?.map fun w => (w.event.eventId, w)) _ (least compare) ?_ E {} i
  intro s e k
  rw [readInputRequest, responseEntryOf]
  split
  · rename_i ht
    -- an opening enters no response
    rw [if_neg (by simp [ht])]
    cases decodeInputRequestOpenedPayload rt e.payload with
    | error x => rfl
    | ok payload => cases okOr e.target.trackId _ <;> rfl
  · rename_i ht
    rw [if_pos ht, fromValue]
    cases rt.inputRequestResponded e.payload with
    | error x => rfl
    | ok payload => exact get_insertLeast
  · rename_i ht
    rw [if_neg ht]
    rfl

theorem responseEntryOf_eq_some {e : ShoreEvent V} {i : InputRequestResponseId}
    {v : EventId × InputRequestResponseRecord V} :
    responseEntryOf rt e = some (i, v) ↔ e.eventType = .inputRequestResponded ∧
      ∃ payload, rt.inputRequestResponded e.payload = .ok payload ∧
        payload.inputRequestResponseId = i ∧ (e.eventId, ⟨e, payload⟩) = v := by
  rw [responseEntryOf]
  split
  · rename_i h
    simp [h, toOption_eq_some]
  · rename_i h
    simp [h]

theorem length_groupResponses (records : List (InputRequestResponseRecord V)) (q : InputRequestId) :
    (groupResponses records)[q]?.elim 0 List.length =
      records.countP fun record => record.payload.inputRequestId = q := by
  have hget : (groupResponses records)[q]?.getD [] =
      (records.filter (·.payload.inputRequestId = q)).map id := getD_grouped
  rw [countP_eq_length_filter, ← map_id (records.filter _), ← hget]
  cases (groupResponses records)[q]? <;> rfl

theorem mem_ids {i : InputRequestResponseId} :
    i ∈ (E.filterMap (responseEntryOf rt)).map Prod.fst ↔
      entries (responseEntryOf rt) i E ≠ [] := by
  simp only [mem_map, mem_filterMap]
  constructor
  · rintro ⟨⟨_, v⟩, ⟨e, he, hs⟩, hi⟩
    subst hi
    exact ne_nil_of_mem (mem_entries.mpr ⟨e, he, hs⟩)
  · intro h
    obtain ⟨v, hv⟩ := exists_mem_of_ne_nil _ h
    obtain ⟨e, he, hs⟩ := mem_entries.mp hv
    exact ⟨(i, v), ⟨e, he, hs⟩, rfl⟩

theorem responseCount_eq {records : InputRequestProjectionRecords V}
    (h : collectInputRequestProjectionRecords rt E = .ok records) (q : InputRequestId) :
    records.responseCount q = distinctResponses rt E q := by
  simp only [collectInputRequestProjectionRecords, bind_eq_ok] at h
  obtain ⟨kept, hkept, h⟩ := h
  cases h
  have hleast := responseRecords_of_collect hkept
  have hanswers : ∀ i w, kept.responseRecords[i]? = some w →
      answers rt E i = some w.payload.inputRequestId := by
    intro i w hw
    rw [answers, ← hleast, hw]
    rfl
  have hkeys : kept.responseRecords.keys.Perm
      ((E.filterMap (responseEntryOf rt)).map Prod.fst).dedup := by
    rw [perm_ext_iff_of_nodup ExtTreeMap.nodup_keys (nodup_dedup _)]
    intro i
    have hnone : kept.responseRecords[i]? = none ↔ entries (responseEntryOf rt) i E = [] := by
      rw [← Option.map_eq_none_iff (f := fun w => (w.event.eventId, w)), hleast, leastOf_eq_none]
    rw [mem_dedup, mem_ids, ne_eq, ← hnone, ← ne_eq, Option.ne_none_iff_exists',
      BTreeMap.mem_keys_iff]
  calc InputRequestProjectionRecords.responseCount _ q
      = (groupResponses kept.responseRecords.vals)[q]?.elim 0 List.length := by
        rw [InputRequestProjectionRecords.responseCount, ExtTreeMap.getElem?_map]
        cases (groupResponses kept.responseRecords.vals)[q]? <;> simp
    _ = kept.responseRecords.toList.countP fun kv => kv.2.payload.inputRequestId = q := by
        rw [length_groupResponses, BTreeMap.vals, countP_map]
        rfl
    _ = kept.responseRecords.toList.countP fun kv => answers rt E kv.1 = some q := by
        refine countP_congr fun kv hkv => ?_
        rw [hanswers kv.1 kv.2 (BTreeMap.mem_toList_iff.mp hkv)]
        simp
    _ = kept.responseRecords.keys.countP fun i => answers rt E i = some q := by
        rw [← ExtTreeMap.map_fst_toList_eq_keys, countP_map]
        rfl
    _ = distinctResponses rt E q := hkeys.countP_eq _

/-- A listed request has the status that the distinct responses to it give, whatever the filters. -/
theorem listed_request_status {options : InputRequestProjectionOptions V}
    {views : List InputRequestView} (hviews : projectInputRequests rt options = .ok views) :
    ∀ view ∈ views, view.status =
      statusForResponseCount (distinctResponses rt options.events view.id) := by
  intro view hview
  obtain ⟨records, hrecords, -⟩ := bind_eq_ok.mp hviews
  rw [projectInputRequests_status hrecords hviews view hview, InputRequestProjectionRecords.status,
    responseCount_eq hrecords]

theorem responses_eq (E : List (ShoreEvent V)) (q : InputRequestId) :
    responses (facts rt E) q = E.countP fun e =>
      (responseEntryOf rt e).any fun kv => kv.2.2.payload.inputRequestId = q := by
  rw [responses, List.count, facts, countP_filterMap]
  refine countP_congr fun e _ => ?_
  have hfact : ((factOf rt e).map (· == .requestResponse q)).getD false = true ↔
      Carries rt e (.requestResponse q) := by
    rw [← factOf_eq_some]
    cases factOf rt e <;> simp
  rw [hfact, Option.any_eq_true]
  constructor
  · rintro ⟨ht, payload, hp, hq⟩
    subst hq
    exact ⟨_, responseEntryOf_eq_some.mpr ⟨ht, payload, hp, rfl, rfl⟩, decide_eq_true rfl⟩
  · rintro ⟨⟨i, v⟩, hs, hq⟩
    obtain ⟨ht, payload, hp, -, rfl⟩ := responseEntryOf_eq_some.mp hs
    exact ⟨ht, payload, hp, of_decide_eq_true hq⟩

theorem distinctResponses_le (E : List (ShoreEvent V)) (q : InputRequestId) :
    distinctResponses rt E q ≤ responses (facts rt E) q := by
  rw [responses_eq, distinctResponses, countP_eq_length_filter, countP_eq_length_filter]
  obtain ⟨C, hC⟩ : ∃ C, E.filter (fun e => (responseEntryOf rt e).any fun kv =>
    kv.2.2.payload.inputRequestId = q) = C := ⟨_, rfl⟩
  rw [hC]
  have hsub : (((E.filterMap (responseEntryOf rt)).map Prod.fst).dedup.filter
      fun i => answers rt E i = some q) ⊆ (C.filterMap (responseEntryOf rt)).map Prod.fst := by
    intro i hi
    have hans := of_decide_eq_true (mem_filter.mp hi).2
    obtain ⟨v, hv, hq⟩ := Option.map_eq_some_iff.mp hans
    obtain ⟨e, he, hs⟩ := mem_entries.mp (leastOf_spec hv).1
    have heC : e ∈ C := by
      rw [← hC, mem_filter, hs]
      exact ⟨he, decide_eq_true hq⟩
    exact mem_map.mpr ⟨(i, v), mem_filterMap.mpr ⟨e, heC, hs⟩, rfl⟩
  have hnodup := (nodup_dedup ((E.filterMap (responseEntryOf rt)).map Prod.fst)).filter
    fun i => answers rt E i = some q
  have hlen := hnodup.length_le_of_subset hsub
  rw [length_map] at hlen
  exact hlen.trans (length_filterMap_le _ _)

end Counting

section Discharge

variable {V : Type} {rt : Runtime V} {E : List (ShoreEvent V)} {c : ChangeId} {v : ChangeView}
  {records : InputRequestProjectionRecords V} {q : InputRequestId}

/-- An uncarried request is an obligation by the Revision it counts on and its carriers. -/
theorem mem_obligations_of_uncarried (hv : changeView rt E c = some v)
    (hport : ∀ port, .factPort port ∈ facts rt E → port.relation = .carriedOpenAs →
      port.originFact ≠ .inputRequest q)
    (hcur : ∃ t, t ∈ v.currentRevisions) :
    q ∈ v.operativeObligations ↔
      CountedOnMember (facts rt E) c q ∧ responses (facts rt E) q ≠ 1 := by
  have hspec := changeView_spec hv
  simp only [hspec.current] at hcur
  rw [hspec.obligations]
  constructor
  · intro hobl
    obtain ⟨s, hs, hm, _⟩ := id hobl
    have h := (obliged_of_uncarried hs hm (not_carriedTo hport)).mp hobl
    exact ⟨⟨s, hs, hm⟩, by omega⟩
  · rintro ⟨⟨s, hs, hm⟩, hne⟩
    refine (obliged_of_uncarried hs hm (not_carriedTo hport)).mpr ?_
    by_cases h0 : responses (facts rt E) q = 0
    · exact .inr ⟨h0, hcur⟩
    · exact .inl (by omega)

/-- The fold and the view agree about an uncarried request exactly when it counts on a member and
its carriers are as many as its responses, or both are several; or when it counts on no member and
has one response. -/
theorem discharge_agrees_iff (hv : changeView rt E c = some v)
    (hrecords : collectInputRequestProjectionRecords rt E = .ok records)
    (hport : ∀ port, .factPort port ∈ facts rt E → port.relation = .carriedOpenAs →
      port.originFact ≠ .inputRequest q)
    (hcur : ∃ t, t ∈ v.currentRevisions) :
    ((q ∉ v.operativeObligations ↔ records.status q = .responded) ∧
      ((.operativeRequestResponseAmbiguous ∈ v.diagnostics ∧
          CountedOnMember (facts rt E) c q ∧ 2 ≤ responses (facts rt E) q) ↔
        records.status q = .ambiguous)) ↔
      (CountedOnMember (facts rt E) c q ∧
          (responses (facts rt E) q = distinctResponses rt E q ∨ 2 ≤ distinctResponses rt E q)) ∨
        (¬ CountedOnMember (facts rt E) c q ∧ distinctResponses rt E q = 1) := by
  have hdiag : CountedOnMember (facts rt E) c q ∧ 2 ≤ responses (facts rt E) q →
      .operativeRequestResponseAmbiguous ∈ v.diagnostics := by
    rintro ⟨⟨s, hs, hm⟩, htwo⟩
    exact ((changeView_spec hv).diagnostics _).mpr ⟨q, s, hs, hm, htwo⟩
  have hle : distinctResponses rt E q ≤ responses (facts rt E) q := distinctResponses_le E q
  have hstatus : ∀ n, (statusForResponseCount n = .responded ↔ n = 1) ∧
      (statusForResponseCount n = .ambiguous ↔ 2 ≤ n)
    | 0 | 1 | n + 2 => by simp [statusForResponseCount]
  rw [and_iff_right_of_imp hdiag, mem_obligations_of_uncarried hv hport hcur,
    InputRequestProjectionRecords.status, responseCount_eq hrecords, (hstatus _).1, (hstatus _).2]
  by_cases hm : CountedOnMember (facts rt E) c q
  · simp only [hm, true_and, not_true_eq_false, false_and, or_false]
    omega
  · simp only [hm, false_and, not_false_eq_true, true_and, false_or, true_iff, false_iff]
    omega

end Discharge

section Doubled

open Recorded

/-- One response, on record twice. -/
def respondedTwice : List (ShoreEvent WirePayload) :=
  journal 1 [declared 1, proposed 1, member 1 1, opened 1 1, responded 1 1, responded 1 1]

theorem responded_twice_disagrees :
    .operativeRequest (request 1) (rev 1) ∈ facts runtime respondedTwice ∧
      (∀ f ∈ facts runtime respondedTwice, f.portEntry = none) ∧
      ∃ v records, changeView runtime respondedTwice (change 1) = some v ∧
        collectInputRequestProjectionRecords runtime respondedTwice = .ok records ∧
        rev 1 ∈ v.members ∧ rev 1 ∈ v.currentRevisions ∧
        request 1 ∈ v.operativeObligations ∧ v.diagnostics = [.operativeRequestResponseAmbiguous] ∧
        records.status (request 1) = .responded := by
  simp only [exists_and_left]
  decide +kernel

def listResponded : InputRequestProjectionOptions WirePayload where
  backend := ⟨fun _ => .ok none⟩
  events := respondedTwice
  revisionId := rev 1
  trackFilter := none
  modeFilter := none
  fileFilter := none
  statusFilter := .responded
  includeBody := false
  readForDisplay := false
  removalLens := ⟨fun _ _ inline _ _ _ => .ok (.present inline)⟩

theorem responded_twice_listed : ∃ views, projectInputRequests runtime listResponded = .ok views ∧
    views ≠ [] ∧ ∀ view ∈ views, view.status =
      statusForResponseCount (distinctResponses runtime respondedTwice view.id) := by
  have hrun : ∃ views, projectInputRequests runtime listResponded = .ok views ∧ views ≠ [] := by
    decide +kernel
  obtain ⟨views, hviews, hne⟩ := hrun
  exact ⟨views, hviews, hne, listed_request_status hviews⟩

def respondedOnce : List (ShoreEvent WirePayload) :=
  journal 1 [declared 1, proposed 1, member 1 1, opened 1 1, responded 1 1]

theorem responded_once_agrees :
    ∃ v records, changeView runtime respondedOnce (change 1) = some v ∧
      collectInputRequestProjectionRecords runtime respondedOnce = .ok records ∧
      request 1 ∉ v.operativeObligations ∧ records.status (request 1) = .responded := by
  have hrun : ((∀ f ∈ facts runtime respondedOnce, f.portEntry = none) ∧
      lastOpening (facts runtime respondedOnce) (request 1) = some (rev 1) ∧
      responses (facts runtime respondedOnce) (request 1) = 1 ∧
      distinctResponses runtime respondedOnce (request 1) = 1) ∧
      (∃ v ∈ changeView runtime respondedOnce (change 1), rev 1 ∈ v.members ∧
        rev 1 ∈ v.currentRevisions) ∧
      ∃ records, collectInputRequestProjectionRecords runtime respondedOnce = .ok records ∧
        records.status (request 1) = .responded := by decide +kernel
  obtain ⟨⟨hports, hlast, hcarriers, hids⟩, ⟨v, hv, hmem, hcur⟩, records, hread, hresponded⟩ := hrun
  have huncarried : ∀ port, .factPort port ∈ facts runtime respondedOnce →
      port.relation = .carriedOpenAs → port.originFact ≠ .inputRequest (request 1) := by
    intro port hport
    exact absurd (hports _ hport) (by simp [ChangeProjectionFact.portEntry])
  have hagree := (discharge_agrees_iff hv hread huncarried ⟨_, hcur⟩).mpr
    (.inl ⟨⟨_, hlast, ((changeView_spec hv).members _).mp hmem⟩, .inl (hcarriers.trans hids.symm)⟩)
  exact ⟨v, records, hv, hread, hagree.1.mpr hresponded, hresponded⟩

end Doubled

end Pointbreak
