import Pointbreak.Semantic.AttentionCollectors

/-!
# Semantic.AttentionParity

The two attention snapshots, put together. They are the same list of items up to those of the
follow-ups (`snapshots_of_tracked`), which are checked against different sets of open requests
(`attention_parity_iff`).
-/

namespace Pointbreak

open Std BTreeMap KeyedLog AttentionSemanticSnapshot AssessmentEventRecord CarrierFamily List

instance : TransCmp currentAssessmentFactCmp :=
  inferInstanceAs (TransCmp (compareLex (compareLex (compareOn _) (compareOn _)) (compareOn _)))

instance : TransCmp fun a b : AttentionItem => compareEventInstants a.observedAt b.observedAt where
  eq_swap := OrientedCmp.eq_swap
  isLE_trans := TransCmp.isLE_trans

instance : TransCmp attentionItemCmp :=
  inferInstanceAs (TransCmp (compareLex (compareLex (compareOn _)
    fun a b : AttentionItem => compareEventInstants a.observedAt b.observedAt) (compareOn _)))

section Parity

variable {V : Type} {rt : Runtime V} {E : List (ShoreEvent V)} {facts : List SemanticFact}

structure OpenRequest (rt : Runtime V) (E : List (ShoreEvent V)) (q : InputRequestId)
    (v : InputRequestOpenRecord V) : Prop where
  opened : (requestFamily rt).lead E q = some v
  unanswered : ∀ i u, (responseFamily rt).lead E i = some u → u.payload.inputRequestId ≠ q

variable {q : InputRequestId} {v : InputRequestOpenRecord V}

theorem openRequest_iff : OpenRequest rt E q v ↔ ((requestFamily rt).table E)[q]? = some v ∧
      q ∉ answeredIds ((responseFamily rt).table E) := by
  rw [get_table_eq_lead, answeredIds, BTreeSet.mem_collect, mem_map]
  simp only [mem_vals_iff, get_table_eq_lead]
  constructor
  · intro h
    refine ⟨h.opened, ?_⟩
    rintro ⟨u, ⟨i, hu⟩, hq⟩
    exact h.unanswered i u hu hq
  · rintro ⟨hv, hanswered⟩
    exact ⟨hv, fun i u hu hq => hanswered ⟨u, ⟨i, hu⟩, hq⟩⟩

theorem subject_isSome : v.subject.isSome ↔ ¬ v.payload.taskTarget.isSome := by
  unfold InputRequestOpenRecord.subject
  split <;> simp_all

theorem OpenRequest.unique {v v' : InputRequestOpenRecord V} (h : OpenRequest rt E q v)
    (h' : OpenRequest rt E q v') : v = v' :=
  Option.some.inj (h.opened.symm.trans h'.opened)

variable {records : InputRequestProjectionRecords V}

theorem mem_openInputRequestIds (h : collectInputRequestProjectionRecords rt E = .ok records) :
    q ∈ openInputRequestIds records ↔ ∃ v, OpenRequest rt E q v := by
  obtain ⟨hreq, hanswered⟩ := requests_of_collect h
  rw [openInputRequestIds, BTreeSet.mem_collect, mem_filter, decide_eq_true_eq, mem_keys_iff,
    hanswered, hreq]
  simp [openRequest_iff]

theorem mem_openRows {row : (InputRequestId × InputRequestOpenRecord V) × RevisionId} :
    row ∈ openRows rt E ↔ OpenRequest rt E row.1.1 row.1.2 ∧ row.1.2.subject = some row.2 := by
  obtain ⟨⟨q, v⟩, r⟩ := row
  rw [openRows, mem_filterMap, openRequest_iff]
  simp only [openRow, Option.ite_none_left_eq_some, Option.map_eq_some_iff, Prod.mk.injEq,
    Prod.exists, mem_toList_iff, and_assoc]
  constructor
  · rintro ⟨_, _, hv, hanswered, _, hr, rfl, rfl, rfl⟩
    exact ⟨hv, hanswered, hr⟩
  · rintro ⟨hv, hanswered, hr⟩
    exact ⟨q, v, hv, hanswered, r, hr, rfl, rfl, rfl⟩

theorem mem_rowIds : q ∈ BTreeSet.collect ((openRows rt E).map fun row => row.1.1) ↔
      ∃ v, OpenRequest rt E q v ∧ v.subject.isSome := by
  rw [BTreeSet.mem_collect, mem_map]
  constructor
  · rintro ⟨row, hrow, rfl⟩
    obtain ⟨hopen, hsubject⟩ := mem_openRows.mp hrow
    exact ⟨_, hopen, by rw [hsubject]; rfl⟩
  · rintro ⟨v, hopen, hsubject⟩
    obtain ⟨r, hr⟩ := Option.isSome_iff_exists.mp hsubject
    exact ⟨((q, v), r), mem_openRows.mpr ⟨hopen, hr⟩, rfl⟩

theorem openRequests_eq (h : collectInputRequestProjectionRecords rt E = .ok records) :
    (records.requestRecords.toList.filter (·.1 ∈ openInputRequestIds records)).filterMap
      (openRequestFact rt) = ((openRows rt E).map rowRecord).map (·.openFact) := by
  obtain ⟨hreq, -⟩ := requests_of_collect h
  rw [filterMap_filter, hreq, openRows, map_filterMap, map_filterMap]
  refine filterMap_congr fun entry hentry => ?_
  have hget := mem_toList_iff.mp hentry
  have hopen : entry.1 ∈ openInputRequestIds records ↔
      entry.1 ∉ answeredIds ((responseFamily rt).table E) := by
    simp [mem_openInputRequestIds h, openRequest_iff, hget]
  simp only [hopen, decide_eq_true_eq, openRow, ite_not, openRequestFact,
    subjectRevisionId_of_request (of_table hget).1]
  split
  · rfl
  · cases entry.2.subject <;> rfl

theorem requestItem_injective (supersession : SupersessionView)
    {a b : (InputRequestId × InputRequestOpenRecord V) × RevisionId} (ha : a ∈ openRows rt E)
    (hb : b ∈ openRows rt E)
    (hcmp : attentionItemCmp (a.1.2.item supersession a.1.1 a.2)
      (b.1.2.item supersession b.1.1 b.2) = .eq) : a = b := by
  obtain ⟨⟨q, v⟩, r⟩ := a
  obtain ⟨⟨q', v'⟩, r'⟩ := b
  obtain ⟨hopen, hsubject⟩ := mem_openRows.mp ha
  obtain ⟨hopen', hsubject'⟩ := mem_openRows.mp hb
  have hid := (Ordering.then_eq_eq.mp hcmp).2
  have hq : q = q' := keepsOrder_asStr.injective
    (append_cancel_left (LawfulEqCmp.eq_of_compare hid))
  subst hq
  have hv := hopen.unique hopen'
  simp only at hv hsubject hsubject'
  subst hv
  rw [Option.some.inj (hsubject.symm.trans hsubject')]

/-- The assessments of an id are on one Revision, and replace only assessments of that Revision. -/
structure LocalAssessments (rt : Runtime V) (E : List (ShoreEvent V)) : Prop where
  oneRevision : ∀ x ∈ assessmentRecords rt E, ∀ y ∈ assessmentRecords rt E,
    x.payload.assessmentId = y.payload.assessmentId →
      x.payload.target.revisionOf = y.payload.target.revisionOf
  withinRevision : ∀ x ∈ assessmentRecords rt E, ∀ y ∈ assessmentRecords rt E,
    y.payload.assessmentId ∈ x.payload.replacesAssessmentIds →
      x.payload.target.revisionOf = y.payload.target.revisionOf

/-- The assessment stands for its id, and none that stands for an id replaces it. -/
structure StandingAssessment (rt : Runtime V) (E : List (ShoreEvent V))
    (w : AssessmentEventRecord V) : Prop where
  first : Currency.first compare assessmentReading (assessmentRecords rt E) w.payload.assessmentId =
    some (w.event.eventId, w)
  unreplaced : ¬ Currency.Named assessmentReading
    (Currency.first compare assessmentReading (assessmentRecords rt E)) w.payload.assessmentId

theorem currentFacts_eq
    {byRevision : AssessmentTable V}
    {records : BTreeMap RevisionId (List AssessmentRecord)}
    (hstanding : ∀ r w, w ∈ currentRecords (byRevision[r]?.getD ∅) ↔
      StandingAssessment rt E w ∧ w.payload.target.revisionOf = r)
    (hperm : ∀ r : RevisionId,
      ((currentRecords (byRevision[r]?.getD ∅)).map (·.currentFact r)).Perm
        ((records[r]?.getD []).map (·.currentFact r))) :
    (byRevision.toList.flatMap fun entry =>
        (currentRecords entry.2).map (·.currentFact entry.1)).insertionSort
          currentAssessmentFactLE =
      (records.toList.flatMap fun entry =>
        entry.2.map (·.currentFact entry.1)).insertionSort currentAssessmentFactLE := by
  have hlisted : ∀ {entry w}, entry ∈ byRevision.toList → w ∈ currentRecords entry.2 →
      StandingAssessment rt E w ∧ w.payload.target.revisionOf = entry.1 := by
    intro entry w hentry hw
    rw [← hstanding, mem_toList_iff.mp hentry]
    exact hw
  refine insertionSort_congr currentAssessmentFactCmp (fun _ _ => Iff.rfl) ?_ ?_
  · have hrenames : Renames id currentRecords byRevision
        (byRevision.map fun _ records => currentRecords records) := fun r => by simp
    have htoList := hrenames.toList_eq (fun _ _ => rfl) Function.surjective_id
    have hkeys : ∀ r : RevisionId,
        (((byRevision.map fun _ records => currentRecords records)[r]?.getD []).map
          (currentFact r)).Perm
            ((records[r]?.getD []).map (AssessmentRecord.currentFact r)) := by
      intro r
      rw [ExtTreeMap.getElem?_map]
      have hr := hperm r
      cases hb : byRevision[r]? <;> rw [hb] at hr <;> exact hr
    have hlists := flatMap_toList_perm (fun r l => l.map (currentFact r))
      (fun r l => l.map (AssessmentRecord.currentFact r)) (fun _ => rfl) (fun _ => rfl) hkeys
    rw [htoList, flatMap_map] at hlists
    exact hlists
  · simp only [mem_flatMap, mem_map]
    rintro _ ⟨entry, hentry, w, hin, rfl⟩ _ ⟨entry', hentry', w', hin', rfl⟩ hcmp
    obtain ⟨hw, hr⟩ := hlisted hentry hin
    obtain ⟨hw', hr'⟩ := hlisted hentry' hin'
    have hid : w.payload.assessmentId = w'.payload.assessmentId := keepsOrder_asStr.injective
      (LawfulEqCmp.eq_of_compare (Ordering.then_eq_eq.mp (Ordering.then_eq_eq.mp hcmp).1).2)
    have hfirst := hw.first
    rw [hid, hw'.first, Option.some.injEq, Prod.mk.injEq] at hfirst
    rw [← hr, ← hr', hfirst.2]

theorem assessments_of_tracked (h : List.Forall₂ (FactOf rt) E facts) (htracked : AllTracked E)
    (hlocal : LocalAssessments rt E) :
    ∃ byRevision attention records,
      collectAssessmentRecordsByRevision rt E = .ok byRevision ∧
      currentAssessmentRecordsByRevision rt E = .ok attention ∧
      currentAssessmentRecords facts = .ok records ∧ SameRecords attention records ∧
      (∀ (r : RevisionId) record, record ∈ attention[r]?.getD [] ↔
        ∃ w, StandingAssessment rt E w ∧ w.payload.target.revisionOf = r ∧ w.attention = record) ∧
      (byRevision.toList.flatMap fun entry =>
          (currentRecords entry.2).map (·.currentFact entry.1)).insertionSort
            currentAssessmentFactLE =
        (records.toList.flatMap fun entry =>
          entry.2.map (·.currentFact entry.1)).insertionSort currentAssessmentFactLE := by
  have htracked' : Tracked E := fun e he ht => htracked e he (.inl ht)
  obtain ⟨byRevision, hby⟩ :=
    (collectAssessmentRecordsByRevision_ok_iff (assessment_decodes h)).mpr htracked'
  obtain ⟨m, m', hm', hleads, hwhole⟩ := leads_of_tracked h htracked'
  have hlist := listings_of_collect hwhole hby
  have hsettled : Currency.Settled compare assessmentReading (assessmentRecords rt E) :=
    Currency.settled_of_local hlocal.oneRevision hlocal.withinRevision
  have hsame : ∀ r : RevisionId, currentRecords (byRevision[r]?.getD ∅) =
      (leadsOn m r).map Prod.fst := fun r => hlist.eq_of_settled hsettled
  have hstanding : ∀ r w, w ∈ currentRecords (byRevision[r]?.getD ∅) ↔
      StandingAssessment rt E w ∧ w.payload.target.revisionOf = r := by
    intro r w
    rw [hsame, hlist.mem_whole]
    exact and_congr_left fun _ => ⟨fun hw => ⟨hw.1, hw.2⟩, fun hw => ⟨hw.first, hw.unreplaced⟩⟩
  obtain ⟨attention, hattention, hstrict⟩ := attention_of_collect hby
  obtain ⟨records, hrecords, hcompact⟩ := currentAssessmentRecords_of_leads hm' hleads
  refine ⟨byRevision, attention, records, hby, hattention, hrecords, ?_, ?_, ?_⟩
  · intro r
    rw [hstrict, hcompact, map_asAttention, hsame]
  · intro r record
    rw [hstrict, mem_insertionSort, mem_map]
    simp only [hstanding, and_assoc]
  · -- an assessment id is listed once, so the sorts agree
    refine currentFacts_eq hstanding ?_
    intro r
    rw [hsame, hcompact, map_map]
    refine List.Perm.trans (List.Perm.of_eq ?_) ((perm_insertionSort ..).symm.map _)
    rw [map_map]
    refine map_congr_left fun x hx => ?_
    obtain ⟨a, ha⟩ := mem_vals_iff.mp (mem_filter.mp hx).1
    simp only [Function.comp, currentFact, AssessmentRecord.currentFact,
      (hleads.carried a x ha).2.eventId]
    rfl

variable {changes : ChangeProjection} {legacy : SupersessionView}

/-- The snapshots agree up to the requests that follow-ups are checked against: all the open ones
in strict replay, those with a Revision over facts. -/
theorem snapshots_of_tracked (h : List.Forall₂ (FactOf rt) E facts) (htracked : AllTracked E)
    (hlocal : LocalAssessments rt E) (hlegacy : SupersessionView.fromEvents rt E = .ok legacy)
    (changes : ChangeProjection) :
    ∃ (attention : BTreeMap RevisionId (List AttentionAssessmentRecord))
      (openIds : BTreeSet InputRequestId) (shared : AttentionSemanticSnapshot),
      (∀ (r : RevisionId) record, record ∈ attention[r]?.getD [] ↔
        ∃ w, StandingAssessment rt E w ∧ w.payload.target.revisionOf = r ∧
          w.attention = record) ∧
      (∀ q, q ∈ openIds ↔ ∃ v, OpenRequest rt E q v) ∧
      AttentionSemanticSnapshot.fromEvents rt E changes = .ok { shared with
        items := (shared.items ++ followUpOutstandingItems id attention
          (changeAwareSupersession legacy changes).replacement openIds).insertionSort
            attentionItemLE } ∧
      AttentionSemanticSnapshot.fromFactsWithSupersession facts
          (changeAwareSupersession legacy changes) = .ok { shared with
        items := (shared.items ++ followUpOutstandingItems id attention
          (changeAwareSupersession legacy changes).replacement
            (BTreeSet.collect ((openRows rt E).map fun row => row.1.1))).insertionSort
              attentionItemLE } := by
  obtain ⟨byRevision, attention, records, hby, hattention, hrecords, hsame, hstanding, hcurrent⟩ :=
    assessments_of_tracked h htracked hlocal
  obtain ⟨requests, hrequests⟩ := (collectRequests_eq_ok h).mpr
    fun e he ht => htracked e he (.inr (.inl ht))
  obtain ⟨capturedAt, kept, hcaptured, hkept, htimes⟩ := capturedAt_of_facts h
  obtain ⟨views, hviews⟩ : ∃ views, changeAwareSupersession legacy changes = views := ⟨_, rfl⟩
  rw [hviews]
  obtain ⟨failed, hfailed, hfailed'⟩ := failedValidationItems_eq h htracked hsame views.replacement
  have hitems := openInputRequestItems_eq hrequests views.replacement
  have hcaptures : (fun head : RevisionId => kept[head]?.map (·.occurredAt)) =
      fun head => capturedAt[head]? := funext fun head => (htimes head).symm
  let rest := ambiguousAssessmentItems id attention views.replacement ++
    (competingHeadsItems views.competition (fun head => capturedAt[head]?) ++
      (staleAssessmentItems id attention views.replacement ++ failed))
  refine ⟨attention, openInputRequestIds requests,
    { currentAssessments := (byRevision.toList.flatMap fun entry =>
        (currentRecords entry.2).map (·.currentFact entry.1)).insertionSort currentAssessmentFactLE
      openRequests := (((openRows rt E).map rowRecord).map (·.openFact)).insertionSort
        openRequestFactLE
      items := ((openRows rt E).map fun row =>
        row.1.2.item views.replacement row.1.1 row.2) ++ rest
      diagnostics := views.replacement.diagnostics },
    hstanding, fun q => mem_openInputRequestIds hrequests, ?_, ?_⟩
  · rw [fromEvents]
    simp [hby, hrequests, attentionFromEventsWithChanges, hlegacy, hattention, hcaptured, hviews,
      hitems, hfailed, bind, Except.bind, openRequests_eq hrequests, rest]
  · rw [fromFactsWithSupersession]
    simp only [hrecords, openRequestRecords_eq h htracked, hkept, hfailed', bind, Except.bind,
      hcaptures, ← hcurrent, ← ambiguousAssessmentItems_eq views.replacement hsame,
      ← staleAssessmentItems_eq views.replacement hsame,
      ← followUpOutstandingItems_eq views.replacement hsame]
    have hopen : (((openRows rt E).map rowRecord).insertionSort requestRecordLE).map
        (·.openFact) = (((openRows rt E).map rowRecord).map (·.openFact)).insertionSort
          openRequestFactLE :=
      map_insertionSort requestRecordLE openRequestFactLE _ _ fun _ _ _ _ => Iff.rfl
    -- sorted or not, the items of requests are the same ones
    have hperm : ((((openRows rt E).map rowRecord).insertionSort requestRecordLE).map
        (·.item views.replacement)).Perm
          ((openRows rt E).map fun row => row.1.2.item views.replacement row.1.1 row.2) := by
      refine ((perm_insertionSort ..).map _).trans (List.Perm.of_eq ?_)
      rw [map_map]
      rfl
    have hsort := insertionSort_append_perm attentionItemCmp (r := attentionItemLE)
      (fun _ _ => Iff.rfl) hperm.symm ?_ (rest ++ followUpOutstandingItems id attention
        views.replacement (BTreeSet.collect ((openRows rt E).map fun row => row.1.1)))
    · simp only [hopen, append_assoc, rest] at hsort ⊢
      rw [hsort]
    · intro a ha b hb hcmp
      obtain ⟨row, hrow, rfl⟩ := mem_map.mp ha
      obtain ⟨row', hrow', rfl⟩ := mem_map.mp hb
      rw [requestItem_injective views.replacement hrow hrow' hcmp]

/-- A current assessment that accepts with a follow-up is linked to an open request of a task. -/
structure LinksTask (rt : Runtime V) (E : List (ShoreEvent V)) (w : AssessmentEventRecord V)
    (q : InputRequestId) (v : InputRequestOpenRecord V) : Prop where
  standing : StandingAssessment rt E w
  verdict : w.payload.assessment = .acceptedWithFollowUp
  linked : q ∈ w.payload.relatedInputRequestIds
  openRequest : OpenRequest rt E q v
  task : v.payload.taskTarget.isSome

variable {supersession : SupersessionView} {openIds : BTreeSet InputRequestId}
  {attention : BTreeMap RevisionId (List AttentionAssessmentRecord)}

theorem mem_followUpOutstandingItems {item : AttentionItem} :
    item ∈ followUpOutstandingItems id attention supersession openIds ↔
      ∃ r : RevisionId, ∃ record ∈ attention[r]?.getD [],
        followUpItem supersession openIds r record = some item := by
  simp only [followUpOutstandingItems, mem_flatMap, mem_filterMap, Prod.exists,
    mem_toList_iff, id]
  refine exists_congr fun r => ?_
  cases attention[r]? <;> simp

theorem followUpItem_of_linksTask {w : AssessmentEventRecord V} (supersession : SupersessionView)
    (h : LinksTask rt E w q v) (hq : q ∈ openIds) :
    ∃ item, followUpItem supersession openIds w.payload.target.revisionOf w.attention = some item ∧
      ∃ ids, item.detail = .followUpOutstanding w.payload.assessmentId w.trackId
        w.event.writer.actorId ids ∧ q ∈ ids := by
  have hlinked : q ∈ w.attention.relatedInputRequestIds.filter (· ∈ openIds) :=
    mem_filter.mpr ⟨mem_sortedUnique.mpr h.linked, decide_eq_true hq⟩
  have hverdict : w.attention.assessment = .acceptedWithFollowUp := h.verdict
  rw [followUpItem, if_neg (not_not.mpr hverdict)]
  simp only [List.isEmpty_iff, if_neg (List.ne_nil_of_mem hlinked)]
  exact ⟨_, rfl, _, rfl, hlinked⟩

/-- Follow-ups depend on the open requests only through those that current assessments name. -/
theorem followUpOutstandingItems_congr {openIds openIds' : BTreeSet InputRequestId}
    (h : ∀ r : RevisionId, ∀ record ∈ attention[r]?.getD [],
      record.assessment = .acceptedWithFollowUp →
        ∀ q ∈ record.relatedInputRequestIds, q ∈ openIds ↔ q ∈ openIds') :
    followUpOutstandingItems id attention supersession openIds =
      followUpOutstandingItems id attention supersession openIds' := by
  refine congrArg List.flatten (map_congr_left fun entry hentry => ?_)
  refine filterMap_congr fun record hrecord => ?_
  have hin : record ∈ attention[entry.1]?.getD [] := by
    rw [mem_toList_iff.mp hentry]
    exact hrecord
  unfold followUpItem
  split
  · rfl
  · rename_i hverdict
    have hfilter : record.relatedInputRequestIds.filter (· ∈ openIds) =
        record.relatedInputRequestIds.filter (· ∈ openIds') := by
      refine filter_congr fun q hq => ?_
      rw [decide_eq_decide]
      exact h entry.1 record hin (not_not.mp hverdict) q hq
    simp only [id, hfilter]

theorem tracked_of_fromEvents (h : List.Forall₂ (FactOf rt) E facts)
    {snapshot : AttentionSemanticSnapshot}
    (hsnapshot : AttentionSemanticSnapshot.fromEvents rt E changes = .ok snapshot) :
    AllTracked E := by
  simp only [fromEvents, attentionFromEventsWithChanges,
    failedValidationItems, Result.bind_eq_ok] at hsnapshot
  obtain ⟨byRevision, hby, requests, hrequests, _, ⟨_, -, _, -, _, -, _, -, _, -, _,
    ⟨validations, hvalidations, -⟩, -⟩, -⟩ := hsnapshot
  rintro e he (ht | ht | ht)
  · exact (collectAssessmentRecordsByRevision_ok_iff (assessment_decodes h)).mp ⟨_, hby⟩ e he ht
  · exact (collectRequests_eq_ok h).mp ⟨_, hrequests⟩ e he ht
  · exact ((validationRecords_eq_ok h).mp hvalidations).1 e he ht

/-- The snapshots are the same exactly when every assessment, request and check has a track, and no
current assessment that accepts with a follow-up is linked to an open request of a task. -/
theorem attention_parity_iff (h : List.Forall₂ (Yields rt) E facts)
    (hlocal : LocalAssessments rt E) (hlegacy : SupersessionView.fromEvents rt E = .ok legacy)
    (changes : ChangeProjection) :
    (∃ snapshot, AttentionSemanticSnapshot.fromEvents rt E changes = .ok snapshot ∧
      AttentionSemanticSnapshot.fromFactsWithSupersession facts
        (changeAwareSupersession legacy changes) = .ok snapshot) ↔
      AllTracked E ∧ ¬ ∃ w q v, LinksTask rt E w q v := by
  have hfacts : List.Forall₂ (FactOf rt) E facts := h.imp fun _ _ hy => hy.factOf
  constructor
  · rintro ⟨snapshot, hstrict, hcompact⟩
    have htracked := tracked_of_fromEvents hfacts hstrict
    refine ⟨htracked, ?_⟩
    rintro ⟨w, q, v, hlinks⟩
    obtain ⟨attention, openIds, shared, hstanding, hopen, hstrict', hcompact'⟩ :=
      snapshots_of_tracked hfacts htracked hlocal hlegacy changes
    rw [hstrict, Except.ok.injEq] at hstrict'
    rw [hcompact, Except.ok.injEq, hstrict'] at hcompact'
    have hitems := congrArg AttentionSemanticSnapshot.items hcompact'
    have hperm := ((perm_insertionSort attentionItemLE _).symm.trans
      (List.Perm.of_eq hitems)).trans (perm_insertionSort attentionItemLE _)
    rw [perm_append_left_iff] at hperm
    -- strict replay has a follow-up item that names the request
    obtain ⟨item, hitem, ids, hdetail, hq⟩ := followUpItem_of_linksTask
      (changeAwareSupersession legacy changes).replacement hlinks
      ((hopen q).mpr ⟨v, hlinks.openRequest⟩)
    have hmem := mem_followUpOutstandingItems.mpr ⟨_, _, (hstanding _ _).mpr
      ⟨w, hlinks.standing, rfl, rfl⟩, hitem⟩
    obtain ⟨r, record, -, hitem'⟩ := mem_followUpOutstandingItems.mp (hperm.mem_iff.mp hmem)
    -- the item of the facts names open requests only
    rw [followUpItem, Option.ite_none_left_eq_some, Option.ite_none_left_eq_some] at hitem'
    obtain ⟨-, -, hitem'⟩ := hitem'
    rw [← Option.some.inj hitem'] at hdetail
    injection hdetail with _ _ _ hids
    rw [← hids] at hq
    obtain ⟨v', hopen', hsubject⟩ := mem_rowIds.mp (of_decide_eq_true (mem_filter.mp hq).2)
    rw [hopen'.unique hlinks.openRequest, subject_isSome] at hsubject
    exact hsubject hlinks.task
  · rintro ⟨htracked, hlinks⟩
    obtain ⟨attention, openIds, shared, hstanding, hopen, hstrict, hcompact⟩ :=
      snapshots_of_tracked hfacts htracked hlocal hlegacy changes
    refine ⟨_, hstrict, ?_⟩
    rw [hcompact, followUpOutstandingItems_congr fun r record hrecord hverdict q hq => ?_]
    obtain ⟨w, hw, -, rfl⟩ := (hstanding r record).mp hrecord
    rw [hopen, mem_rowIds]
    refine exists_congr fun v => ⟨fun hv => hv.1, fun hv => ⟨hv, ?_⟩⟩
    rw [subject_isSome]
    intro htask
    exact hlinks ⟨w, q, v, hw, hverdict, mem_sortedUnique.mp hq, hv, htask⟩

end Parity

section FollowUps

open Recorded

def openedOnTask (q : Nat) : WirePayload :=
  .inputRequestOpened
    { inputRequestId := request q, target := .revision (rev 1),
      taskTarget := some (.taskAttempt ⟨text "work-object:task"⟩),
      reasonCode := .manualDecisionRequired, title := text "Ship it?", body := none,
      bodyContentType := .textPlain, bodyArtifactPath := none, bodyContentHash := none }

def acceptedFollowing (a r q : Nat) : WirePayload :=
  .reviewAssessmentRecorded
    { assessmentId := assessment a, target := .revision (rev r),
      assessment := .acceptedWithFollowUp, summary := none, summaryContentType := .textPlain,
      summaryArtifactPath := none, summaryContentHash := none, replacesAssessmentIds := [],
      relatedObservationIds := [], relatedInputRequestIds := [request q] }

def followsTask : List (ShoreEvent WirePayload) :=
  journal 1 [proposed 1, openedOnTask 1, acceptedFollowing 1 1 1]

theorem followsTask_differs : ∃ facts legacy, List.Forall₂ (Yields runtime) followsTask facts ∧
      LocalAssessments runtime followsTask ∧
      SupersessionView.fromEvents runtime followsTask = .ok legacy ∧
      ¬ ∃ snapshot, AttentionSemanticSnapshot.fromEvents runtime followsTask ⟨∅, []⟩ =
          .ok snapshot ∧
        AttentionSemanticSnapshot.fromFactsWithSupersession facts
          (changeAwareSupersession legacy ⟨∅, []⟩) = .ok snapshot := by
  have hrun : ∃ facts, followsTask.mapM readFact = .ok facts ∧
      ∃ legacy, SupersessionView.fromEvents runtime followsTask = .ok legacy ∧
      (∃ snapshot, fromEvents runtime followsTask ⟨∅, []⟩ = .ok snapshot ∧
        snapshot.items.length = 1) ∧
      ∃ snapshot, fromFactsWithSupersession facts
        (changeAwareSupersession legacy ⟨∅, []⟩) = .ok snapshot ∧ snapshot.items.length = 0 := by
    decide +kernel
  obtain ⟨facts, hfacts, legacy, hlegacy, ⟨_, hstrict, hone⟩, _, hcompact, hnone⟩ := hrun
  refine ⟨facts, legacy, yields_of_readFact hfacts, ⟨by decide +kernel, by decide +kernel⟩,
    hlegacy, ?_⟩
  rintro ⟨snapshot, hsnapshot, hsnapshot'⟩
  cases hstrict.symm.trans hsnapshot
  cases hcompact.symm.trans hsnapshot'
  omega

/-- The follow-up is a request of the Revision; one of a task is open beside it. -/
def followsRevision : List (ShoreEvent WirePayload) :=
  journal 1 [proposed 1, opened 1 1, openedOnTask 2, acceptedFollowing 1 1 1]

theorem followsRevision_parity :
    ∃ facts legacy snapshot, List.Forall₂ (Yields runtime) followsRevision facts ∧
      AttentionSemanticSnapshot.fromEvents runtime followsRevision ⟨∅, []⟩ = .ok snapshot ∧
      AttentionSemanticSnapshot.fromFactsWithSupersession facts
        (changeAwareSupersession legacy ⟨∅, []⟩) = .ok snapshot := by
  have hread : ∃ facts, followsRevision.mapM readFact = .ok facts ∧
      ∃ legacy, SupersessionView.fromEvents runtime followsRevision = .ok legacy ∧
      ∀ w ∈ assessmentRecords runtime followsRevision, ∀ q ∈ w.payload.relatedInputRequestIds,
        ((requestFamily runtime).lead followsRevision q).all (·.payload.taskTarget.isNone) := by
    decide +kernel
  obtain ⟨facts, hfacts, legacy, hlegacy, hreview⟩ := hread
  have hyields := yields_of_readFact hfacts
  have htracked : AllTracked followsRevision := by
    unfold AllTracked
    decide +kernel
  have hlinks : ¬ ∃ w q v, LinksTask runtime followsRevision w q v := by
    rintro ⟨w, q, v, h⟩
    have hlead := hreview w (Currency.first_spec h.standing.first).1 q h.linked
    rw [h.openRequest.opened, Option.all_some, Option.isNone_iff_eq_none] at hlead
    exact absurd h.task (by simp [hlead])
  have hlocal : LocalAssessments runtime followsRevision :=
    ⟨by decide +kernel, by decide +kernel⟩
  obtain ⟨snapshot, hstrict, hcompact⟩ :=
    (attention_parity_iff hyields hlocal hlegacy ⟨∅, []⟩).mpr ⟨htracked, hlinks⟩
  exact ⟨facts, legacy, snapshot, hyields, hstrict, hcompact⟩

end FollowUps

end Pointbreak
