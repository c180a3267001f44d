import Pointbreak.Lib.Currency
import Pointbreak.Semantic.Carrier
import Pointbreak.Workflow.Attention

/-!
# Semantic.Currency

Which assessments are current, from events and from facts. Strict replay chooses a carrier of each
assessment and drops what is replaced Revision by Revision; the fold over facts does both for the
whole store. They agree exactly when every assessment is settled (`currency_parity_iff`).
-/

namespace Pointbreak

open Std BTreeMap KeyedLog Currency List

structure AssessmentRecord extends AttentionAssessmentRecord where
  eventId : Text

def AssessmentRecord.asAttention (record : AssessmentRecord) : AttentionAssessmentRecord :=
  record.toAttentionAssessmentRecord

def assessmentRecordLE (a b : AssessmentRecord) : Prop :=
  attentionRecordLE a.asAttention b.asAttention

instance : DecidableRel assessmentRecordLE :=
  fun a b => inferInstanceAs (Decidable (attentionRecordLE a.asAttention b.asAttention))

def replaceLowest (map : BTreeMap Text SemanticFact) (id : Text) (fact : SemanticFact) :
    BTreeMap Text SemanticFact :=
  insertLeast compare SemanticFact.eventId map id fact

def enterRepresentative (representatives : BTreeMap Text SemanticFact) (fact : SemanticFact) :
    SemanticResult (BTreeMap Text SemanticFact) :=
  match fact.kind with
  | .assessment _ => do
    let id ← required fact.semanticId (text "semantic_id")
    .ok (replaceLowest representatives id fact)
  | _ => .ok representatives

def assessmentRepresentatives (facts : List SemanticFact) :
    SemanticResult (BTreeMap Text SemanticFact) :=
  facts.foldlM enterRepresentative ∅

def SemanticFact.replaces (fact : SemanticFact) : List Text :=
  match fact.kind with
  | .assessment assessment => assessment.replaces
  | _ => []

def replacedIds (representatives : BTreeMap Text SemanticFact) : BTreeSet Text :=
  BTreeSet.collect (representatives.vals.flatMap SemanticFact.replaces)

section Group

variable {β : Type} (read : Text → SemanticFact → AssessmentFact → SemanticResult β)

def pushCurrent (replaced : BTreeSet Text) (current : BTreeMap RevisionId (List β))
    (entry : Text × SemanticFact) : SemanticResult (BTreeMap RevisionId (List β)) :=
  if entry.1 ∈ replaced then .ok current
  else match entry.2.kind with
    | .assessment assessment => do
      let revisionId ← required entry.2.revisionId (text "revision_id")
      let record ← read entry.1 entry.2 assessment
      .ok (current.alter ⟨revisionId⟩ fun group => some (group.getD [] ++ [record]))
    | _ => .ok current

/-- What the two folds over facts share: the thread documents keep the verdicts, the attention
items whole records. -/
def groupCurrent (facts : List SemanticFact) : SemanticResult (BTreeMap RevisionId (List β)) := do
  let representatives ← assessmentRepresentatives facts
  representatives.toList.foldlM (pushCurrent read (replacedIds representatives)) ∅

end Group

def currentAssessments (facts : List SemanticFact) :
    SemanticResult (BTreeMap RevisionId (List ReviewAssessment)) :=
  groupCurrent (fun _ _ assessment => .ok assessment.assessment) facts

def readAssessmentRecord (id : Text) (fact : SemanticFact) (assessment : AssessmentFact) :
    SemanticResult AssessmentRecord := do
  let trackId ← required fact.trackId (text "track_id")
  .ok {
    eventId := fact.eventId
    assessmentId := ⟨id⟩
    assessment := assessment.assessment
    trackId := ⟨trackId⟩
    recordedBy := ⟨fact.actorId⟩
    recordedAt := fact.occurredAt
    relatedObservationIds := sortedUnique (assessment.relatedObservations.map Ident.mk)
    relatedInputRequestIds := sortedUnique (assessment.relatedRequests.map Ident.mk)
    revisionScoped := assessment.revisionScoped }

def currentAssessmentRecords (facts : List SemanticFact) :
    SemanticResult (BTreeMap RevisionId (List AssessmentRecord)) := do
  let current ← groupCurrent readAssessmentRecord facts
  .ok (current.map fun _ records => records.insertionSort assessmentRecordLE)

section Carriers

variable {V : Type} {rt : Runtime V} {E : List (ShoreEvent V)} {facts : List SemanticFact}
  {e : ShoreEvent V} {f : SemanticFact} {w : AssessmentEventRecord V}

def assessmentRecordOf (rt : Runtime V) (e : ShoreEvent V) : Option (AssessmentEventRecord V) :=
  if e.eventType = .reviewAssessmentRecorded then
    (readAssessment rt e).toOption.join.map Prod.snd
  else none

def assessmentRecords (rt : Runtime V) (E : List (ShoreEvent V)) :
    List (AssessmentEventRecord V) :=
  E.filterMap (assessmentRecordOf rt)

def assessmentReading :
    Currency.Reading (AssessmentEventRecord V) RevisionId AssessmentId EventId where
  group record := record.payload.target.revisionOf
  id record := record.payload.assessmentId
  stamp record := record.event.eventId
  names record := record.payload.replacesAssessmentIds

/-- Every assessment is on a track. -/
def Tracked (E : List (ShoreEvent V)) : Prop :=
  ∀ e ∈ E, e.eventType = .reviewAssessmentRecorded → e.target.trackId.isSome

theorem assessmentRecordOf_eq_some : assessmentRecordOf rt e = some w ↔
    e.eventType = .reviewAssessmentRecorded ∧ rt.reviewAssessmentRecorded e.payload = .ok w.payload ∧
      e.target.trackId = some w.trackId ∧ w.event = e := by
  unfold assessmentRecordOf
  by_cases ht : e.eventType = .reviewAssessmentRecorded
  · rw [if_pos ht]
    constructor
    · intro h
      cases hr : readAssessment rt e with
      | error x => simp [hr, Except.toOption] at h
      | ok entry =>
        obtain ⟨payload, trackId, hp, htrack, rfl⟩ := (readAssessment_eq_ok ht).mp hr
        simp only [hr, Except.toOption, Option.join_some, Option.map_some, Option.some.injEq] at h
        subst h
        exact ⟨ht, hp, htrack, rfl⟩
    · rintro ⟨-, hp, htrack, rfl⟩
      rw [(readAssessment_eq_ok ht).mpr ⟨w.payload, w.trackId, hp, htrack, rfl⟩]
      rfl
  · simp [ht]

/-- What the fact of an assessment event says of its record. -/
structure CarriedBy (w : AssessmentEventRecord V) (f : SemanticFact) : Prop where
  eventId : f.eventId = w.event.eventId.asStr
  occurredAt : f.occurredAt = w.event.occurredAt
  actorId : f.actorId = w.event.writer.actorId.asStr
  trackId : f.trackId = some w.trackId.asStr
  revisionId : f.revisionId = some w.payload.target.revisionOf.asStr
  semanticId : f.semanticId = some w.payload.assessmentId.asStr
  kind : f.kind = (ClassifiedFact.assessment none w.payload).kind

theorem carriedBy_of_factOf (hw : assessmentRecordOf rt e = some w) (hf : FactOf rt e f) :
    CarriedBy w f := by
  obtain ⟨ht, hp, htrack, rfl⟩ := assessmentRecordOf_eq_some.mp hw
  have hreads := hf.reads
  simp only [Reads, ht] at hreads
  obtain ⟨p, hp', hc⟩ := hreads
  cases hp.symm.trans hp'
  simp only [ClassifiedFact.assessment, ClassifiedFact.mk.injEq] at hc
  obtain ⟨hrev, hid, -, hkind⟩ := hc
  exact ⟨hf.eventId, hf.occurredAt, hf.actorId, by rw [hf.trackId, htrack]; rfl, hrev, hid, hkind⟩

theorem assessmentRecordEntry_eq (ht : e.eventType = .reviewAssessmentRecorded) :
    assessmentRecordEntry rt e = (assessmentRecordOf rt e).map fun w =>
      ((assessmentReading.group w, assessmentReading.id w), (assessmentReading.stamp w, w)) := by
  rw [assessmentRecordEntry, assessmentRecordOf, if_pos ht]
  cases hr : readAssessment rt e with
  | error x => rfl
  | ok entry =>
    obtain ⟨payload, trackId, -, -, rfl⟩ := (readAssessment_eq_ok ht).mp hr
    rfl

theorem entries_assessmentRecordEntry (E : List (ShoreEvent V)) (r : RevisionId)
    (a : AssessmentId) :
    entries (assessmentRecordEntry rt) (r, a)
        (E.filter fun event => event.eventType = .reviewAssessmentRecorded) =
      entries (fun w => some (assessmentReading.id w, (assessmentReading.stamp w, w))) a
        ((assessmentRecords rt E).filter fun w => assessmentReading.group w = r) := by
  simp only [entries, assessmentRecords, filterMap_filter, filterMap_filterMap,
    decide_eq_true_eq]
  refine filterMap_congr fun e _ => ?_
  by_cases ht : e.eventType = .reviewAssessmentRecorded
  · rw [if_pos ht, assessmentRecordEntry_eq ht]
    cases assessmentRecordOf rt e with
    | none => rfl
    | some w =>
      by_cases hg : assessmentReading.group w = r <;>
        by_cases hi : assessmentReading.id w = a <;> simp [hg, hi]
  · rw [if_neg ht, assessmentRecordOf, if_neg ht]
    rfl

theorem assessment_decodes (h : List.Forall₂ (FactOf rt) E facts) :
    ∀ e ∈ E, e.eventType = .reviewAssessmentRecorded →
      ∃ p, rt.reviewAssessmentRecorded e.payload = .ok p := by
  intro e he ht
  obtain ⟨f, hf⟩ := exists_factOf h he
  have hreads := hf.reads
  simp only [Reads, ht] at hreads
  obtain ⟨p, hp, -⟩ := hreads
  exact ⟨p, hp⟩

theorem collectAssessmentRecordsByRevision_ok_iff
    (hread : ∀ e ∈ E, e.eventType = .reviewAssessmentRecorded →
      ∃ p, rt.reviewAssessmentRecorded e.payload = .ok p) :
    (∃ byRevision, collectAssessmentRecordsByRevision rt E = .ok byRevision) ↔ Tracked E := by
  have hok : ∀ e ∈ E, e.eventType = .reviewAssessmentRecorded →
      ((∃ x, readAssessment rt e = .ok x) ↔ e.target.trackId.isSome) := by
    intro e he ht
    obtain ⟨p, hp⟩ := hread e he ht
    simp [readAssessment_eq_ok ht, hp, Option.isSome_iff_exists]
  constructor
  · rintro ⟨byRevision, hby⟩ e he ht
    refine (hok e he ht).mp (((foldlM_read (collectAssessmentRecord_eq rt)).mp hby).1 e ?_)
    exact mem_filter.mpr ⟨he, decide_eq_true ht⟩
  · intro htracked
    obtain ⟨byRevision, hby, -⟩ := collectAssessmentRecordsByRevision_eq_ok
      fun e he ht => (hok e he ht).mpr (htracked e he ht)
    exact ⟨byRevision, hby⟩

theorem get_collectAssessmentRecords
    {byRevision : AssessmentTable V}
    (hby : collectAssessmentRecordsByRevision rt E = .ok byRevision) (r : RevisionId)
    (a : AssessmentId) :
    ((byRevision[r]?.getD ∅)[a]?).map (fun w => (assessmentReading.stamp w, w)) =
      Currency.firstIn compare assessmentReading (assessmentRecords rt E) r a := by
  have hread := ((foldlM_read (collectAssessmentRecord_eq rt)).mp hby).1
  obtain ⟨byRevision', hby', hget⟩ := collectAssessmentRecordsByRevision_eq_ok
    fun e he ht => hread e (mem_filter.mpr ⟨he, decide_eq_true ht⟩)
  cases hby.symm.trans hby'
  rw [firstIn, Currency.first, ← entries_assessmentRecordEntry, ← hget]
  cases byRevision[r]? <;> simp [assessmentReading]

def assessmentFamily (rt : Runtime V) :
    CarrierFamily V (AssessmentEventRecord V) AssessmentId where
  recordOf := assessmentRecordOf rt
  event record := record.event
  key record := record.payload.assessmentId
  event_recordOf _ _ h := (assessmentRecordOf_eq_some.mp h).2.2.2

abbrev LeadTable (V : Type) : Type :=
  BTreeMap AssessmentId (AssessmentEventRecord V × SemanticFact)

/-- The representatives are the facts of the table, and each stands for its record. -/
structure Leads (m : LeadTable V) (m' : BTreeMap Text SemanticFact) : Prop where
  renames : Renames Ident.asStr Prod.snd m m'
  carried : ∀ (a : AssessmentId) x, m[a]? = some x →
    x.1.payload.assessmentId = a ∧ CarriedBy x.1 x.2

theorem enterRepresentative_eq (htracked : Tracked E) (he : e ∈ E) (hf : FactOf rt e f)
    (m : BTreeMap Text SemanticFact) :
    enterRepresentative m f = .ok ((assessmentFamily rt).enterFact Ident.asStr m e f) := by
  have hkind := hf.kindOf
  unfold enterRepresentative CarrierFamily.enterFact
  by_cases ht : e.eventType = .reviewAssessmentRecorded
  · have hreads := hf.reads
    simp only [Reads, ht] at hreads
    obtain ⟨p, hp, -⟩ := hreads
    obtain ⟨trackId, htrack⟩ := Option.isSome_iff_exists.mp (htracked e he ht)
    have hw : assessmentRecordOf rt e = some ⟨e, p, trackId⟩ :=
      assessmentRecordOf_eq_some.mpr ⟨ht, hp, htrack, rfl⟩
    have hc := carriedBy_of_factOf hw hf
    simp only [hc.kind, hc.semanticId, ClassifiedFact.assessment, assessmentFamily, hw]
    rfl
  · have hnone : assessmentRecordOf rt e = none := by simp [assessmentRecordOf, ht]
    simp only [assessmentFamily, hnone, Option.elim_none]
    split
    · rename_i assessment hk
      rw [hk] at hkind
      exact absurd hkind ht
    · rfl

theorem leads_of_tracked (h : List.Forall₂ (FactOf rt) E facts) (htracked : Tracked E) :
    ∃ (m : LeadTable V) (m' : BTreeMap Text SemanticFact),
      assessmentRepresentatives facts = .ok m' ∧ Leads m m' ∧
      ∀ a, ((m.map fun _ x => x.1)[a]?).map (fun w => (assessmentReading.stamp w, w)) =
        Currency.first compare assessmentReading (assessmentRecords rt E) a := by
  obtain ⟨m, m', hm', hpairs⟩ := CarrierFamily.run h keepsOrder_asStr.injective
    fun e he f hf m => enterRepresentative_eq htracked he hf m
  refine ⟨m, m', hm', ⟨hpairs.facts, ?_⟩, ?_⟩
  · intro a x hx
    obtain ⟨hw, hkey, hf⟩ := hpairs.carried a x hx
    exact ⟨hkey, carriedBy_of_factOf hw hf⟩
  · intro a
    rw [ExtTreeMap.getElem?_map, ← hpairs.records a]
    exact CarrierFamily.get_table E a

section Standing

variable {records : BTreeMap AssessmentId (AssessmentEventRecord V)}
  {standing : AssessmentId → Option (EventId × AssessmentEventRecord V)}
  (hget : ∀ a, records[a]?.map (fun w => (assessmentReading.stamp w, w)) = standing a)
  (hid : ∀ a x, standing a = some x → assessmentReading.id x.2 = a)
include hget hid

theorem mem_currentRecords : w ∈ currentRecords records ↔
      standing (assessmentReading.id w) = some (assessmentReading.stamp w, w) ∧
        ¬ Currency.Named assessmentReading standing (assessmentReading.id w) := by
  have hmem : ∀ a v, records[a]? = some v ↔ standing a = some (assessmentReading.stamp v, v) := by
    intro a v
    simp [← hget]
  have hvals : ∀ v, v ∈ records.vals ↔
      standing (assessmentReading.id v) = some (assessmentReading.stamp v, v) := by
    intro v
    simp only [mem_vals_iff, hmem]
    constructor
    · rintro ⟨a, ha⟩
      rwa [hid a _ ha]
    · exact fun hs => ⟨_, hs⟩
  have hnamed : ∀ a, a ∈ BTreeSet.collect (records.vals.flatMap (·.payload.replacesAssessmentIds)) ↔
      Currency.Named assessmentReading standing a := by
    intro a
    simp only [BTreeSet.mem_collect, mem_flatMap, mem_vals_iff, Currency.Named, ← hget,
      Option.map_eq_some_iff, exists_exists_and_eq_and]
    simp only [← exists_and_right]
    exact exists_comm
  rw [currentRecords, mem_filter, hvals, decide_eq_true_eq, hnamed]
  rfl

theorem currentRecords_ordered : (currentRecords records).Pairwise
    fun w w' => compare (assessmentReading.id w) (assessmentReading.id w') = .lt := by
  have hkey : ∀ x ∈ records.toList, assessmentReading.id x.2 = x.1 := by
    intro x hx
    refine hid x.1 (assessmentReading.stamp x.2, x.2) ?_
    rw [← hget, mem_toList_iff.mp hx]
    rfl
  refine List.Pairwise.sublist filter_sublist (pairwise_map.mpr ?_)
  refine records.ordered_keys_toList.imp_of_mem ?_
  intro x y hx hy hxy
  rw [hkey x hx, hkey y hy]
  exact hxy

end Standing

def leadsOn (m : LeadTable V) (r : RevisionId) : List (AssessmentEventRecord V × SemanticFact) :=
  let replaced := BTreeSet.collect (m.vals.flatMap (·.1.payload.replacesAssessmentIds))
  m.vals.filter fun x => x.1.payload.assessmentId ∉ replaced ∧ x.1.payload.target.revisionOf = r

theorem map_leadsOn (m : LeadTable V) (r : RevisionId) :
    (leadsOn m r).map Prod.fst = (currentRecords (m.map fun _ x => x.1)).filter
      fun w => assessmentReading.group w = r := by
  have hvals : BTreeMap.vals (ExtTreeMap.map (fun _ x => x.1) m) = m.vals.map Prod.fst := by
    have hrenames : Renames id Prod.fst m (m.map fun _ x => x.1) := fun k => by simp
    exact hrenames.vals_eq (fun _ _ => rfl) Function.surjective_id
  simp only [currentRecords, hvals, flatMap_map, filter_map, filter_filter, leadsOn]
  refine congrArg _ (filter_congr ?_)
  intro x _
  rw [Bool.decide_and, Bool.and_comm]
  rfl

section Grouping

variable {β : Type} {read : Text → SemanticFact → AssessmentFact → SemanticResult β}
  {value : AssessmentEventRecord V × SemanticFact → β} {m : LeadTable V}
  {m' : BTreeMap Text SemanticFact}

theorem replaces_of_carriedBy (h : CarriedBy w f) :
    f.replaces = w.payload.replacesAssessmentIds.map Ident.asStr := by
  simp only [SemanticFact.replaces, h.kind, ClassifiedFact.assessment]

theorem Leads.mem_replacedIds (h : Leads m m') {a : AssessmentId} :
    a.asStr ∈ replacedIds m' ↔
      a ∈ BTreeSet.collect (m.vals.flatMap (·.1.payload.replacesAssessmentIds)) := by
  have hvals : m'.vals = m.vals.map Prod.snd := h.renames.vals_eq keepsOrder_asStr surjective_asStr
  simp only [replacedIds, BTreeSet.mem_collect, hvals, flatMap_map, mem_flatMap]
  refine exists_congr fun x => and_congr_right fun hx => ?_
  obtain ⟨b, hb⟩ := mem_vals_iff.mp hx
  rw [replaces_of_carriedBy (h.carried b x hb).2]
  exact mem_map_of_injective keepsOrder_asStr.injective

theorem Leads.pushCurrent_eq (h : Leads m m')
    (hread : ∀ w f, CarriedBy w f → ∀ assessment, f.kind = .assessment assessment →
      read w.payload.assessmentId.asStr f assessment = .ok (value (w, f)))
    {a : AssessmentId} {x : AssessmentEventRecord V × SemanticFact} (hx : m[a]? = some x)
    (current : BTreeMap RevisionId (List β)) :
    pushCurrent read (replacedIds m') current (a.asStr, x.2) =
      .ok (if x.1.payload.assessmentId ∉
          BTreeSet.collect (m.vals.flatMap (·.1.payload.replacesAssessmentIds)) then
        current.alter x.1.payload.target.revisionOf
          fun group => some (group.getD [] ++ [value x])
        else current) := by
  obtain ⟨rfl, hc⟩ := h.carried a x hx
  rw [pushCurrent]
  simp only [h.mem_replacedIds, ite_not]
  split
  · rfl
  · have hval := hread x.1 x.2 hc _ hc.kind
    simp only [hc.kind, hc.revisionId, ClassifiedFact.assessment] at hval ⊢
    rw [required_some, hval]
    rfl

theorem Leads.group (h : Leads m m')
    (hread : ∀ w f, CarriedBy w f → ∀ assessment, f.kind = .assessment assessment →
      read w.payload.assessmentId.asStr f assessment = .ok (value (w, f))) :
    ∃ current, m'.toList.foldlM (pushCurrent read (replacedIds m')) ∅ = .ok current ∧
      ∀ r, current[r]?.getD [] = (leadsOn m r).map value := by
  rw [h.renames.toList_eq keepsOrder_asStr surjective_asStr, foldlM_map]
  refine ⟨_, foldlM_eq_ok (fun current x hx =>
    h.pushCurrent_eq hread (mem_toList_iff.mp hx) current) ∅, fun r => ?_⟩
  rw [getD_foldl_group_if (fun x : AssessmentId × (AssessmentEventRecord V × SemanticFact) =>
      x.2.1.payload.assessmentId ∉
        BTreeSet.collect (m.vals.flatMap (·.1.payload.replacesAssessmentIds)))
    , leadsOn]
  conv_rhs => rw [vals, filter_map, map_map]
  rfl

end Grouping

theorem readAssessmentRecord_of_carriedBy (h : CarriedBy w f) {assessment : AssessmentFact}
    (hkind : f.kind = .assessment assessment) :
    readAssessmentRecord w.payload.assessmentId.asStr f assessment =
      .ok { w.attention with eventId := f.eventId } := by
  have hids : ∀ {kind : IdKind} (ids : List (Ident kind)),
      (ids.map Ident.asStr).map Ident.mk = ids := fun ids => by simp [Function.comp_def]
  rw [h.kind, ClassifiedFact.assessment, SemanticFactKind.assessment.injEq] at hkind
  subst hkind
  rw [readAssessmentRecord, h.trackId, required_some]
  simp only [bind, Except.bind, h.actorId, h.occurredAt, hids]
  rfl

def lifecycleOptions (events : List (ShoreEvent V)) (r : RevisionId) :
    AssessmentProjectionOptions V where
  backend := none
  events := events
  revisionId := r
  trackFilter := none
  includeSummary := false
  includeAll := false
  readForDisplay := false
  removalLens := none

/-- All folds succeed, and each Revision has the same current assessments in the thread and in the
attention projection, from events and from facts. -/
def SameCurrency (rt : Runtime V) (events : List (ShoreEvent V)) (facts : List SemanticFact) :
    Prop :=
  ∃ attention current records,
    currentAssessmentRecordsByRevision rt events = .ok attention ∧
    currentAssessments facts = .ok current ∧ currentAssessmentRecords facts = .ok records ∧
    ∀ r : RevisionId,
      (∃ view all, projectAssessments rt (lifecycleOptions events r) = .ok (view, all) ∧
        (view.records.map (·.assessment)).Perm (current[r]?.getD [])) ∧
      attention[r]?.getD [] = (records[r]?.getD []).map (·.asAttention)

theorem listings_of_collect {m : LeadTable V}
    (hwhole : ∀ a, ((m.map fun _ x => x.1)[a]?).map (fun w => (assessmentReading.stamp w, w)) =
      Currency.first compare assessmentReading (assessmentRecords rt E) a)
    {byRevision : AssessmentTable V}
    (hby : collectAssessmentRecordsByRevision rt E = .ok byRevision) :
    Currency.Listings compare assessmentReading (assessmentRecords rt E)
      (fun r => currentRecords (byRevision[r]?.getD ∅))
      (fun r => (leadsOn m r).map Prod.fst) := by
  constructor
  · intro r w
    exact mem_currentRecords (get_collectAssessmentRecords hby r)
      fun a x hx => (firstIn_spec hx).2.2.1
  · intro r w
    rw [map_leadsOn, mem_filter, decide_eq_true_eq,
      mem_currentRecords hwhole fun a x hx => (first_spec hx).2.1]
  · intro r
    exact currentRecords_ordered (get_collectAssessmentRecords hby r)
      fun a x hx => (firstIn_spec hx).2.2.1
  · intro r
    rw [map_leadsOn]
    exact (currentRecords_ordered hwhole
      fun a x hx => (first_spec hx).2.1).sublist filter_sublist

section Documents

variable {byRevision : AssessmentTable V}

theorem attention_of_collect (hby : collectAssessmentRecordsByRevision rt E = .ok byRevision) :
    ∃ attention, currentAssessmentRecordsByRevision rt E = .ok attention ∧
      ∀ r : RevisionId, attention[r]?.getD [] = ((currentRecords (byRevision[r]?.getD ∅)).map
        (·.attention)).insertionSort attentionRecordLE := by
  refine ⟨_, by rw [currentAssessmentRecordsByRevision, hby]; rfl, fun r => ?_⟩
  rw [ExtTreeMap.getElem?_map]
  cases byRevision[r]? <;> rfl

theorem thread_of_collect (hby : collectAssessmentRecordsByRevision rt E = .ok byRevision)
    (r : RevisionId) :
    ∃ view all, projectAssessments rt (lifecycleOptions E r) = .ok (view, all) ∧
      (view.records.map (·.assessment)).Perm
        ((currentRecords (byRevision[r]?.getD ∅)).map (·.payload.assessment)) := by
  have hrecords : collectAssessmentRecords rt (lifecycleOptions E r).events
      (lifecycleOptions E r).revisionId = .ok (byRevision[r]?.getD ∅) := by
    rw [collectAssessmentRecords]
    change (collectAssessmentRecordsByRevision rt E >>= _) = _
    rw [hby]
    rfl
  refine ⟨_, _, projectAssessments_eq hrecords rfl fun _ _ => ⟨(none, .present), rfl⟩, ?_⟩
  refine ((presentAssessments_records false _ _ _).map _).trans (List.Perm.of_eq ?_)
  rw [map_map]
  rfl

variable {m : LeadTable V} {m' : BTreeMap Text SemanticFact}
  (hm' : assessmentRepresentatives facts = .ok m') (hleads : Leads m m')

include hm' hleads

theorem group_of_leads {β : Type} (read : Text → SemanticFact → AssessmentFact → SemanticResult β)
    (value : AssessmentEventRecord V × SemanticFact → β)
    (hread : ∀ w f, CarriedBy w f → ∀ assessment, f.kind = .assessment assessment →
      read w.payload.assessmentId.asStr f assessment = .ok (value (w, f))) :
    ∃ current, groupCurrent read facts = .ok current ∧
      ∀ r : RevisionId, current[r]?.getD [] = (leadsOn m r).map value := by
  obtain ⟨current, hcurrent, hget⟩ := hleads.group hread
  refine ⟨current, ?_, hget⟩
  rw [groupCurrent, hm']
  exact hcurrent

theorem currentAssessments_of_leads :
    ∃ current, currentAssessments facts = .ok current ∧ ∀ r : RevisionId, current[r]?.getD [] =
      ((leadsOn m r).map Prod.fst).map (·.payload.assessment) := by
  obtain ⟨current, hcurrent, hget⟩ := group_of_leads hm' hleads
    (fun _ _ assessment => .ok assessment.assessment) (fun x => x.1.payload.assessment) <| by
      intro w f hc assessment hkind
      rw [hc.kind, ClassifiedFact.assessment, SemanticFactKind.assessment.injEq] at hkind
      subst hkind
      rfl
  refine ⟨current, hcurrent, fun r => ?_⟩
  rw [hget, map_map]
  rfl

theorem currentAssessmentRecords_of_leads :
    ∃ records, currentAssessmentRecords facts = .ok records ∧ ∀ r : RevisionId,
      records[r]?.getD [] = ((leadsOn m r).map fun x =>
        { x.1.attention with eventId := x.2.eventId }).insertionSort assessmentRecordLE := by
  obtain ⟨current, hcurrent, hget⟩ := group_of_leads hm' hleads readAssessmentRecord
    (fun x => { x.1.attention with eventId := x.2.eventId })
    fun w f hc assessment hkind => readAssessmentRecord_of_carriedBy hc hkind
  refine ⟨_, by rw [currentAssessmentRecords, hcurrent]; rfl, fun r => ?_⟩
  rw [← hget, ExtTreeMap.getElem?_map]
  cases current[r]? <;> rfl

omit hm' hleads in
theorem map_asAttention (leads : List (AssessmentEventRecord V × SemanticFact)) :
    ((leads.map fun x => { x.1.attention with eventId := x.2.eventId }).insertionSort
        assessmentRecordLE).map (·.asAttention) =
      ((leads.map Prod.fst).map (·.attention)).insertionSort attentionRecordLE := by
  rw [map_insertionSort assessmentRecordLE attentionRecordLE _ _ fun _ _ _ _ => Iff.rfl,
    map_map, map_map]
  rfl

end Documents

/-- The current assessments are the same exactly when every assessment has a track, every
assessment is replaced within its own Revision if it is replaced at all, and every assessment
that another Revision also carries is replaced there. -/
theorem currency_parity_iff (h : List.Forall₂ (Yields rt) E facts) :
    SameCurrency rt E facts ↔
      Tracked E ∧ Currency.Settled compare assessmentReading (assessmentRecords rt E) := by
  have hfacts : List.Forall₂ (FactOf rt) E facts := h.imp fun _ _ hy => hy.factOf
  have hread := assessment_decodes hfacts
  constructor
  · rintro ⟨attention, current, records, hattention, -, hrecords, hsame⟩
    obtain ⟨byRevision, hby, -⟩ := Result.bind_eq_ok.mp hattention
    have htracked := (collectAssessmentRecordsByRevision_ok_iff hread).mp ⟨byRevision, hby⟩
    obtain ⟨m, m', hm', hleads, hwhole⟩ := leads_of_tracked hfacts htracked
    have hlist := listings_of_collect hwhole hby
    refine ⟨htracked, agree_iff.mp fun r a => ?_⟩
    rw [hlist.currentIn_iff, hlist.currentFrom_iff]
    obtain ⟨attention', hattention', hstrict⟩ := attention_of_collect hby
    obtain ⟨records', hrecords', hcompact⟩ := currentAssessmentRecords_of_leads hm' hleads
    cases hattention.symm.trans hattention'
    cases hrecords.symm.trans hrecords'
    have heq := (hsame r).2
    rw [hstrict, hcompact, map_asAttention] at heq
    -- sorting loses no record, and a record shows its id
    have hperm := ((perm_insertionSort attentionRecordLE _).symm.trans
      (List.Perm.of_eq heq)).trans (perm_insertionSort attentionRecordLE _)
    have hids := (hperm.map (·.assessmentId)).mem_iff (a := a)
    simpa [AssessmentEventRecord.attention, assessmentReading] using hids
  · rintro ⟨htracked, hsettled⟩
    obtain ⟨byRevision, hby⟩ := (collectAssessmentRecordsByRevision_ok_iff hread).mpr htracked
    obtain ⟨m, m', hm', hleads, hwhole⟩ := leads_of_tracked hfacts htracked
    have hlist := listings_of_collect hwhole hby
    obtain ⟨attention, hattention, hstrict⟩ := attention_of_collect hby
    obtain ⟨current, hcurrent, hverdicts⟩ := currentAssessments_of_leads hm' hleads
    obtain ⟨records, hrecords, hcompact⟩ := currentAssessmentRecords_of_leads hm' hleads
    refine ⟨attention, current, records, hattention, hcurrent, hrecords, fun r => ⟨?_, ?_⟩⟩
    · obtain ⟨view, all, hview, hperm⟩ := thread_of_collect hby r
      refine ⟨view, all, hview, ?_⟩
      rw [hverdicts, ← hlist.eq_of_settled hsettled]
      exact hperm
    · rw [hstrict, hcompact, map_asAttention, ← hlist.eq_of_settled hsettled]

end Carriers

section Replacement

open Recorded

/-- An assessment of one Revision that names one of another. -/
def replacedAcross : List (ShoreEvent WirePayload) :=
  journal 1 [proposed 1, proposed 2, assessed 1 1 .accepted [],
    assessed 2 2 .needsChanges [assessment 1]]

/-- One assessment id on two Revisions. -/
def carriedTwice : List (ShoreEvent WirePayload) :=
  journal 1 [proposed 1, proposed 2, assessed 1 1 .accepted [], assessed 1 2 .accepted []]

/-- Strict replay has a current assessment on the Revision where the facts have none. -/
def LosesOn (E : List (ShoreEvent WirePayload)) (r : RevisionId) : Prop :=
  (currentAssessmentRecordsByRevision runtime E).toOption.any
      (fun attention => (attention[r]?.getD []).length = 1) = true ∧
    (E.mapM readFact).toOption.any (fun facts =>
      (currentAssessmentRecords facts).toOption.any
        fun records => (records[r]?.getD []).length = 0) = true

theorem not_sameCurrency_of_losesOn {E : List (ShoreEvent WirePayload)} {r : RevisionId}
    (h : LosesOn E r) : ∃ facts, List.Forall₂ (Yields runtime) E facts ∧
      ¬ SameCurrency runtime E facts := by
  obtain ⟨hstrict, hcompact⟩ := h
  simp only [Option.any_eq_true, Result.toOption_eq_some, decide_eq_true_eq] at hstrict hcompact
  obtain ⟨attention, hattention, hone⟩ := hstrict
  obtain ⟨facts, hfacts, records, hrecords, hnone⟩ := hcompact
  refine ⟨facts, yields_of_readFact hfacts, ?_⟩
  rintro ⟨attention', current, records', hattention', -, hrecords', hsame⟩
  cases hattention.symm.trans hattention'
  cases hrecords.symm.trans hrecords'
  have hlength := congrArg List.length (hsame r).2
  rw [length_map, hone, hnone] at hlength
  cases hlength

theorem replacedAcross_differs :
    (∃ facts, List.Forall₂ (Yields runtime) replacedAcross facts ∧
      ¬ SameCurrency runtime replacedAcross facts) ∧
    ∃ facts, List.Forall₂ (Yields runtime) carriedTwice facts ∧
      ¬ SameCurrency runtime carriedTwice facts := by
  have hacross : LosesOn replacedAcross (rev 1) := by
    unfold LosesOn
    decide +kernel
  have htwice : LosesOn carriedTwice (rev 2) := by
    unfold LosesOn
    decide +kernel
  exact ⟨not_sameCurrency_of_losesOn hacross, not_sameCurrency_of_losesOn htwice⟩

/-- Assessments of two Revisions, one of them replaced on its own. -/
def replacedWithin : List (ShoreEvent WirePayload) :=
  journal 1 [proposed 1, proposed 2, assessed 1 1 .needsChanges [],
    assessed 2 1 .accepted [assessment 1], assessed 3 2 .accepted []]

theorem replacedWithin_sameCurrency :
    ∃ facts, List.Forall₂ (Yields runtime) replacedWithin facts ∧
      SameCurrency runtime replacedWithin facts := by
  obtain ⟨facts, hfacts, -⟩ : ∃ facts, replacedWithin.mapM readFact = .ok facts ∧ True := by
    decide +kernel
  have htracked : Tracked replacedWithin := by
    unfold Tracked
    decide +kernel
  have hsettled : Currency.Settled compare assessmentReading
      (assessmentRecords runtime replacedWithin) :=
    settled_of_local (by decide +kernel) (by decide +kernel)
  have hyields := yields_of_readFact hfacts
  exact ⟨facts, hyields, (currency_parity_iff hyields).mpr ⟨htracked, hsettled⟩⟩

end Replacement

end Pointbreak
