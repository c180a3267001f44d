import Pointbreak.Projection.ChangeSpec

/-!
# Projection.ChangeRefinement

The view of a Change refines the meaning of the facts. `ViewSpec` pins a view down: its members,
edges, qualified Revisions, obligations and diagnostics are read off the facts, and its other fields
are functions of these (`ChangeView.Consistent`).
-/

namespace Pointbreak

open Std KeyedLog Relation ChangeProjectionFact ChangeFindings FoldInput BTreeSet ExtTreeSet

variable {F : List ChangeProjectionFact} {sha : Sha256} {c : ChangeId}

theorem mem_declarations {d : ChangeIdentityDescriptorV1} :
    d ∈ entries ChangeProjectionFact.declarationEntry c F ↔ .declaration c d ∈ F := by
  simp [mem_entries]

theorem checkDeclaration_foldlM {ds : List ChangeIdentityDescriptorV1}
    (h : ∀ d ∈ ds, deriveChangeId sha d = .ok c) (found : ChangeFindings) :
    ds.foldlM (FoldInput.checkDeclaration c sha) found = .ok found := by
  induction ds generalizing found with
  | nil => rfl
  | cons d ds ih =>
    rw [List.foldlM_cons, Result.bind_eq_ok]
    refine ⟨found, ?_, ih (fun d' hd' => h d' (.tail _ hd')) found⟩
    simp [checkDeclaration, h d (.head _)]

theorem checkDeclarations_spec (hw : WellDeclared F sha) (c : ChangeId) :
    ∃ found, (foldFacts F).checkDeclarations c sha = .ok found ∧ found.Coherent ∧
      ∀ d, d ∈ found.diagnostics ↔
        (d = .changeDeclarationMissing ∧ Diagnosed F c .changeDeclarationMissing) ∨
        (d = .changeDeclarationConflict ∧ Diagnosed F c .changeDeclarationConflict) := by
  have hmem : ∀ d, d ∈ entries declarationEntry c F ↔ .declaration c d ∈ F :=
    fun d => mem_declarations
  rw [checkDeclarations, foldFacts_declarations]
  by_cases hnil : entries declarationEntry c F = []
  · have hnone : ∀ d, .declaration c d ∉ F := by
      intro d hd
      rw [← hmem, hnil] at hd
      cases hd
    rw [if_pos hnil]
    refine ⟨_, rfl, ?_, ?_⟩
    · rw [markIncomplete_eq _ .changeDeclarationMissing rfl]
      exact coherent_empty.report _
    · intro d
      rw [markIncomplete_eq _ .changeDeclarationMissing rfl,
        mem_report]
      simp [Diagnosed, hnone]
  · have hsome : ∃ d, .declaration c d ∈ F := by
      obtain ⟨d, hd⟩ := List.exists_mem_of_ne_nil _ hnil
      exact ⟨d, (hmem d).mp hd⟩
    have hconflict : 1 < (BTreeSet.collect ((entries declarationEntry c F).map
        fun item => item.toValue.render)).size ↔ Diagnosed F c .changeDeclarationConflict := by
      simp [one_lt_size_iff, mem_collect, hmem, Diagnosed]
    have hok : ∀ d ∈ entries declarationEntry c F,
        deriveChangeId sha d = .ok c := fun d hd => hw c d ((hmem d).mp hd)
    have hmiss : ¬ Diagnosed F c .changeDeclarationMissing := fun h => hsome.elim h
    rw [if_neg hnil]
    simp only [checkDeclaration_foldlM hok]
    refine ⟨_, rfl, ?_⟩
    split_ifs with hlt
    · rw [markDeclarationConflict_eq _ .changeDeclarationConflict rfl]
      refine ⟨coherent_empty.report _, ?_⟩
      intro d
      rw [mem_report]
      simp [hmiss, hconflict.mp hlt]
    · refine ⟨coherent_empty, ?_⟩
      intro d
      simp [hmiss, mt hconflict.mpr hlt]

theorem length_responses (F : List ChangeProjectionFact) (q : InputRequestId) :
    (entries ChangeProjectionFact.responseEntry q F).length = responses F q := by
  rw [entries, List.length_filterMap_eq_countP, responses, List.count]
  refine List.countP_congr fun f _ => ?_
  cases f <;> simp [responseEntry]

theorem requestResponseCount_eq (q : InputRequestId) :
    (foldFacts F).requestResponseCount[q]? =
      if responses F q = 0 then none else some (responses F q) := by
  simp only [← length_responses F q, List.length_eq_zero_iff, ← foldl_count]
  refine get_foldl_alter requestResponseCount (fun old _ => old.getD 0 + 1) ?_ F {} q
  intro s f
  cases f <;> rfl

theorem operativeRequests_eq (q : InputRequestId) :
    (foldFacts F).operativeRequests[q]? = lastOpening F q := by
  rw [lastOpening, ← foldl_last]
  refine get_foldl_put operativeRequests ?_ F {} q
  intro s f
  cases f <;> rfl

variable {input : FoldInput} {q : InputRequestId}

theorem carryTarget_eq_some {t : RevisionId} {port : ReviewFactPortedPayload} :
    carryTarget input q port = some t ↔
      ∃ q', CarriesOpen port q q' t ∧ input.operativeRequests[q']? = some t := by
  rw [carryTarget]
  split
  · rename_i origin target ho hr ht
    rw [Option.ite_none_right_eq_some]
    constructor
    · rintro ⟨⟨rfl, h⟩, heq⟩
      cases heq
      exact ⟨target, ⟨ho, hr, ht, rfl⟩, h⟩
    · rintro ⟨q', ⟨ho', _, ht', h⟩, hq'⟩
      rw [ho] at ho'
      rw [ht] at ht'
      cases ho'
      cases ht'
      subst h
      exact ⟨⟨rfl, hq'⟩, rfl⟩
  · rename_i hno
    constructor
    · intro h
      cases h
    · rintro ⟨q', ⟨ho, hr, ht, _⟩, _⟩
      exact absurd ht (hno q q' ho hr)

theorem mem_carriedTo {t : RevisionId} :
    t ∈ carriedTo (foldFacts F) q ↔ CarriedTo F (lastOpening F) q t := by
  rw [carriedTo, mem_collect, List.mem_filterMap, foldFacts_factPorts]
  simp [portEntry_eq_some, carryTarget_eq_some, operativeRequests_eq,
    CarriedTo]

def unresolved (input : FoldInput) (current : BTreeSet RevisionId) (q : InputRequestId) : Bool :=
  match input.requestResponseCount[q]? with
  | some n => n ≠ 1
  | none => carriedTo input q ≠ current

def ambiguousRequest (input : FoldInput) (q : InputRequestId) : Bool :=
  input.requestResponseCount[q]?.any (· ≠ 1)

theorem obligationStep_eq (input : FoldInput) (members current : BTreeSet RevisionId)
    (status : OperativeObligationStatus) (q : InputRequestId) (origin : RevisionId) :
    obligationStep input members current status (q, origin) =
      { unresolvedRequests :=
          if origin ∈ members ∧ unresolved input current q = true then
            status.unresolvedRequests.insert q else status.unresolvedRequests,
        ambiguousResponse := status.ambiguousResponse ||
          (origin ∈ members && ambiguousRequest input q) } := by
  by_cases hm : origin ∈ members
  · cases hn : input.requestResponseCount[q]? with
    | none =>
      by_cases hc : carriedTo input q = current <;>
        simp [obligationStep, unresolved, ambiguousRequest, hn, hm, hc]
    | some n =>
      by_cases h1 : n = 1
      · subst h1
        simp [obligationStep, unresolved, ambiguousRequest, hn, hm]
      · simp [obligationStep, unresolved, ambiguousRequest, hn, hm, h1]
  · simp [obligationStep, hm]

theorem mem_unresolvedRequests {members current : BTreeSet RevisionId} :
    q ∈ (operativeObligationStatus members current input).unresolvedRequests ↔
      ∃ r, input.operativeRequests[q]? = some r ∧ r ∈ members ∧
        unresolved input current q = true := by
  have h := mem_foldl (fun (s : OperativeObligationStatus) q => q ∈ s.unresolvedRequests)
    (obligationStep input members current)
    (fun entry => if entry.2 ∈ members ∧ unresolved input current entry.1 = true then some entry.1
      else none) ?_ input.operativeRequests.toList {} q
  · rw [operativeObligationStatus, h]
    simp [← and_assoc]
  · intro s ⟨q', r⟩ k
    rw [obligationStep_eq]
    by_cases hu : r ∈ members ∧ unresolved input current q' = true
    · simp only [hu, and_self, if_true, mem_insert_iff, Option.some.injEq]
      rw [or_comm, eq_comm]
    · simp [hu, reduceCtorEq]

theorem ambiguousResponse_iff {members current : BTreeSet RevisionId} :
    (operativeObligationStatus members current input).ambiguousResponse = true ↔
      ∃ q r, input.operativeRequests[q]? = some r ∧ r ∈ members ∧
        ambiguousRequest input q = true := by
  have h := mem_foldl (fun (s : OperativeObligationStatus) (_ : Unit) => s.ambiguousResponse = true)
    (obligationStep input members current)
    (fun entry => if (entry.2 ∈ members && ambiguousRequest input entry.1) = true then some ()
      else none) ?_ input.operativeRequests.toList {} ()
  · rw [operativeObligationStatus, h]
    simp
  · intro s ⟨q, r⟩ _
    rw [obligationStep_eq]
    simp

theorem assessmentRecord_id {r : RevisionId} {a : AssessmentId} {v : EventId × ChangeAssessmentFact}
    (h : assessmentRecord F r a = some v) : v.2.assessmentId = a := by
  have hmem := (leastOf_spec h).1
  rw [mem_entries] at hmem
  obtain ⟨f, -, hf⟩ := hmem
  exact (assessmentEntry_eq_some.mp hf).2

section Records

variable {β : Type} {records : BTreeMap AssessmentId β} {record : β → EventId × ChangeAssessmentFact}

theorem mem_replaced {a : AssessmentId} :
    a ∈ BTreeSet.collect (records.vals.flatMap fun v => (record v).2.replaces) ↔
      ReplacedBy (fun a => records[a]?.map record) a := by
  simp only [mem_collect, List.mem_flatMap, BTreeMap.mem_vals_iff, ReplacedBy,
    Option.map_eq_some_iff]
  constructor
  · rintro ⟨v, ⟨b, hb⟩, ha⟩
    exact ⟨b, record v, ⟨v, hb, rfl⟩, ha⟩
  · rintro ⟨b, _, ⟨v, hb, hv⟩, ha⟩
    exact ⟨v, ⟨b, hb⟩, hv ▸ ha⟩

theorem qualifiedBy_iff
    (hid : ∀ (a : AssessmentId) v, records[a]? = some v → (record v).2.assessmentId = a)
    {p : β → Bool}
    (hp : ∀ v, p v = true ↔
      ¬ ReplacedBy (fun a => records[a]?.map record) (record v).2.assessmentId) :
    QualifiedBy (fun a => records[a]?.map record) ↔
      ∃ v, records.vals.filter p = [v] ∧ Accepting (record v).2.assessment := by
  simp only [BTreeMap.filter_vals_eq_singleton, hp, QualifiedBy, Option.map_eq_some_iff]
  constructor
  · rintro ⟨a, _, ⟨v, ha, hv⟩, hr, hacc, hall⟩
    subst hv
    refine ⟨v, ⟨a, ha, by rwa [hid a v ha], ?_⟩, hacc⟩
    intro b w hb hbr
    rw [hid b w hb] at hbr
    exact hall b _ ⟨w, hb, rfl⟩ hbr
  · rintro ⟨v, ⟨a, ha, hr, hall⟩, hacc⟩
    rw [hid a v ha] at hr
    refine ⟨a, _, ⟨v, ha, rfl⟩, hr, hacc, ?_⟩
    intro b _ ⟨w, hb, _⟩ hbr
    exact hall b w hb (by rwa [hid b w hb])

end Records

theorem hasOneAcceptingAssessment_iff {r : RevisionId} :
    hasOneAcceptingAssessment r (foldFacts F).assessments = true ↔ Qualified F r := by
  have htable := foldFacts_assessments F r
  rw [hasOneAcceptingAssessment, Qualified]
  cases hr : (foldFacts F).assessments[r]? with
  | none =>
    simp only [hr, Option.bind_none] at htable
    refine iff_of_false Bool.false_ne_true ?_
    rintro ⟨a, v, ha, _⟩
    simp [← htable a] at ha
  | some records =>
    simp only [hr, Option.bind_some] at htable
    have hrec : assessmentRecord F r = fun a => records[a]?.map id := by
      funext a
      rw [Option.map_id_fun, id, htable]
    have hid : ∀ (a : AssessmentId) v, records[a]? = some v → (id v).2.assessmentId = a := by
      intro a v hv
      rw [htable] at hv
      exact assessmentRecord_id hv
    rw [hrec, qualifiedBy_iff hid (p := fun v => v.2.assessmentId ∉
      BTreeSet.collect (records.vals.flatMap fun v => v.2.replaces))
      fun v => by rw [decide_eq_true_eq]; exact not_congr mem_replaced]
    simp only [List.filter_map, List.flatMap_map]
    constructor
    · intro h
      split at h
      · rename_i f hf
        obtain ⟨v, hv, rfl⟩ := List.map_eq_singleton_iff.mp hf
        exact ⟨v, hv, by simpa [Accepting] using h⟩
      · cases h
    · rintro ⟨v, hv, hacc⟩
      have hv' : records.vals.filter ((fun record : ChangeAssessmentFact => decide
          (record.assessmentId ∉ BTreeSet.collect
            (records.vals.flatMap fun v => v.2.replaces))) ∘ Prod.snd) = [v] := hv
      rw [hv']
      simpa [Accepting] using hacc

/-- The fields of a view that are functions of its other fields. -/
structure ChangeView.Consistent (v : ChangeView) : Prop where
  current : v.currentRevisions = Pointbreak.currentRevisions v.members v.supersedes
  sorted : v.diagnostics.Pairwise fun a b => compare a b = .lt
  topology : v.topology = topologyOf (v.diagnostics.any ChangeDiagnostic.marksIncomplete)
    (revisionGraphHasCycle v.members v.supersedes)
    (!revisionGraphHasCycle v.members v.supersedes &&
      replacementHeadsDiverge v.currentRevisions v.supersedes)
    v.supersedes v.currentRevisions
  lifecycle : v.lifecycle = lifecycleOf (v.diagnostics.any ChangeDiagnostic.marksIncomplete)
    (revisionGraphHasCycle v.members v.supersedes)
    (!revisionGraphHasCycle v.members v.supersedes &&
      replacementHeadsDiverge v.currentRevisions v.supersedes)
    (v.diagnostics.any ChangeDiagnostic.marksDeclarationConflict)
    (v.diagnostics.any ChangeDiagnostic.marksRevisionConflict)
    v.currentRevisions v.qualifiedCurrentRevisions v.operativeObligations

/-- `v` is the view of the Change `c` that the facts mean. -/
structure ViewSpec (F : List ChangeProjectionFact) (c : ChangeId) (v : ChangeView) : Prop where
  changeId : v.changeId = c
  members : ∀ r, r ∈ v.members ↔ ActiveMember F c r
  supersedes : ∀ s p, (s, p) ∈ v.supersedes ↔ Effective F c s p
  qualified : ∀ r, r ∈ v.qualifiedCurrentRevisions ↔ CurrentMember F c r ∧ Qualified F r
  obligations : ∀ q, q ∈ v.operativeObligations ↔ Obliged F (lastOpening F) c q
  diagnostics : ∀ d, d ∈ v.diagnostics ↔ Diagnosed F c d
  consistent : v.Consistent

theorem ViewSpec.current {v : ChangeView} (h : ViewSpec F c v) (r : RevisionId) :
    r ∈ v.currentRevisions ↔ CurrentMember F c r := by
  rw [h.consistent.current, mem_currentRevisions, CurrentMember, h.members]
  simp only [Replaces, h.supersedes]

variable {found : ChangeFindings}

/-- The report adds the one diagnostic that raises no flag. -/
theorem assembleView_consistent (c : ChangeId) (members : BTreeSet RevisionId)
    (supersedes : Supersedes) (h : found.Coherent) (obligations : OperativeObligationStatus)
    (qualified : BTreeSet RevisionId) :
    (assembleView c members supersedes found obligations qualified).Consistent := by
  have hflag : ∀ p : ChangeDiagnostic → Bool, p .operativeRequestResponseAmbiguous = false →
      found.diagnostics.toList.any p =
        (assembleView c members supersedes found obligations qualified).diagnostics.any p := by
    intro p hp
    simp only [assembleView]
    split
    · rw [any_insert, hp, Bool.or_false]
    · rfl
  refine ⟨rfl, ordered_toList, ?_, ?_⟩
  · rw [← hflag _ rfl, ← h.incomplete]
    rfl
  · rw [← hflag _ rfl, ← hflag _ rfl, ← hflag _ rfl, ← h.incomplete, ← h.declarationConflict,
      ← h.revisionConflict]
    rfl

theorem mem_assembleView_diagnostics {members : BTreeSet RevisionId}
    {supersedes : Supersedes} {obligations : OperativeObligationStatus}
    {qualified : BTreeSet RevisionId} {d : ChangeDiagnostic} :
    d ∈ (assembleView c members supersedes found obligations qualified).diagnostics ↔
      d ∈ found.diagnostics ∨
        d = .operativeRequestResponseAmbiguous ∧ obligations.ambiguousResponse = true := by
  simp only [assembleView]
  cases obligations.ambiguousResponse <;> simp [or_comm]

theorem not_conflicted {s p : RevisionRefV1} (hs : ExactHash F s) (hp : ExactHash F p) :
    ¬ (ArtifactConflict F s.revisionId ∨ ArtifactConflict F p.revisionId) :=
  not_or.mpr ⟨not_artifactConflict_of_exactHash hs, not_artifactConflict_of_exactHash hp⟩

theorem mem_checkRelations (found : ChangeFindings) {s p : RevisionId} :
    (s, p) ∈ ((foldFacts F).checkRelations c found).2 ↔ Effective F c s p := by
  simp only [checkRelations_supersedes, Prod.exists, mem_relations_iff,
    relationEdge_eq_some, hasExactHash_iff, mem_members_iff, artifactConflict_iff,
    foldFacts_relationWithdrawals]
  constructor
  · rintro ⟨k, m, hm, ⟨rfl, hw⟩, -, ⟨hs, hp⟩, ⟨has, hap⟩, he⟩
    cases he
    exact ⟨m.successor, m.predecessor, ⟨k, hm, hw⟩, hs, hp, has, hap, rfl, rfl⟩
  · rintro ⟨successor, predecessor, ⟨k, hm, hw⟩, hs, hp, has, hap, rfl, rfl⟩
    exact ⟨k, _, hm, ⟨rfl, hw⟩, not_conflicted hs hp, ⟨hs, hp⟩, ⟨has, hap⟩, rfl⟩

theorem exists_relationFault {d : ChangeDiagnostic} :
    (∃ entry ∈ (foldFacts F).relations.toList, (foldFacts F).relationFault c entry = some d) ↔
      (d = .changeRelationRevisionArtifactConflict ∨
        d = .changeRelationTargetMissingOrMismatched ∨ d = .changeRelationMembershipIncomplete) ∧
      Diagnosed F c d := by
  simp only [Prod.exists, mem_relations_iff, relationFault_eq_some, hasExactHash_iff,
    mem_members_iff, artifactConflict_iff, foldFacts_relationWithdrawals]
  constructor
  · rintro ⟨k, m, hm, ⟨rfl, hw⟩, hf⟩
    have hclaim : ClaimsRelation F m.changeId m.successor m.predecessor := ⟨k, hm, hw⟩
    obtain ⟨hc, rfl⟩ | ⟨hc, ⟨he, rfl⟩ | ⟨⟨hs, hp⟩, ha, rfl⟩⟩ := hf
    · exact ⟨.inl rfl, _, _, hclaim, hc⟩
    · exact ⟨.inr (.inl rfl), _, _, hclaim, hc, he⟩
    · exact ⟨.inr (.inr rfl), _, _, hclaim, hs, hp, ha⟩
  · rintro ⟨rfl | rfl | rfl, hdiag⟩
    · obtain ⟨s, p, ⟨k, hm, hw⟩, hc⟩ := hdiag
      exact ⟨k, _, hm, ⟨rfl, hw⟩, .inl ⟨hc, rfl⟩⟩
    · obtain ⟨s, p, ⟨k, hm, hw⟩, hc, he⟩ := hdiag
      exact ⟨k, _, hm, ⟨rfl, hw⟩, .inr ⟨hc, .inl ⟨he, rfl⟩⟩⟩
    · obtain ⟨s, p, ⟨k, hm, hw⟩, hs, hp, ha⟩ := hdiag
      exact ⟨k, _, hm, ⟨rfl, hw⟩, .inr ⟨not_conflicted hs hp, .inr ⟨⟨hs, hp⟩, ha, rfl⟩⟩⟩

theorem unresolved_iff {current : BTreeSet RevisionId}
    (hcur : ∀ r, r ∈ current ↔ CurrentMember F c r) :
    unresolved (foldFacts F) current q = true ↔
      2 ≤ responses F q ∨
      responses F q = 0 ∧ ¬ ∀ t, CarriedTo F (lastOpening F) q t ↔ CurrentMember F c t := by
  rw [unresolved, requestResponseCount_eq]
  by_cases h0 : responses F q = 0
  · have heq : carriedTo (foldFacts F) q = current ↔
        ∀ t, CarriedTo F (lastOpening F) q t ↔ CurrentMember F c t := by
      simp only [ExtTreeSet.ext_mem_iff, mem_carriedTo, hcur]
    simp [h0, heq]
  · simp only [if_neg h0, decide_eq_true_eq]
    omega

theorem ambiguousRequest_iff : ambiguousRequest (foldFacts F) q = true ↔ 2 ≤ responses F q := by
  rw [ambiguousRequest, requestResponseCount_eq]
  by_cases h0 : responses F q = 0
  · simp [h0]
  · simp only [if_neg h0, Option.any_some, decide_eq_true_eq]
    omega

theorem mem_findings {declared : ChangeFindings}
    (hd : ∀ d, d ∈ declared.diagnostics ↔
      (d = .changeDeclarationMissing ∧ Diagnosed F c .changeDeclarationMissing) ∨
      (d = .changeDeclarationConflict ∧ Diagnosed F c .changeDeclarationConflict))
    (d : ChangeDiagnostic) :
    d ∈ ((foldFacts F).checkRelations c ((foldFacts F).checkMembers c declared)).1.diagnostics ↔
      d ≠ .operativeRequestResponseAmbiguous ∧ Diagnosed F c d := by
  rw [checkRelations_diagnostics, checkMembers_diagnostics, hd,
    exists_relationFault, membershipRevisionMissing_iff]
  simp only [mem_members_iff, artifactConflict_iff]
  cases d <;> simp [Diagnosed]

/-- Every Change has a view, and it is the one the facts mean. -/
theorem projectChange_spec (hw : WellDeclared F sha) (c : ChangeId) :
    ∃ v, projectChange sha (foldFacts F) c = .ok v ∧ ViewSpec F c v := by
  obtain ⟨declared, hdecl, hcoh, hdiag⟩ := checkDeclarations_spec hw c
  obtain ⟨⟨found, supersedes⟩, hrel⟩ : ∃ p, (foldFacts F).checkRelations c
      ((foldFacts F).checkMembers c declared) = p := ⟨_, rfl⟩
  have hfound := mem_findings hdiag
  have hcoh' := (foldFacts F).checkRelations_coherent c ((foldFacts F).checkMembers_coherent c hcoh)
  have hsup : ∀ s p, (s, p) ∈ ((foldFacts F).checkRelations c
      ((foldFacts F).checkMembers c declared)).2 ↔ Effective F c s p :=
    fun s p => mem_checkRelations _
  rw [hrel] at hfound hcoh' hsup
  have hcur : ∀ r, r ∈ currentRevisions ((foldFacts F).members c) supersedes ↔
      CurrentMember F c r := by
    intro r
    rw [mem_currentRevisions, mem_members_iff, CurrentMember]
    simp only [Replaces, hsup]
  simp only [projectChange, hdecl, hrel, bind, Except.bind, Except.ok.injEq, exists_eq_left']
  refine ⟨rfl, fun r => mem_members_iff, hsup, ?_, ?_, ?_, assembleView_consistent c _ _ hcoh' _ _⟩
  · intro r
    simp only [assembleView]
    rw [mem_filter_iff, hcur, hasOneAcceptingAssessment_iff]
  · intro q
    simp only [assembleView]
    rw [mem_unresolvedRequests]
    simp only [operativeRequests_eq, mem_members_iff, unresolved_iff hcur]
    rfl
  · intro d
    have hamb : ∀ current, (operativeObligationStatus ((foldFacts F).members c) current
        (foldFacts F)).ambiguousResponse = true ↔
          Diagnosed F c .operativeRequestResponseAmbiguous := by
      intro current
      rw [ambiguousResponse_iff]
      simp only [operativeRequests_eq, mem_members_iff, ambiguousRequest_iff]
      rfl
    rw [mem_assembleView_diagnostics, hfound, hamb]
    by_cases hd : d = .operativeRequestResponseAmbiguous
    · simp [hd]
    · simp [hd]

section Ext

variable {F' : List ChangeProjectionFact} {v v' : ChangeView}

theorem ViewSpec.graph_eq (h : ViewSpec F c v) (h' : ViewSpec F' c v')
    (hm : ∀ r, ActiveMember F c r ↔ ActiveMember F' c r)
    (hs : ∀ s p, Effective F c s p ↔ Effective F' c s p) :
    v.members = v'.members ∧ v.supersedes = v'.supersedes ∧
      v.currentRevisions = v'.currentRevisions := by
  have hmembers : v.members = v'.members := by
    apply ext_mem
    intro r
    rw [h.members, h'.members, hm]
  have hsupersedes : v.supersedes = v'.supersedes := by
    apply ext_mem
    rintro ⟨s, p⟩
    rw [h.supersedes, h'.supersedes, hs]
  refine ⟨hmembers, hsupersedes, ?_⟩
  rw [h.consistent.current, h'.consistent.current, hmembers, hsupersedes]

theorem ViewSpec.diagnostics_eq (h : ViewSpec F c v) (h' : ViewSpec F' c v')
    (hd : ∀ d, Diagnosed F c d ↔ Diagnosed F' c d) : v.diagnostics = v'.diagnostics := by
  have hnodup : ∀ {l : List ChangeDiagnostic}, l.Pairwise (fun a b => compare a b = .lt) →
      l.Nodup := by
    intro l hl
    refine hl.imp ?_
    intro a b hlt e
    rw [LawfulEqOrd.compare_eq_iff_eq.mpr e] at hlt
    cases hlt
  refine List.Perm.eq_of_pairwise ?_ h.consistent.sorted h'.consistent.sorted ?_
  · intro a b _ _ hab hba
    rw [OrientedOrd.eq_swap, hba] at hab
    cases hab
  · rw [List.perm_ext_iff_of_nodup (hnodup h.consistent.sorted) (hnodup h'.consistent.sorted)]
    intro d
    rw [h.diagnostics, h'.diagnostics, hd]

theorem ViewSpec.ext (h : ViewSpec F c v) (h' : ViewSpec F' c v')
    (hm : ∀ r, ActiveMember F c r ↔ ActiveMember F' c r)
    (hs : ∀ s p, Effective F c s p ↔ Effective F' c s p)
    (hq : ∀ r, CurrentMember F c r → (Qualified F r ↔ Qualified F' r))
    (ho : ∀ q, Obliged F (lastOpening F) c q ↔ Obliged F' (lastOpening F') c q)
    (hd : ∀ d, Diagnosed F c d ↔ Diagnosed F' c d) : v = v' := by
  obtain ⟨hmembers, hsupersedes, hcurrent⟩ := h.graph_eq h' hm hs
  have hdiagnostics := h.diagnostics_eq h' hd
  have hqualified : v.qualifiedCurrentRevisions = v'.qualifiedCurrentRevisions := by
    apply ext_mem
    intro r
    rw [h.qualified, h'.qualified, ← h'.current, ← hcurrent, h.current]
    exact and_congr_right (hq r)
  have hobligations : v.operativeObligations = v'.operativeObligations := by
    apply ext_mem
    intro q
    rw [h.obligations, h'.obligations, ho]
  have htopology : v.topology = v'.topology := by
    rw [h.consistent.topology, h'.consistent.topology, hmembers, hsupersedes, hcurrent,
      hdiagnostics]
  have hlifecycle : v.lifecycle = v'.lifecycle := by
    rw [h.consistent.lifecycle, h'.consistent.lifecycle, hmembers, hsupersedes, hcurrent,
      hdiagnostics, hqualified, hobligations]
  have hid : v.changeId = v'.changeId := h.changeId.trans h'.changeId.symm
  cases v
  cases v'
  simp_all

end Ext

end Pointbreak
