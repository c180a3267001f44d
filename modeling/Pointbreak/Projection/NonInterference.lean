import Pointbreak.Projection.OrderIndependence

/-!
# Projection.NonInterference

What the view of a Change can see. All families of facts share tables, yet the view of a Change is
local: it is the view of the list restricted to the facts that concern the Change
(`viewAgree_restrict`).
-/

namespace Pointbreak

open Std KeyedLog ChangeProjectionFact List

section Concerns

variable (F : List ChangeProjectionFact) (c : ChangeId)

def ownsMembership (k : ChangeMembershipClaimId) : Bool :=
  F.any fun
    | .membershipAsserted k' c' _ => k' = k && c' = c
    | _ => false

def ownsRelation (k : ChangeRevisionRelationClaimId) : Bool :=
  F.any fun
    | .relationAsserted k' c' _ _ => k' = k && c' = c
    | _ => false

def namesRevision (r : RevisionId) : Bool :=
  F.any fun
    | .membershipAsserted _ c' r' => c' = c && r' = r
    | .relationAsserted _ c' s p => c' = c && (s.revisionId = r || p.revisionId = r)
    | _ => false

def asksNamed (q : InputRequestId) : Bool :=
  F.any fun
    | .operativeRequest q' r => q' = q && namesRevision F c r
    | _ => false

def carriesNamed (port : ReviewFactPortedPayload) : Bool :=
  port.relation = .carriedOpenAs &&
    match port.originFact with
    | .inputRequest q => asksNamed F c q
    | _ => false

def carriedFromNamed (q : InputRequestId) : Bool :=
  F.any fun
    | .factPort port => carriesNamed F c port && port.targetFact = some (.inputRequest q)
    | _ => false

def concerns : ChangeProjectionFact → Bool
  | .declaration c' _ => c' = c
  | .membershipAsserted _ c' _ => c' = c
  | .membershipWithdrawn k => ownsMembership F c k
  | .relationAsserted _ c' _ _ => c' = c
  | .relationWithdrawn k => ownsRelation F c k
  | .linkAsserted .. => false
  | .revision r _ => namesRevision F c r
  | .assessment _ r _ _ _ => namesRevision F c r
  | .operativeRequest q r => namesRevision F c r || carriedFromNamed F c q
  | .requestResponse q => asksNamed F c q
  | .factPort port => carriesNamed F c port

def restrict : List ChangeProjectionFact := F.filter (concerns F c)

def ChangeProjectionFact.assessmentSource : ChangeProjectionFact → Option EventId
  | .assessment source _ _ _ _ => some source
  | _ => none

/-- Two lists agree on what concerns the Change: the same facts, each as often, and the assessments
of one event id in one order. -/
structure AgreeOn (F F' : List ChangeProjectionFact) (c : ChangeId) : Prop where
  perm : (restrict F c).Perm (restrict F' c)
  order : ∀ source, (restrict F c).filter (·.assessmentSource = some source) =
    (restrict F' c).filter (·.assessmentSource = some source)

variable {F c}

theorem mem_restrict {f : ChangeProjectionFact} :
    f ∈ restrict F c ↔ f ∈ F ∧ concerns F c f = true := by
  rw [restrict, mem_filter]

theorem restrict_subset : restrict F c ⊆ F := filter_sublist.subset

variable {r : RevisionId}

theorem carriesNamed_of_carriesOpen {port : ReviewFactPortedPayload} {q q' : InputRequestId}
    {t : RevisionId} (h : CarriesOpen port q q' t) (hq : asksNamed F c q = true) :
    carriesNamed F c port = true := by
  obtain ⟨horigin, hrel, -, -⟩ := h
  rw [carriesNamed, horigin, hrel]
  simpa using hq

theorem carriedFromNamed_of_mem {port : ReviewFactPortedPayload} {q q' : InputRequestId}
    {t : RevisionId} (hport : .factPort port ∈ F) (h : CarriesOpen port q q' t)
    (hq : asksNamed F c q = true) : carriedFromNamed F c q' = true := by
  rw [carriedFromNamed, any_eq_true]
  exact ⟨_, hport, by simp [carriesNamed_of_carriesOpen h hq, h.2.2.1]⟩

theorem namesRevision_of_mentions (h : ClaimsAgree F) (hr : Mentions F c r) :
    namesRevision F c r = true := by
  rw [namesRevision, any_eq_true]
  obtain hm | ⟨s, p, hrel, hsp⟩ := hr
  · obtain ⟨k, hk, -⟩ := h.claimsMember.mp hm
    exact ⟨_, hk, by simp⟩
  · obtain ⟨k, hk, -⟩ := h.claimsRelation.mp hrel
    exact ⟨_, hk, by simpa using hsp⟩

end Concerns

structure ViewAgree (F F' : List ChangeProjectionFact) (c : ChangeId) : Prop where
  graph : GraphAgree F F' c
  named : Named F c ↔ Named F' c
  qualified : ∀ r, CurrentMember F c r → (Qualified F r ↔ Qualified F' r)
  obliged : ∀ q, Obliged F (lastOpening F) c q ↔ Obliged F' (lastOpening F') c q
  ambiguous : Ambiguous F (lastOpening F) c ↔ Ambiguous F' (lastOpening F') c

section ViewAgree

variable {F F' F'' : List ChangeProjectionFact} {c : ChangeId}

theorem GraphAgree.mentions (h : GraphAgree F F' c) {r : RevisionId} :
    Mentions F c r ↔ Mentions F' c r := by
  simp only [Mentions, h.claimsMember, h.claimsRelation]

theorem GraphAgree.symm (h : GraphAgree F F' c) : GraphAgree F' F c where
  declarations d := (h.declarations d).symm
  claimsMember r := (h.claimsMember r).symm
  claimsRelation s p := (h.claimsRelation s p).symm
  hashes r hr x := (h.hashes r (h.mentions.mpr hr) x).symm

theorem GraphAgree.trans (h : GraphAgree F F' c) (h' : GraphAgree F' F'' c) :
    GraphAgree F F'' c where
  declarations d := (h.declarations d).trans (h'.declarations d)
  claimsMember r := (h.claimsMember r).trans (h'.claimsMember r)
  claimsRelation s p := (h.claimsRelation s p).trans (h'.claimsRelation s p)
  hashes r hr x := (h.hashes r hr x).trans (h'.hashes r (h.mentions.mp hr) x)

theorem ViewAgree.symm (h : ViewAgree F F' c) : ViewAgree F' F c where
  graph := h.graph.symm
  named := h.named.symm
  qualified r hr := (h.qualified r (h.graph.currentMember.mpr hr)).symm
  obliged q := (h.obliged q).symm
  ambiguous := h.ambiguous.symm

theorem ViewAgree.trans (h : ViewAgree F F' c) (h' : ViewAgree F' F'' c) : ViewAgree F F'' c where
  graph := h.graph.trans h'.graph
  named := h.named.trans h'.named
  qualified r hr := (h.qualified r hr).trans (h'.qualified r (h.graph.currentMember.mp hr))
  obliged q := (h.obliged q).trans (h'.obliged q)
  ambiguous := h.ambiguous.trans h'.ambiguous

theorem ViewAgree.view_eq {P P' : ChangeProjection} (h : ViewAgree F F' c) (hP : Projects F P)
    (hP' : Projects F' P') : P.changes[c]? = P'.changes[c]? := by
  have hmem : c ∈ P.changes ↔ c ∈ P'.changes := by
    rw [hP.mem_changes, hP'.mem_changes, h.named]
  by_cases hnone : c ∈ P.changes
  · obtain ⟨v, hc⟩ := BTreeMap.mem_iff.mp hnone
    obtain ⟨v', hc'⟩ := BTreeMap.mem_iff.mp (hmem.mp hnone)
    rw [hc, hc', h.graph.view_eq (hP.view c v hc) (hP'.view c v' hc') h.qualified h.obliged h.ambiguous]
  · rw [ExtTreeMap.getElem?_eq_none hnone, ExtTreeMap.getElem?_eq_none (hmem.not.mp hnone)]

end ViewAgree

section Local

variable {F : List ChangeProjectionFact} {c : ChangeId}

theorem claim_restrict {a w : ChangeProjectionFact} (ha : concerns F c a = true)
    (hw : a ∈ F → concerns F c w = true) :
    a ∈ F ∧ w ∉ F ↔ a ∈ restrict F c ∧ w ∉ restrict F c := by
  rw [mem_restrict, mem_restrict, and_iff_left ha]
  refine and_congr_right fun h => ?_
  rw [and_iff_left (hw h)]

theorem graphAgree_restrict (h : ClaimsAgree F) : GraphAgree F (restrict F c) c := by
  have hR : ClaimsAgree (restrict F c) := h.subset restrict_subset
  refine ⟨?_, ?_, ?_, ?_⟩
  · intro d
    simp [mem_restrict, concerns]
  · intro r
    rw [h.claimsMember, hR.claimsMember]
    refine exists_congr fun k => claim_restrict (by simp [concerns]) fun hk => ?_
    exact any_eq_true.mpr ⟨_, hk, by simp⟩
  · intro s p
    rw [h.claimsRelation, hR.claimsRelation]
    refine exists_congr fun k => claim_restrict (by simp [concerns]) fun hk => ?_
    exact any_eq_true.mpr ⟨_, hk, by simp⟩
  · intro r hr x
    rw [mem_restrict, concerns, namesRevision_of_mentions h hr, eq_self, and_true]

variable {r : RevisionId}

theorem qualified_restrict (hr : namesRevision F c r = true) :
    Qualified F r ↔ Qualified (restrict F c) r := by
  apply qualified_congr
  intro a
  rw [assessmentRecord, assessmentRecord, restrict, entries_filter]
  intro f _ v hf
  obtain ⟨rfl, -⟩ := assessmentEntry_eq_some.mp hf
  exact hr

variable {q : InputRequestId}

theorem responses_restrict (hq : asksNamed F c q = true) :
    responses F q = responses (restrict F c) q := by
  rw [responses, responses, restrict, count_filter]
  exact hq

variable (hopen : Functional ChangeProjectionFact.requestEntry F)

theorem lastOpening_eq_some_iff {F : List ChangeProjectionFact}
    (hopen : Functional ChangeProjectionFact.requestEntry F) :
    lastOpening F q = some r ↔ .operativeRequest q r ∈ F := by
  rw [lastOpening, hopen.getLast?_eq_some, mem_openings]

include hopen

theorem lastOpening_restrict (hr : namesRevision F c r = true ∨ carriedFromNamed F c q = true) :
    lastOpening F q = some r ↔ lastOpening (restrict F c) q = some r := by
  rw [lastOpening_eq_some_iff hopen, lastOpening_eq_some_iff (hopen.subset restrict_subset),
    mem_restrict, concerns, Bool.or_eq_true, and_iff_left hr]

theorem carriedTo_restrict (hq : asksNamed F c q = true) (t : RevisionId) :
    CarriedTo F (lastOpening F) q t ↔
      CarriedTo (restrict F c) (lastOpening (restrict F c)) q t := by
  constructor
  · rintro ⟨port, q', hport, hcarry, hq'⟩
    refine ⟨port, q', mem_restrict.mpr ⟨hport, carriesNamed_of_carriesOpen hcarry hq⟩, hcarry, ?_⟩
    exact (lastOpening_restrict hopen (.inr (carriedFromNamed_of_mem hport hcarry hq))).mp hq'
  · rintro ⟨port, q', hport, hcarry, hq'⟩
    have hport' := (mem_restrict.mp hport).1
    refine ⟨port, q', hport', hcarry, ?_⟩
    exact (lastOpening_restrict hopen (.inr (carriedFromNamed_of_mem hport' hcarry hq))).mpr hq'

theorem counted_restrict (h : ClaimsAgree F) {P Q : Prop} (hPQ : asksNamed F c q = true → (P ↔ Q)) :
    lastOpening F q = some r ∧ ActiveMember F c r ∧ P ↔
      lastOpening (restrict F c) q = some r ∧ ActiveMember (restrict F c) c r ∧ Q := by
  rw [← (graphAgree_restrict h).activeMember, and_left_comm,
    @and_left_comm (lastOpening (restrict F c) q = some r)]
  refine and_congr_right fun hr => ?_
  have hnamed := namesRevision_of_mentions h (.inl hr.1)
  rw [← lastOpening_restrict hopen (.inl hnamed)]
  refine and_congr_right fun hq => hPQ ?_
  exact any_eq_true.mpr ⟨_, (lastOpening_eq_some_iff hopen).mp hq, by simpa using hnamed⟩

theorem viewAgree_restrict (h : ClaimsAgree F) : ViewAgree F (restrict F c) c := by
  have hg := graphAgree_restrict (c := c) h
  refine ⟨hg, ?_, ?_, ?_, ?_⟩
  · rw [h.named, (h.subset restrict_subset).named]
    simp [mem_restrict, concerns]
  · intro r hr
    exact qualified_restrict (namesRevision_of_mentions h (.inl hr.1.1))
  · intro q
    unfold Obliged
    refine exists_congr fun r => counted_restrict hopen h fun hq => ?_
    simp only [responses_restrict hq, carriedTo_restrict hopen hq, hg.currentMember]
  · unfold Ambiguous
    refine exists_congr fun q => exists_congr fun r => counted_restrict hopen h fun hq => ?_
    rw [responses_restrict hq]

end Local

section TwoLists

variable {F F' : List ChangeProjectionFact} {c : ChangeId}

/-- With distinct event ids there is only one order. -/
theorem AgreeOn.of_perm (hp : (restrict F c).Perm (restrict F' c))
    (hids : ((restrict F c).filterMap (·.assessmentSource)).Nodup) : AgreeOn F F' c := by
  refine ⟨hp, fun source => ?_⟩
  have hperm := hp.filter (·.assessmentSource = some source)
  have hlen : ((restrict F c).filter (·.assessmentSource = some source)).length ≤ 1 := by
    have hcount := nodup_iff_count_le_one.mp hids source
    rw [List.count, countP_filterMap] at hcount
    rw [← countP_eq_length_filter]
    refine le_of_eq_of_le (countP_congr fun f _ => ?_) hcount
    cases f.assessmentSource <;> simp
  match hfilter : (restrict F c).filter (·.assessmentSource = some source) with
  | [] =>
    rw [hfilter] at hperm ⊢
    exact hperm.nil_eq
  | [f] =>
    rw [hfilter] at hperm ⊢
    exact (perm_singleton.mp hperm.symm).symm
  | _ :: _ :: _ =>
    rw [hfilter] at hlen
    simp at hlen

theorem filter_assessmentEntries (r : RevisionId) (a : AssessmentId) (source : EventId) :
    (entries ChangeProjectionFact.assessmentEntry (r, a) F).filter (fun u => u.1 = source) =
      entries ChangeProjectionFact.assessmentEntry (r, a)
        (F.filter (·.assessmentSource = some source)) := by
  refine filter_entries ?_ F
  intro f ⟨⟨r', a'⟩, v⟩ hf
  obtain ⟨rfl, -⟩ := assessmentEntry_eq_some.mp hf
  simp [assessmentSource]

theorem AgreeOn.viewAgree (h : AgreeOn F F' c) (hclaims : ClaimsAgree F)
    (hopen : Functional ChangeProjectionFact.requestEntry F) :
    ViewAgree (restrict F c) (restrict F' c) c := by
  have hR : ClaimsAgree (restrict F c) := hclaims.subset restrict_subset
  have hgraph := SameGraph.of_mem_iff hR fun _ => h.perm.mem_iff
  have hlast : lastOpening (restrict F c) = lastOpening (restrict F' c) := by
    have hfun := hopen.subset (restrict_subset (c := c))
    funext q
    apply Option.ext
    intro r
    rw [lastOpening_eq_some_iff hfun, lastOpening_eq_some_iff (hfun.subset h.perm.symm.subset),
      h.perm.mem_iff]
  refine ⟨hgraph.graph c, hgraph.named c, ?_, ?_, ?_⟩
  · intro r _
    apply qualified_congr
    intro a
    apply leastOf_eq_of_filter
    intro source
    rw [filter_assessmentEntries, filter_assessmentEntries, h.order]
  · intro q
    rw [← hlast]
    exact obliged_perm h.perm hR
  · rw [← hlast]
    exact (hgraph.graph c).ambiguous (responses_perm h.perm)

variable {V : Type} {rt : Runtime V} {E E' : List (ShoreEvent V)} {P P' : ChangeProjection}

/-- A Change looks the same in two lists that agree on what concerns it. -/
theorem changes_eq_of_agreeOn (hP : projectChanges rt E = .ok P) (hP' : projectChanges rt E' = .ok P')
    (hcf : CollisionFree rt.sha256 (hashedClaims rt E))
    (hcf' : CollisionFree rt.sha256 (hashedClaims rt E'))
    (hopen : Functional ChangeProjectionFact.requestEntry (facts rt E))
    (hopen' : Functional ChangeProjectionFact.requestEntry (facts rt E'))
    (h : AgreeOn (facts rt E) (facts rt E') c) : P.changes[c]? = P'.changes[c]? := by
  have hlocal := viewAgree_restrict (c := c) hopen (claimsAgree_facts hcf)
  have hlocal' := viewAgree_restrict (c := c) hopen' (claimsAgree_facts hcf')
  have hboth := h.viewAgree (claimsAgree_facts hcf) hopen
  exact ((hlocal.trans hboth).trans hlocal'.symm).view_eq (projectChanges_spec hP)
    (projectChanges_spec hP')

end TwoLists

section Parallel

open Recorded

/-- Revision 2 replaces Revision 1, which is asked about; Revision 2 is accepted. -/
def alone : List (ShoreEvent WirePayload) :=
  journal 1 [declared 1, proposed 1, proposed 2, member 1 1, member 1 2, supersedes 1 2 1,
    opened 1 1, assessed 1 2 .accepted []]

/-- Change 2 on the same Revisions, with the opposite relation, before the same events backwards. -/
def besides : List (ShoreEvent WirePayload) :=
  journal 16 [declared 2, member 2 1, member 2 2, supersedes 2 1 2, proposed 3, opened 2 3,
    responded 1 2] ++ alone.reverse

theorem parallel_change_unseen :
    ∃ v, changeView runtime alone (change 1) = some v ∧
      changeView runtime besides (change 1) = some v := by
  have hrun : (restrict (facts runtime alone) (change 1)).Perm
      (restrict (facts runtime besides) (change 1)) ∧
      ((restrict (facts runtime alone) (change 1)).filterMap (·.assessmentSource)).Nodup ∧
      (Functional requestEntry (facts runtime alone) ∧
        Functional requestEntry (facts runtime besides)) ∧
      (((hashedClaims runtime alone).map (sha256JsonPrefixed sha)).Nodup ∧
        ((hashedClaims runtime besides).map (sha256JsonPrefixed sha)).Nodup) ∧
      (changeView runtime alone (change 1)).isSome = true ∧
        (changeView runtime besides (change 1)).isSome = true := by decide +kernel
  obtain ⟨hperm, hids, ⟨hopen, hopen'⟩, ⟨hcf, hcf'⟩, hsome, hsome'⟩ := hrun
  obtain ⟨v, hv⟩ := Option.isSome_iff_exists.mp hsome
  obtain ⟨v', hv'⟩ := Option.isSome_iff_exists.mp hsome'
  obtain ⟨P, hP, hc⟩ := changeView_eq_some.mp hv
  obtain ⟨P', hP', hc'⟩ := changeView_eq_some.mp hv'
  have heq := changes_eq_of_agreeOn hP hP' (collisionFree_of_nodup hcf)
    (collisionFree_of_nodup hcf') hopen hopen' (.of_perm hperm hids)
  rw [hc, hc', Option.some.injEq] at heq
  exact ⟨v, hv, by rw [hv', heq]⟩

end Parallel

end Pointbreak
