import Pointbreak.Projection.ChangeAgreement
import Pointbreak.Event.Recorded

/-!
# Projection.Lifecycle

When a Change is Accepted. `Acceptable` lists what the verdict asks of the events themselves;
`lifecycle_accepted_iff` says that the eight flags and sets the fold computes come to exactly
that.
-/

namespace Pointbreak

open Std KeyedLog Relation ChangeProjectionFact ExtTreeSet

section Meaning

variable (F : List ChangeProjectionFact) (c : ChangeId)

def MembershipStands (r : RevisionId) : Prop :=
  ∃ k, .membershipAsserted k c r ∈ F ∧ .membershipWithdrawn k ∉ F

def RelationStands (successor predecessor : RevisionRefV1) : Prop :=
  ∃ k, .relationAsserted k c successor predecessor ∈ F ∧ .relationWithdrawn k ∉ F

def Succeeds (s p : RevisionId) : Prop :=
  ∃ successor predecessor, RelationStands F c successor predecessor ∧
    successor.revisionId = s ∧ predecessor.revisionId = p

def Standing (r : RevisionId) : Prop := MembershipStands F c r ∧ ∀ s, ¬ Succeeds F c s r

/-- Everything the verdict Accepted asks; `qualifies` is what it asks of a current Revision. -/
structure Acceptable (sha : Sha256) (qualifies : RevisionId → Prop) : Prop where
  declared : ∃ d, .declaration c d ∈ F
  oneDescriptor : ∀ d d', .declaration c d ∈ F → .declaration c d' ∈ F → d = d'
  derived : ∀ d, .declaration c d ∈ F → deriveChangeId sha d = .ok c
  inhabited : ∃ r, MembershipStands F c r ∧ Proposed F r
  proposed : ∀ r, MembershipStands F c r → Proposed F r
  oneHash : ∀ r, MembershipStands F c r → ∃! hash, .revision r hash ∈ F
  endpoints : ∀ s p, RelationStands F c s p → ∀ ref, ref = s ∨ ref = p →
    ExactHash F ref ∧ MembershipStands F c ref.revisionId
  acyclic : ∀ r, ¬ TransGen (Succeeds F c) r r
  undivided : ∀ a b, Standing F c a → Standing F c b → a ≠ b →
    ∀ r, ¬ (TransGen (Succeeds F c) a r ∧ TransGen (Succeeds F c) b r)
  assessed : ∀ r, Standing F c r → qualifies r
  discharged : ∀ q, ¬ Obliged F (lastOpening F) c q

end Meaning

theorem lifecycleOf_eq_accepted {incomplete cycle divergent declarationConflict revisionConflict : Bool}
    {current qualified : BTreeSet RevisionId} {unresolved : BTreeSet InputRequestId} :
    lifecycleOf incomplete cycle divergent declarationConflict revisionConflict current qualified
        unresolved = .accepted ↔
      (incomplete = false ∧ declarationConflict = false ∧ revisionConflict = false) ∧
      (cycle = false ∧ divergent = false) ∧
      (¬ current.isEmpty ∧ qualified.size = current.size) ∧ unresolved.isEmpty := by
  cases incomplete <;> cases cycle <;> cases divergent <;> cases declarationConflict <;>
    cases revisionConflict <;> simp [lifecycleOf, and_assoc]

/-- Every diagnostic raises a flag, but for the one about responses. -/
theorem ChangeDiagnostic.marks (d : ChangeDiagnostic) :
    (d.marksIncomplete = false ∧ d.marksDeclarationConflict = false ∧
      d.marksRevisionConflict = false) ↔ d = .operativeRequestResponseAmbiguous := by
  cases d <;> decide

variable {r : RevisionId}

section View

variable {F : List ChangeProjectionFact} {c : ChangeId} {v : ChangeView}

theorem ViewSpec.replaces_eq (hv : ViewSpec F c v) : Replaces v.supersedes = Effective F c := by
  funext s p
  exact propext (hv.supersedes s p)

theorem ViewSpec.hasCycle_iff (hv : ViewSpec F c v) :
    revisionGraphHasCycle v.members v.supersedes = true ↔ ∃ r, TransGen (Effective F c) r r := by
  rw [revisionGraphHasCycle_iff, hv.replaces_eq]
  intro s p h
  obtain ⟨_, _, _, _, _, hs, _, rfl, _⟩ := (hv.supersedes s p).mp h
  exact (hv.members _).mpr hs

theorem ViewSpec.diverge_iff (hv : ViewSpec F c v) :
    replacementHeadsDiverge v.currentRevisions v.supersedes = true ↔
      ∃ a, CurrentMember F c a ∧ ∃ b, CurrentMember F c b ∧ a ≠ b ∧
        ∃ r, TransGen (Effective F c) a r ∧ TransGen (Effective F c) b r := by
  rw [replacementHeadsDiverge_iff, hv.replaces_eq]
  simp only [hv.current]

theorem ViewSpec.accepted_iff (hv : ViewSpec F c v) :
    v.lifecycle = .accepted ↔
      (∀ d, Diagnosed F c d → d = .operativeRequestResponseAmbiguous) ∧
      ((∀ r, ¬ TransGen (Effective F c) r r) ∧
        ∀ a b, CurrentMember F c a → CurrentMember F c b → a ≠ b →
          ∀ r, ¬ (TransGen (Effective F c) a r ∧ TransGen (Effective F c) b r)) ∧
      ((∃ r, CurrentMember F c r) ∧ ∀ r, CurrentMember F c r → Qualified F r) ∧
      ∀ q, ¬ Obliged F (lastOpening F) c q := by
  rw [hv.consistent.lifecycle, lifecycleOf_eq_accepted]
  refine and_congr ?_ (and_congr ?_ (and_congr ?_ ?_))
  · simp only [List.any_eq_false, hv.diagnostics, Bool.not_eq_true, ← ChangeDiagnostic.marks]
    grind
  · have hcycle := hv.hasCycle_iff.not
    rw [not_exists, Bool.not_eq_true] at hcycle
    rw [← hcycle]
    refine and_congr_right fun hac => ?_
    rw [hac, Bool.not_false, Bool.true_and, ← Bool.not_eq_true, hv.diverge_iff]
    constructor
    · intro h a b ha hb hne r hr
      exact h ⟨a, ha, b, hb, hne, r, hr⟩
    · rintro h ⟨a, ha, b, hb, hne, r, hr⟩
      exact h a b ha hb hne r hr
  · have hsub : ∀ r ∈ v.qualifiedCurrentRevisions, r ∈ v.currentRevisions := by
      intro r hr
      exact (hv.current r).mpr ((hv.qualified r).mp hr).1
    rw [BTreeSet.size_eq_iff_of_subset hsub, ExtTreeSet.isEmpty_iff,
      eq_empty_iff_forall_not_mem]
    simp only [hv.current, hv.qualified, not_forall, not_not]
    refine and_congr_right fun _ => forall_congr' fun r => ?_
    exact imp_congr_right fun hr => and_iff_right hr
  · rw [ExtTreeSet.isEmpty_iff, eq_empty_iff_forall_not_mem]
    simp only [hv.obligations]

/-- An acyclic Change with a member has a current Revision above it. -/
theorem ViewSpec.exists_current (hv : ViewSpec F c v)
    (hacyclic : ∀ r, ¬ TransGen (Effective F c) r r) (hr : ActiveMember F c r) :
    ∃ m, CurrentMember F c m ∧ ReflTransGen (Effective F c) m r := by
  have hfin : Set.Finite {x | ActiveMember F c x} := by
    refine (v.members.toList.toFinset.finite_toSet).subset ?_
    intro x hx
    simpa [hv.members] using hx
  obtain ⟨m, hmr, hm⟩ := Search.exists_source hfin
    (fun _ _ ⟨_, _, _, _, _, hs, _, he, _⟩ => he ▸ hs) hacyclic r
  refine ⟨m, ⟨?_, hm⟩, hmr⟩
  cases hmr.cases_head with
  | inl h => exact h ▸ hr
  | inr h =>
    obtain ⟨_, ⟨_, _, _, _, _, hs, _, he, _⟩, _⟩ := h
    exact he ▸ hs

theorem topologyOf_eq_divergent {divergent : Bool} {supersedes : Supersedes}
    {current : BTreeSet RevisionId} :
    topologyOf false false divergent supersedes current = .replacementDivergent ↔
      divergent = true := by
  unfold topologyOf
  cases divergent
  · simp only [Bool.false_eq_true, if_false, iff_false]
    split
    · split <;> simp
    · split
      · split <;> simp
      · simp
  · simp

/-- In a Change whose topology is settled, every member leads to a current Revision, the current
Revisions are unrelated, and the topology is divergent when two of them have a predecessor in
common. -/
theorem members_lead_to_current {V : Type} (rt : Runtime V) (E : List (ShoreEvent V))
    (c : ChangeId) (v : ChangeView) (hv : changeView rt E c = some v) (hincomplete : v.topology ≠ .incomplete)
    (hcycle : v.topology ≠ .cycleConflicted) :
    ((∃ r, r ∈ v.currentRevisions) ∧ ∀ r ∈ v.currentRevisions, r ∈ v.members) ∧
    (∀ r ∈ v.members, ∃ m ∈ v.currentRevisions, ReflTransGen (Replaces v.supersedes) m r) ∧
    (∀ a ∈ v.currentRevisions, ∀ b ∈ v.currentRevisions,
      ¬ TransGen (Replaces v.supersedes) a b) ∧
    (v.topology = .replacementDivergent ↔
      ∃ a ∈ v.currentRevisions, ∃ b ∈ v.currentRevisions, a ≠ b ∧
        ∃ r, TransGen (Replaces v.supersedes) a r ∧ TransGen (Replaces v.supersedes) b r) := by
  have hspec := changeView_spec hv
  have htopology := hspec.consistent.topology
  cases hmarks : v.diagnostics.any ChangeDiagnostic.marksIncomplete with
  | true =>
    rw [hmarks] at htopology
    exact absurd htopology hincomplete
  | false =>
    cases hgraph : revisionGraphHasCycle v.members v.supersedes with
    | true =>
      rw [hmarks, hgraph] at htopology
      exact absurd htopology hcycle
    | false =>
      rw [hmarks, hgraph] at htopology
      have hacyclic : ∀ r, ¬ TransGen (Effective (facts rt E) c) r r := by
        intro r hr
        rw [hspec.hasCycle_iff.mpr ⟨r, hr⟩] at hgraph
        cases hgraph
      have hlead : ∀ r ∈ v.members, ∃ m ∈ v.currentRevisions,
          ReflTransGen (Replaces v.supersedes) m r := by
        intro r hr
        obtain ⟨m, hm, hreach⟩ := hspec.exists_current hacyclic ((hspec.members r).mp hr)
        exact ⟨m, (hspec.current m).mpr hm, hspec.replaces_eq ▸ hreach⟩
      refine ⟨⟨?_, fun r hr => ?_⟩, hlead, fun a _ b hb hab => ?_, ?_⟩
      · -- without a member the Change would be incomplete
        by_contra hnone
        rw [List.any_eq_false] at hmarks
        refine hmarks .changeMembershipEmpty ((hspec.diagnostics _).mpr fun r hr => ?_) rfl
        obtain ⟨m, hm, -⟩ := hlead r ((hspec.members r).mpr hr)
        exact hnone ⟨m, hm⟩
      · exact (hspec.members r).mpr ((hspec.current r).mp hr).1
      · obtain ⟨s, -, hsb⟩ := TransGen.tail'_iff.mp hab
        exact ((hspec.current b).mp hb).2 s (hspec.replaces_eq ▸ hsb)
      · rw [htopology, topologyOf_eq_divergent, Bool.not_false, Bool.true_and,
          replacementHeadsDiverge_iff]

open Recorded in
theorem replaced_member_leads_on :
    ∃ v, changeView runtime (journal 1 [declared 1, proposed 1, proposed 2, member 1 1, member 1 2,
        supersedes 1 2 1]) (change 1) = some v ∧
      rev 1 ∈ v.members ∧ rev 1 ∉ v.currentRevisions ∧
      ∃ m ∈ v.currentRevisions, ReflTransGen (Replaces v.supersedes) m (rev 1) := by
  have hview : (changeView runtime (journal 1 [declared 1, proposed 1, proposed 2, member 1 1,
      member 1 2, supersedes 1 2 1]) (change 1)).any (fun v => v.topology = .replacement &&
        rev 1 ∈ v.members && rev 1 ∉ v.currentRevisions) = true := by decide +kernel
  obtain ⟨v, hv, hfound⟩ := Option.any_eq_true _ _ |>.mp hview
  simp only [Bool.and_eq_true, decide_eq_true_eq] at hfound
  obtain ⟨⟨htopology, hmember⟩, hcurrent⟩ := hfound
  refine ⟨v, hv, hmember, hcurrent, ?_⟩
  exact (members_lead_to_current _ _ _ v hv (by simp [htopology]) (by simp [htopology])).2.1 _ hmember

end View

section Verdict

variable {F : List ChangeProjectionFact} {c : ChangeId}

theorem existsUnique_hash :
    (∃! hash, .revision r hash ∈ F) ↔ Proposed F r ∧ ¬ ArtifactConflict F r := by
  constructor
  · rintro ⟨h, hmem, huniq⟩
    refine ⟨⟨h, hmem⟩, ?_⟩
    rintro ⟨x, y, hx, hy, hne⟩
    exact hne ((huniq x hx).trans (huniq y hy).symm)
  · rintro ⟨⟨h, hmem⟩, hno⟩
    refine ⟨h, hmem, ?_⟩
    intro x hx
    by_contra hne
    exact hno ⟨x, h, hx, hmem, hne⟩

theorem ExactHash.proposed {ref : RevisionRefV1} (h : ExactHash F ref) : Proposed F ref.revisionId :=
  ⟨_, (h _).mpr rfl⟩

theorem effective_eq_succeeds (h : ClaimsAgree F)
    (hend : ∀ s p, RelationStands F c s p → ∀ ref, ref = s ∨ ref = p →
      ExactHash F ref ∧ MembershipStands F c ref.revisionId) : Effective F c = Succeeds F c := by
  funext s p
  refine propext ⟨?_, ?_⟩
  · rintro ⟨successor, predecessor, hrel, _, _, _, _, hs, hp⟩
    exact ⟨successor, predecessor, h.claimsRelation.mp hrel, hs, hp⟩
  · rintro ⟨successor, predecessor, hrel, hs, hp⟩
    obtain ⟨hxs, hms⟩ := hend _ _ hrel successor (.inl rfl)
    obtain ⟨hxp, hmp⟩ := hend _ _ hrel predecessor (.inr rfl)
    exact ⟨successor, predecessor, h.claimsRelation.mpr hrel, hxs, hxp,
      ⟨h.claimsMember.mpr hms, hxs.proposed⟩, ⟨h.claimsMember.mpr hmp, hxp.proposed⟩, hs, hp⟩

theorem currentMember_iff_standing (h : ClaimsAgree F)
    (hprop : ∀ r, MembershipStands F c r → Proposed F r)
    (hedge : Effective F c = Succeeds F c) (r : RevisionId) :
    CurrentMember F c r ↔ Standing F c r := by
  rw [CurrentMember, Standing, ActiveMember, h.claimsMember, hedge]
  exact and_congr_left fun _ => and_iff_left_of_imp (hprop r)

/-- No diagnostic, but perhaps the one about responses: what that says of the claims. -/
theorem not_diagnosed_iff (h : ClaimsAgree F)
    (hone : ∀ d d', .declaration c d ∈ F → .declaration c d' ∈ F → d = d') :
    (∀ d, Diagnosed F c d → d = .operativeRequestResponseAmbiguous) ↔
      (∃ d, .declaration c d ∈ F) ∧ (∃ r, MembershipStands F c r ∧ Proposed F r) ∧
      (∀ r, MembershipStands F c r → ∃! hash, .revision r hash ∈ F) ∧
      ∀ s p, RelationStands F c s p → ∀ ref, ref = s ∨ ref = p →
        ExactHash F ref ∧ MembershipStands F c ref.revisionId := by
  have hmember : ∀ r, ClaimsMember F c r ↔ MembershipStands F c r := fun r => h.claimsMember
  have hrelation : ∀ s p, ClaimsRelation F c s p ↔ RelationStands F c s p :=
    fun s p => h.claimsRelation
  constructor
  · intro hnone
    have hprop : ∀ r, MembershipStands F c r → Proposed F r := by
      intro r hr
      by_contra hp
      cases hnone .changeMembershipRevisionMissing ⟨r, (hmember r).mpr hr, hp⟩
    refine ⟨?_, ?_, fun r hr => existsUnique_hash.mpr ⟨hprop r hr, fun hc => ?_⟩, ?_⟩
    · by_contra hd
      cases hnone .changeDeclarationMissing (not_exists.mp hd)
    · by_contra hr
      cases hnone .changeMembershipEmpty fun r ha => hr ⟨r, (hmember r).mp ha.1, ha.2⟩
    · cases hnone .changeMemberRevisionArtifactConflict ⟨r, ⟨(hmember r).mpr hr, hprop r hr⟩, hc⟩
    · intro s p hstands
      have hrel := (hrelation s p).mpr hstands
      have hfree : ¬ (ArtifactConflict F s.revisionId ∨ ArtifactConflict F p.revisionId) := by
        intro hc
        cases hnone .changeRelationRevisionArtifactConflict ⟨s, p, hrel, hc⟩
      have hexact : ExactHash F s ∧ ExactHash F p := by
        by_contra he
        cases hnone .changeRelationTargetMissingOrMismatched ⟨s, p, hrel, hfree, he⟩
      have hboth : ActiveMember F c s.revisionId ∧ ActiveMember F c p.revisionId := by
        by_contra hm
        cases hnone .changeRelationMembershipIncomplete ⟨s, p, hrel, hexact.1, hexact.2, hm⟩
      rintro ref (rfl | rfl)
      · exact ⟨hexact.1, (hmember _).mp hboth.1.1⟩
      · exact ⟨hexact.2, (hmember _).mp hboth.2.1⟩
  · rintro ⟨⟨d, hd⟩, ⟨r, hr⟩, hhash, hend⟩ code hdiag
    have hprop : ∀ r, MembershipStands F c r → Proposed F r :=
      fun r hr => (existsUnique_hash.mp (hhash r hr)).1
    cases code with
    | changeDeclarationMissing => exact absurd hd (hdiag d)
    | changeDeclarationIdentityMismatch => exact hdiag.elim
    | changeDeclarationConflict =>
      obtain ⟨d, d', hd, hd', hne⟩ := hdiag
      exact absurd (by rw [hone d d' hd hd']) hne
    | changeMembershipRevisionMissing =>
      obtain ⟨r, hr, hp⟩ := hdiag
      exact absurd (hprop r ((hmember r).mp hr)) hp
    | changeMembershipEmpty => exact absurd ⟨(hmember r).mpr hr.1, hr.2⟩ (hdiag r)
    | changeMemberRevisionArtifactConflict =>
      obtain ⟨r, hr, hc⟩ := hdiag
      exact absurd hc (existsUnique_hash.mp (hhash r ((hmember r).mp hr.1))).2
    | changeRelationRevisionArtifactConflict =>
      obtain ⟨s, p, hrel, hc⟩ := hdiag
      have hx := hend s p ((hrelation s p).mp hrel)
      rcases hc with hc | hc
      · exact absurd hc (not_artifactConflict_of_exactHash (hx s (.inl rfl)).1)
      · exact absurd hc (not_artifactConflict_of_exactHash (hx p (.inr rfl)).1)
    | changeRelationTargetMissingOrMismatched =>
      obtain ⟨s, p, hrel, -, he⟩ := hdiag
      have hx := hend s p ((hrelation s p).mp hrel)
      exact absurd ⟨(hx s (.inl rfl)).1, (hx p (.inr rfl)).1⟩ he
    | changeRelationMembershipIncomplete =>
      obtain ⟨s, p, hrel, hs, hp, hm⟩ := hdiag
      have hx := hend s p ((hrelation s p).mp hrel)
      exact absurd ⟨⟨(hmember _).mpr (hx s (.inl rfl)).2, hs.proposed⟩,
        (hmember _).mpr (hx p (.inr rfl)).2, hp.proposed⟩ hm
    | operativeRequestResponseAmbiguous => rfl

variable {V : Type} {rt : Runtime V} {E : List (ShoreEvent V)} {v : ChangeView}

/-- A Change is Accepted exactly when it is acceptable, and no assessment qualifies a Revision
other than its own. -/
theorem lifecycle_accepted_iff (hv : changeView rt E c = some v)
    (hcf : CollisionFree rt.sha256 (hashedClaims rt E)) :
    (v.lifecycle = .accepted ↔
      Acceptable (facts rt E) c rt.sha256 (Qualified (facts rt E))) ∧
    ∀ r ∈ v.qualifiedCurrentRevisions, ∃ source a verdict replaces,
      .assessment source r a verdict replaces ∈ facts rt E ∧ Accepting verdict := by
  have hspec := changeView_spec hv
  have hagree := claimsAgree_facts hcf
  have hone : ∀ d d', .declaration c d ∈ facts rt E → .declaration c d' ∈ facts rt E → d = d' :=
    fun d d' => descriptor_eq hcf
  refine ⟨?_, fun r hr => ?_⟩
  rotate_left
  · obtain ⟨a, record, hrec, -, hacc, -⟩ := ((hspec.qualified r).mp hr).2
    obtain ⟨f, hf, hentry⟩ := mem_entries.mp (leastOf_spec hrec).1
    obtain ⟨rfl, -⟩ := assessmentEntry_eq_some.mp hentry
    exact ⟨_, _, _, _, hf, hacc⟩
  rw [hspec.accepted_iff, not_diagnosed_iff hagree hone]
  constructor
  · rintro ⟨⟨hdecl, hinh, hhash, hend⟩, ⟨hac, hdiv⟩, ⟨_, hqual⟩, hobl⟩
    have hprop : ∀ r, MembershipStands (facts rt E) c r → Proposed (facts rt E) r :=
      fun r hr => (existsUnique_hash.mp (hhash r hr)).1
    have heq := effective_eq_succeeds hagree hend
    have hcur := currentMember_iff_standing hagree hprop heq
    rw [heq] at hac hdiv
    simp only [hcur] at hdiv hqual
    exact ⟨hdecl, hone, fun d hd => wellDeclared_facts rt E c d hd, hinh, hprop, hhash, hend, hac,
      hdiv, hqual, hobl⟩
  · intro h
    have heq := effective_eq_succeeds hagree h.endpoints
    have hcur := currentMember_iff_standing hagree h.proposed heq
    have hac : ∀ r, ¬ TransGen (Effective (facts rt E) c) r r := by
      rw [heq]
      exact h.acyclic
    obtain ⟨r, hr, hp⟩ := h.inhabited
    obtain ⟨m, hm, -⟩ := hspec.exists_current hac ⟨hagree.claimsMember.mpr hr, hp⟩
    refine ⟨⟨h.declared, h.inhabited, h.oneHash, h.endpoints⟩, ⟨hac, ?_⟩, ⟨⟨m, hm⟩, ?_⟩,
      h.discharged⟩
    · rw [heq]
      simp only [hcur]
      exact h.undivided
    · simp only [hcur]
      exact h.assessed

end Verdict

section SelfReplacing

open Recorded

/-- As `Qualified`, but an assessment is not replaced by itself. -/
def QualifiedAmongOthers (F : List ChangeProjectionFact) (r : RevisionId) : Prop :=
  ∃ a v, assessmentRecord F r a = some v ∧ Accepting v.2.assessment ∧
    (¬ ∃ b w, b ≠ a ∧ assessmentRecord F r b = some w ∧ a ∈ w.2.replaces) ∧
    ∀ a' v', assessmentRecord F r a' = some v' →
      (¬ ∃ b w, b ≠ a' ∧ assessmentRecord F r b = some w ∧ a' ∈ w.2.replaces) → a' = a

/-- One member with one accepting assessment, which names itself as replaced. -/
def selfReplacing : List (ShoreEvent WirePayload) :=
  journal 1 [declared 1, proposed 1, member 1 1, assessed 1 1 .accepted [assessment 1]]

def selfReplacingFacts : List ChangeProjectionFact :=
  [.declaration (change 1) (descriptor 1), .revision (rev 1) (artifact 1),
    .membershipAsserted (deriveMembershipClaimId sha (change 1) (rev 1) (nonce 0)) (change 1)
      (rev 1),
    .assessment ⟨text "evt:" ++ Text.hexOf 2 4 []⟩ (rev 1) (assessment 1) .accepted [assessment 1]]

theorem selfReplacing_assessed : QualifiedAmongOthers selfReplacingFacts (rev 1) := by
  have hone : ∀ a v, assessmentRecord selfReplacingFacts (rev 1) a = some v → a = assessment 1 := by
    intro a v h
    obtain ⟨f, hf, hentry⟩ := mem_entries.mp (leastOf_spec h).1
    obtain ⟨rfl, -⟩ := assessmentEntry_eq_some.mp hentry
    simp [selfReplacingFacts] at hf
    exact hf.2.1
  have hrecord : (assessmentRecord selfReplacingFacts (rev 1) (assessment 1)).map
      (·.2.assessment) = some .accepted := by decide +kernel
  obtain ⟨v, hv, hacc⟩ := Option.map_eq_some_iff.mp hrecord
  refine ⟨assessment 1, v, hv, .inl hacc, ?_, fun a w hw _ => hone a w hw⟩
  rintro ⟨b, w, hne, hb, _⟩
  exact hne (hone b w hb)

theorem selfReplacing_acceptable : Acceptable selfReplacingFacts (change 1) sha
    (QualifiedAmongOthers selfReplacingFacts) := by
  have hstands : ∀ r, MembershipStands selfReplacingFacts (change 1) r ↔ r = rev 1 := by
    intro r
    simp [MembershipStands, selfReplacingFacts]
  have hproposed : ∀ hash, .revision (rev 1) hash ∈ selfReplacingFacts ↔ hash = artifact 1 := by
    intro hash
    simp [selfReplacingFacts]
  have hrelation : ∀ s p, ¬ RelationStands selfReplacingFacts (change 1) s p := by
    intro s p h
    simp [RelationStands, selfReplacingFacts] at h
  have htrans : ∀ s p, ¬ TransGen (Succeeds selfReplacingFacts (change 1)) s p := by
    intro s p h
    obtain ⟨_, ⟨_, _, hrel, _⟩, _⟩ := TransGen.head'_iff.mp h
    exact hrelation _ _ hrel
  refine ⟨⟨descriptor 1, .head _⟩, ?_, ?_, ⟨rev 1, (hstands _).mpr rfl, _, (hproposed _).mpr rfl⟩,
    ?_, ?_, fun s p h => absurd h (hrelation s p), fun r => htrans r r,
    fun a _ _ _ _ r h => htrans a r h.1, ?_, ?_⟩
  · intro d d' hd hd'
    simp [selfReplacingFacts] at hd hd'
    rw [hd, hd']
  · intro d hd
    simp [selfReplacingFacts] at hd
    subst hd
    decide +kernel
  · intro r hr
    rw [(hstands r).mp hr]
    exact ⟨_, (hproposed _).mpr rfl⟩
  · intro r hr
    rw [(hstands r).mp hr]
    exact ⟨_, (hproposed _).mpr rfl, fun hash h => (hproposed hash).mp h⟩
  · intro r hr
    rw [(hstands r).mp hr.1]
    exact selfReplacing_assessed
  · intro q ⟨r, hq, _⟩
    simp [lastOpening, selfReplacingFacts, entries, requestEntry] at hq

theorem self_replacing_not_accepted :
    CollisionFree sha (hashedClaims runtime selfReplacing) ∧
      (∃ v, changeView runtime selfReplacing (change 1) = some v ∧ v.lifecycle ≠ .accepted) ∧
      Acceptable (facts runtime selfReplacing) (change 1) sha
        (QualifiedAmongOthers (facts runtime selfReplacing)) := by
  have hlife : (changeView runtime selfReplacing (change 1)).map (·.lifecycle) =
      some .inProgress := by decide +kernel
  obtain ⟨v, hv, hprog⟩ := Option.map_eq_some_iff.mp hlife
  have hfacts : facts runtime selfReplacing = selfReplacingFacts := by decide +kernel
  refine ⟨collisionFree_of_nodup (by decide +kernel), ⟨v, hv, ?_⟩, ?_⟩
  · rw [hprog]
    decide
  · rw [hfacts]
    exact selfReplacing_acceptable

def plainlyAccepted : List (ShoreEvent WirePayload) :=
  journal 1 [declared 1, proposed 1, member 1 1, assessed 1 1 .accepted []]

theorem plainly_accepted_acceptable :
    CollisionFree sha (hashedClaims runtime plainlyAccepted) ∧
      (∃ v, changeView runtime plainlyAccepted (change 1) = some v ∧ v.lifecycle = .accepted) ∧
      Acceptable (facts runtime plainlyAccepted) (change 1) sha
        (Qualified (facts runtime plainlyAccepted)) := by
  have hcf : CollisionFree sha (hashedClaims runtime plainlyAccepted) :=
    collisionFree_of_nodup (by decide +kernel)
  have hlife : (changeView runtime plainlyAccepted (change 1)).map (·.lifecycle) =
      some .accepted := by decide +kernel
  obtain ⟨v, hv, hacc⟩ := Option.map_eq_some_iff.mp hlife
  exact ⟨hcf, ⟨v, hv, hacc⟩, (lifecycle_accepted_iff hv hcf).1.mp hacc⟩

end SelfReplacing

end Pointbreak
