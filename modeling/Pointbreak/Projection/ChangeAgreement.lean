import Pointbreak.Projection.ChangeEvents

/-!
# Projection.ChangeAgreement

When two lists of facts give a Change one view. Its graph (all of the view but qualifications,
obligations and the diagnostic about responses) is settled by its own declarations and unwithdrawn
claims and by the hashes of the Revisions those mention.
-/

namespace Pointbreak

open Std KeyedLog

/-- An unwithdrawn claim of the Change mentions the Revision. -/
def Mentions (F : List ChangeProjectionFact) (c : ChangeId) (r : RevisionId) : Prop :=
  ClaimsMember F c r ∨ ∃ s p, ClaimsRelation F c s p ∧ (s.revisionId = r ∨ p.revisionId = r)

structure GraphAgree (F F' : List ChangeProjectionFact) (c : ChangeId) : Prop where
  declarations : ∀ d, .declaration c d ∈ F ↔ .declaration c d ∈ F'
  claimsMember : ∀ r, ClaimsMember F c r ↔ ClaimsMember F' c r
  claimsRelation : ∀ s p, ClaimsRelation F c s p ↔ ClaimsRelation F' c s p
  hashes : ∀ r, Mentions F c r → ∀ h, .revision r h ∈ F ↔ .revision r h ∈ F'

variable {counted : InputRequestId → Option RevisionId} {F F' : List ChangeProjectionFact}
  {c : ChangeId} {r : RevisionId}

namespace GraphAgree

variable (h : GraphAgree F F' c)

include h

theorem proposed (hr : Mentions F c r) : Proposed F r ↔ Proposed F' r := by
  unfold Proposed
  simp only [h.hashes r hr]

theorem artifactConflict (hr : Mentions F c r) : ArtifactConflict F r ↔ ArtifactConflict F' r := by
  unfold ArtifactConflict
  simp only [h.hashes r hr]

theorem exactHash {ref : RevisionRefV1} (hr : Mentions F c ref.revisionId) :
    ExactHash F ref ↔ ExactHash F' ref := by
  unfold ExactHash
  simp only [h.hashes _ hr]

theorem activeMember : ActiveMember F c r ↔ ActiveMember F' c r := by
  unfold ActiveMember
  rw [← h.claimsMember]
  refine and_congr_right fun hm => h.proposed (.inl hm)

theorem effective {s p : RevisionId} : Effective F c s p ↔ Effective F' c s p := by
  unfold Effective
  refine exists_congr fun successor => exists_congr fun predecessor => ?_
  rw [← h.claimsRelation, ← h.activeMember, ← h.activeMember]
  refine and_congr_right fun hrel => ?_
  rw [h.exactHash (.inr ⟨_, _, hrel, .inl rfl⟩), h.exactHash (.inr ⟨_, _, hrel, .inr rfl⟩)]

theorem currentMember : CurrentMember F c r ↔ CurrentMember F' c r := by
  unfold CurrentMember
  simp only [h.activeMember, h.effective]

theorem diagnosed {d : ChangeDiagnostic} (hd : d ≠ .operativeRequestResponseAmbiguous) :
    Diagnosed F c d ↔ Diagnosed F' c d := by
  have hmember : ∀ {r}, ActiveMember F c r → Mentions F c r := fun hr => .inl hr.1
  have hsucc : ∀ {s p}, ClaimsRelation F c s p → Mentions F c s.revisionId :=
    fun hrel => .inr ⟨_, _, hrel, .inl rfl⟩
  have hpred : ∀ {s p}, ClaimsRelation F c s p → Mentions F c p.revisionId :=
    fun hrel => .inr ⟨_, _, hrel, .inr rfl⟩
  cases d with
  | changeDeclarationMissing | changeDeclarationConflict | changeMembershipEmpty =>
    simp only [Diagnosed, h.declarations, h.activeMember]
  | changeDeclarationIdentityMismatch => rfl
  | changeMembershipRevisionMissing =>
    simp only [Diagnosed]
    refine exists_congr fun r => ?_
    rw [← h.claimsMember]
    exact and_congr_right fun hm => not_congr (h.proposed (.inl hm))
  | changeMemberRevisionArtifactConflict =>
    simp only [Diagnosed]
    refine exists_congr fun r => ?_
    rw [← h.activeMember]
    exact and_congr_right fun hm => h.artifactConflict (hmember hm)
  | changeRelationRevisionArtifactConflict | changeRelationTargetMissingOrMismatched
  | changeRelationMembershipIncomplete =>
    simp only [Diagnosed]
    refine exists_congr fun s => exists_congr fun p => ?_
    rw [← h.claimsRelation]
    refine and_congr_right fun hrel => ?_
    simp only [h.activeMember, h.artifactConflict (hsucc hrel), h.artifactConflict (hpred hrel),
      h.exactHash (hsucc hrel), h.exactHash (hpred hrel)]
  | operativeRequestResponseAmbiguous => exact absurd rfl hd

/-- With one graph, the views differ at most in what review facts decide. -/
theorem view_eq {v v' : ChangeView} (hv : ViewSpec F c v) (hv' : ViewSpec F' c v')
    (hq : ∀ r, CurrentMember F c r → (Qualified F r ↔ Qualified F' r))
    (ho : ∀ q, Obliged F (lastOpening F) c q ↔ Obliged F' (lastOpening F') c q)
    (ha : Ambiguous F (lastOpening F) c ↔ Ambiguous F' (lastOpening F') c) : v = v' := by
  refine hv.ext hv' (fun r => h.activeMember) (fun s p => h.effective) hq ho ?_
  intro d
  by_cases hd : d = .operativeRequestResponseAmbiguous
  · subst hd
    exact ha
  · exact h.diagnosed hd

theorem obliged {q : InputRequestId} (hresp : responses F q = responses F' q)
    (hport : ∀ t, CarriedTo F counted q t ↔ CarriedTo F' counted q t) :
    Obliged F counted c q ↔ Obliged F' counted c q := by
  unfold Obliged
  simp only [h.activeMember, h.currentMember, hresp, hport]

theorem ambiguous (hresp : ∀ q, responses F q = responses F' q) :
    Ambiguous F counted c ↔ Ambiguous F' counted c := by
  unfold Ambiguous
  simp only [h.activeMember, hresp]

end GraphAgree

section ClaimsAgree

variable (h : ClaimsAgree F)

include h

theorem ClaimsAgree.lastMembership {k : ChangeMembershipClaimId} {m : ChangeMembershipFact} :
    lastMembership F k = some m ↔ .membershipAsserted k m.changeId m.revisionId ∈ F := by
  rw [Pointbreak.lastMembership, h.membership.getLast?_eq_some]
  simp [mem_entries]

theorem ClaimsAgree.lastRelation {k : ChangeRevisionRelationClaimId} {m : ChangeRelationFact} :
    lastRelation F k = some m ↔
      .relationAsserted k m.changeId m.successor m.predecessor ∈ F := by
  rw [Pointbreak.lastRelation, h.relation.getLast?_eq_some]
  simp [mem_entries]

theorem ClaimsAgree.claimsMember :
    ClaimsMember F c r ↔ ∃ k, .membershipAsserted k c r ∈ F ∧ .membershipWithdrawn k ∉ F := by
  simp only [ClaimsMember, h.lastMembership]

theorem ClaimsAgree.claimsRelation {s p : RevisionRefV1} :
    ClaimsRelation F c s p ↔
      ∃ k, .relationAsserted k c s p ∈ F ∧ .relationWithdrawn k ∉ F := by
  simp only [ClaimsRelation, h.lastRelation]

theorem ClaimsAgree.named :
    Named F c ↔ (∃ d, .declaration c d ∈ F) ∨ (∃ k r, .membershipAsserted k c r ∈ F) ∨
      ∃ k s p, .relationAsserted k c s p ∈ F := by
  simp only [Named, h.lastMembership, h.lastRelation]

end ClaimsAgree

structure SameGraph (F F' : List ChangeProjectionFact) : Prop where
  graph : ∀ c, GraphAgree F F' c
  named : ∀ c, Named F c ↔ Named F' c
  links : (foldFacts F).links = (foldFacts F').links

theorem ClaimsAgree.subset (h : ClaimsAgree F) (hs : F' ⊆ F) : ClaimsAgree F' :=
  ⟨h.membership.subset hs, h.relation.subset hs, h.link.subset hs⟩

theorem SameGraph.of_mem_iff (h : ClaimsAgree F) (hmem : ∀ f, f ∈ F ↔ f ∈ F') :
    SameGraph F F' := by
  have h' : ClaimsAgree F' := h.subset fun f hf => (hmem f).mpr hf
  refine ⟨?_, ?_, ?_⟩
  · intro c
    refine ⟨fun d => hmem _, ?_, ?_, fun r _ x => hmem _⟩
    · intro r
      simp only [h.claimsMember, h'.claimsMember, hmem]
    · intro s p
      simp only [h.claimsRelation, h'.claimsRelation, hmem]
  · intro c
    simp only [h.named, h'.named, hmem]
  · apply ExtTreeMap.ext_getElem?
    intro k
    apply Option.ext
    intro link
    rw [foldFacts_links, foldFacts_links, h.link.getLast?_eq_some, h'.link.getLast?_eq_some]
    simp only [mem_entries, hmem]

/-- A fact of the review of a Revision: an assessment, a request, a response or a port. -/
def ChangeProjectionFact.isReview : ChangeProjectionFact → Bool
  | .assessment .. | .operativeRequest .. | .requestResponse _ | .factPort _ => true
  | _ => false

theorem SameGraph.append_review {G : List ChangeProjectionFact}
    (hG : ∀ g ∈ G, g.isReview = true) : SameGraph F (F ++ G) := by
  have hmem : ∀ f, f.isReview = false → (f ∈ F ↔ f ∈ F ++ G) := by
    intro f hf
    rw [List.mem_append, or_iff_left]
    intro h
    rw [hG f h] at hf
    cases hf
  have hnone : ∀ {κ α : Type} [DecidableEq κ] {sel : ChangeProjectionFact → Option (κ × α)}
      (k : κ), (∀ f, f.isReview = true → sel f = none) → entries sel k (F ++ G) = entries sel k F := by
    intro κ α _ sel k hsel
    have hnil : entries sel k G = [] := entries_eq_nil fun g hg => hsel g (hG g hg)
    rw [entries_append, hnil, List.append_nil]
  have hm : ∀ k, lastMembership (F ++ G) k = lastMembership F k := by
    intro k
    rw [lastMembership, lastMembership, hnone k fun f hf => by cases f <;> first | rfl | cases hf]
  have hr : ∀ k, lastRelation (F ++ G) k = lastRelation F k := by
    intro k
    rw [lastRelation, lastRelation, hnone k fun f hf => by cases f <;> first | rfl | cases hf]
  have hmw : ∀ k, .membershipWithdrawn k ∈ F ↔ .membershipWithdrawn k ∈ F ++ G :=
    fun k => hmem _ rfl
  have hrw : ∀ k, .relationWithdrawn k ∈ F ↔ .relationWithdrawn k ∈ F ++ G := fun k => hmem _ rfl
  have hd : ∀ c d, .declaration c d ∈ F ↔ .declaration c d ∈ F ++ G := fun c d => hmem _ rfl
  refine ⟨?_, ?_, ?_⟩
  · intro c
    refine ⟨hd c, ?_, ?_, fun r _ x => hmem _ rfl⟩
    · intro r
      simp only [ClaimsMember, hm, hmw]
    · intro s p
      simp only [ClaimsRelation, hr, hrw]
  · intro c
    simp only [Named, hm, hr, hd]
  · apply ExtTreeMap.ext_getElem?
    intro k
    rw [foldFacts_links, foldFacts_links, hnone k]
    intro f hf
    cases f <;> first | rfl | cases hf

theorem Projects.eq_of_sameGraph {P P' : ChangeProjection} (hP : Projects F P)
    (hP' : Projects F' P') (h : SameGraph F F')
    (hq : ∀ c r, CurrentMember F c r → (Qualified F r ↔ Qualified F' r))
    (ho : ∀ c q, Obliged F (lastOpening F) c q ↔ Obliged F' (lastOpening F') c q)
    (ha : ∀ c, Ambiguous F (lastOpening F) c ↔ Ambiguous F' (lastOpening F') c) : P = P' := by
  refine hP.ext hP' h.named ?_ h.links
  intro c v v' hv hv'
  exact (h.graph c).view_eq hv hv' (hq c) (ho c) (ha c)

/-- Several responses make a request an obligation, so the obligations tell the ambiguity. -/
theorem ambiguous_iff_obliged :
    Ambiguous F counted c ↔ ∃ q, Obliged F counted c q ∧ 2 ≤ responses F q := by
  constructor
  · rintro ⟨q, r, hq, hr, h⟩
    exact ⟨q, ⟨r, hq, hr, .inl h⟩, h⟩
  · rintro ⟨q, ⟨r, hq, hr, _⟩, h⟩
    exact ⟨q, r, hq, hr, h⟩

theorem qualified_congr (h : ∀ a, assessmentRecord F r a = assessmentRecord F' r a) :
    Qualified F r ↔ Qualified F' r := by
  rw [Qualified, Qualified, funext h]

end Pointbreak
