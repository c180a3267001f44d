import Pointbreak.Projection.ChangeFold

/-!
# Projection.ChangeSpec

What the view of a Change means, stated over the facts and without the tables. `projectChange_spec`
says that the fold computes exactly this. A claim id names what its last carrier says; when no claim
id is used for two things (`ClaimsAgree`, which holds for hashed ids), that is what any carrier
says.
-/

namespace Pointbreak

open Std KeyedLog Relation ChangeFindings BTreeSet FoldInput

section Meaning

variable (F : List ChangeProjectionFact)

def Proposed (r : RevisionId) : Prop := ∃ hash, .revision r hash ∈ F

/-- Proposed under two artifact hashes. -/
def ArtifactConflict (r : RevisionId) : Prop :=
  ∃ h h', .revision r h ∈ F ∧ .revision r h' ∈ F ∧ h ≠ h'

/-- Proposed under the hash of the reference and under no other. -/
def ExactHash (ref : RevisionRefV1) : Prop :=
  ∀ h, .revision ref.revisionId h ∈ F ↔ h = ref.objectArtifactContentHash

def lastMembership (k : ChangeMembershipClaimId) : Option ChangeMembershipFact :=
  (entries ChangeProjectionFact.membershipEntry k F).getLast?

def lastRelation (k : ChangeRevisionRelationClaimId) : Option ChangeRelationFact :=
  (entries ChangeProjectionFact.relationEntry k F).getLast?

def lastOpening (q : InputRequestId) : Option RevisionId :=
  (entries ChangeProjectionFact.requestEntry q F).getLast?

def ClaimsMember (c : ChangeId) (r : RevisionId) : Prop :=
  ∃ k, lastMembership F k = some ⟨c, r⟩ ∧ .membershipWithdrawn k ∉ F

def ActiveMember (c : ChangeId) (r : RevisionId) : Prop := ClaimsMember F c r ∧ Proposed F r

def ClaimsRelation (c : ChangeId) (successor predecessor : RevisionRefV1) : Prop :=
  ∃ k, lastRelation F k = some ⟨c, successor, predecessor⟩ ∧ .relationWithdrawn k ∉ F

/-- An unwithdrawn relation between two exact active members. -/
def Effective (c : ChangeId) (s p : RevisionId) : Prop :=
  ∃ successor predecessor, ClaimsRelation F c successor predecessor ∧
    ExactHash F successor ∧ ExactHash F predecessor ∧
    ActiveMember F c successor.revisionId ∧ ActiveMember F c predecessor.revisionId ∧
    successor.revisionId = s ∧ predecessor.revisionId = p

def CurrentMember (c : ChangeId) (r : RevisionId) : Prop :=
  ActiveMember F c r ∧ ∀ s, ¬ Effective F c s r

/-- A declaration, a membership claim or a relation claim names the Change. -/
def Named (c : ChangeId) : Prop :=
  (∃ d, .declaration c d ∈ F) ∨ (∃ k r, lastMembership F k = some ⟨c, r⟩) ∨
    ∃ k s p, lastRelation F k = some ⟨c, s, p⟩

def responses (q : InputRequestId) : Nat := F.count (.requestResponse q)

/-- The port carries `q` open as `q'` on Revision `t`. -/
def CarriesOpen (port : ReviewFactPortedPayload) (q q' : InputRequestId) (t : RevisionId) : Prop :=
  port.originFact = .inputRequest q ∧ port.relation = .carriedOpenAs ∧
    port.targetFact = some (.inputRequest q') ∧ port.targetRevision.revisionId = t

/-- `q` is carried to Revision `t`, where its target request is open when each request counts on
the Revision `counted` gives. -/
def CarriedTo (counted : InputRequestId → Option RevisionId) (q : InputRequestId)
    (t : RevisionId) : Prop :=
  ∃ port q', .factPort port ∈ F ∧ CarriesOpen port q q' t ∧ counted q' = some t

/-- The request `q`, counted on an active member, is not discharged: it has several responses, or
none and is not carried to exactly the current Revisions. -/
def Obliged (counted : InputRequestId → Option RevisionId) (c : ChangeId) (q : InputRequestId) :
    Prop :=
  ∃ r, counted q = some r ∧ ActiveMember F c r ∧
    (2 ≤ responses F q ∨
      responses F q = 0 ∧ ¬ ∀ t, CarriedTo F counted q t ↔ CurrentMember F c t)

/-- A request counted on an active member has several responses. -/
def Ambiguous (counted : InputRequestId → Option RevisionId) (c : ChangeId) : Prop :=
  ∃ q r, counted q = some r ∧ ActiveMember F c r ∧ 2 ≤ responses F q

def Accepting (v : ReviewAssessment) : Prop := v = .accepted ∨ v = .acceptedWithFollowUp

def ReplacedBy (records : AssessmentId → Option (EventId × ChangeAssessmentFact))
    (a : AssessmentId) : Prop :=
  ∃ b v, records b = some v ∧ a ∈ v.2.replaces

/-- Exactly one record is not replaced, and it accepts. -/
def QualifiedBy (records : AssessmentId → Option (EventId × ChangeAssessmentFact)) : Prop :=
  ∃ a v, records a = some v ∧ ¬ ReplacedBy records a ∧ Accepting v.2.assessment ∧
    ∀ b w, records b = some w → ¬ ReplacedBy records b → b = a

def Qualified (r : RevisionId) : Prop := QualifiedBy (assessmentRecord F r)

/-- When a diagnostic applies to a Change whose declarations are well formed. -/
def Diagnosed (c : ChangeId) : ChangeDiagnostic → Prop
  | .changeDeclarationMissing => ∀ d, .declaration c d ∉ F
  | .changeDeclarationIdentityMismatch => False
  | .changeDeclarationConflict =>
    ∃ d d', .declaration c d ∈ F ∧ .declaration c d' ∈ F ∧ d.toValue.render ≠ d'.toValue.render
  | .changeMembershipRevisionMissing => ∃ r, ClaimsMember F c r ∧ ¬ Proposed F r
  | .changeMembershipEmpty => ∀ r, ¬ ActiveMember F c r
  | .changeMemberRevisionArtifactConflict => ∃ r, ActiveMember F c r ∧ ArtifactConflict F r
  | .changeRelationRevisionArtifactConflict => ∃ s p, ClaimsRelation F c s p ∧
      (ArtifactConflict F s.revisionId ∨ ArtifactConflict F p.revisionId)
  | .changeRelationTargetMissingOrMismatched => ∃ s p, ClaimsRelation F c s p ∧
      ¬ (ArtifactConflict F s.revisionId ∨ ArtifactConflict F p.revisionId) ∧
      ¬ (ExactHash F s ∧ ExactHash F p)
  | .changeRelationMembershipIncomplete => ∃ s p, ClaimsRelation F c s p ∧
      ExactHash F s ∧ ExactHash F p ∧
      ¬ (ActiveMember F c s.revisionId ∧ ActiveMember F c p.revisionId)
  | .operativeRequestResponseAmbiguous => Ambiguous F (lastOpening F) c

/-- Every declaration carries a valid descriptor of its own Change, as `validate` ensures. -/
def WellDeclared (sha : Sha256) : Prop :=
  ∀ c d, .declaration c d ∈ F → deriveChangeId sha d = .ok c

end Meaning

variable {k : ChangeRevisionRelationClaimId} {m : ChangeRelationFact}

section Refinement

variable {F : List ChangeProjectionFact} {r : RevisionId}

theorem mem_hashes {hashes : BTreeSet Text} (h : (foldFacts F).revisions[r]? = some hashes)
    {x : Text} : x ∈ hashes ↔ .revision r x ∈ F := by
  rw [foldFacts_revisions] at h
  split at h
  · cases h
  · cases h
    simp [mem_entries]

theorem mem_revisions_iff : r ∈ (foldFacts F).revisions ↔ Proposed F r := by
  simp only [BTreeMap.mem_iff, foldFacts_revisions, Option.ite_none_left_eq_some, Option.some.injEq,
    exists_and_left, exists_eq', and_true]
  simp [List.eq_nil_iff_forall_not_mem, mem_entries, Proposed]

theorem artifactConflict_iff : (foldFacts F).artifactConflict r = true ↔ ArtifactConflict F r := by
  rw [artifactConflict, Option.any_eq_true]
  constructor
  · rintro ⟨hashes, hr, hlt⟩
    obtain ⟨x, hx, y, hy, hne⟩ := one_lt_size_iff.mp (of_decide_eq_true hlt)
    exact ⟨x, y, (mem_hashes hr).mp hx, (mem_hashes hr).mp hy, hne⟩
  · rintro ⟨x, y, hx, hy, hne⟩
    obtain ⟨hashes, hr⟩ := BTreeMap.mem_iff.mp (mem_revisions_iff.mpr ⟨x, hx⟩)
    refine ⟨hashes, hr, decide_eq_true ?_⟩
    exact one_lt_size_iff.mpr ⟨x, (mem_hashes hr).mpr hx, y, (mem_hashes hr).mpr hy, hne⟩

theorem hasExactHash_iff {ref : RevisionRefV1} :
    (foldFacts F).hasExactHash ref = true ↔ ExactHash F ref := by
  rw [hasExactHash, Option.any_eq_true]
  constructor
  · rintro ⟨hashes, hr, h⟩ x
    rw [Bool.and_eq_true, beq_iff_eq, decide_eq_true_eq, size_eq_one_iff] at h
    rw [← mem_hashes hr, h]
  · intro h
    have hx := (h ref.objectArtifactContentHash).mpr rfl
    obtain ⟨hashes, hr⟩ := BTreeMap.mem_iff.mp (mem_revisions_iff.mpr ⟨_, hx⟩)
    refine ⟨hashes, hr, ?_⟩
    rw [Bool.and_eq_true, beq_iff_eq, decide_eq_true_eq, size_eq_one_iff]
    intro x
    rw [mem_hashes hr, h]

theorem not_artifactConflict_of_exactHash {ref : RevisionRefV1} (h : ExactHash F ref) :
    ¬ ArtifactConflict F ref.revisionId := by
  rintro ⟨x, y, hx, hy, hne⟩
  exact hne (((h x).mp hx).trans ((h y).mp hy).symm)

theorem mem_memberships_iff {k : ChangeMembershipClaimId} {m : ChangeMembershipFact} :
    (k, m) ∈ (foldFacts F).memberships.toList ↔ lastMembership F k = some m := by
  rw [BTreeMap.mem_toList_iff, foldFacts_memberships, lastMembership]

theorem mem_relations_iff :
    (k, m) ∈ (foldFacts F).relations.toList ↔ lastRelation F k = some m := by
  rw [BTreeMap.mem_toList_iff, foldFacts_relations, lastRelation]

theorem mem_openings {q : InputRequestId} :
    r ∈ entries ChangeProjectionFact.requestEntry q F ↔ .operativeRequest q r ∈ F := by
  simp [mem_entries]

theorem lastOpening_of_unique {q : InputRequestId} (hopen : .operativeRequest q r ∈ F)
    (hone : ∀ r', .operativeRequest q r' ∈ F → r' = r) : lastOpening F q = some r := by
  have hne : entries ChangeProjectionFact.requestEntry q F ≠ [] :=
    List.ne_nil_of_mem (mem_openings.mpr hopen)
  rw [lastOpening, List.getLast?_eq_some_getLast hne]
  exact congrArg some (hone _ (mem_openings.mp (List.getLast_mem hne)))

variable {c : ChangeId}

theorem claimsMember_iff {k : ChangeMembershipClaimId} {m : ChangeMembershipFact} :
    (foldFacts F).claimsMember c (k, m) = true ↔
      m.changeId = c ∧ .membershipWithdrawn k ∉ F := by
  simp [claimsMember, foldFacts_membershipWithdrawals]

theorem mem_members_iff : r ∈ (foldFacts F).members c ↔ ActiveMember F c r := by
  simp only [FoldInput.members, mem_collect, List.mem_map, List.mem_filter,
    Bool.and_eq_true, decide_eq_true_eq, mem_revisions_iff]
  constructor
  · rintro ⟨⟨k, m⟩, ⟨hm, hc, hp⟩, hr⟩
    rw [claimsMember_iff] at hc
    obtain ⟨rfl, hw⟩ := hc
    subst hr
    exact ⟨⟨k, mem_memberships_iff.mp hm, hw⟩, hp⟩
  · rintro ⟨⟨k, hm, hw⟩, hp⟩
    exact ⟨(k, ⟨c, r⟩), ⟨mem_memberships_iff.mpr hm, claimsMember_iff.mpr ⟨rfl, hw⟩, hp⟩, rfl⟩

theorem membershipRevisionMissing_iff :
    (foldFacts F).membershipRevisionMissing c = true ↔ ∃ r, ClaimsMember F c r ∧ ¬ Proposed F r := by
  simp only [membershipRevisionMissing, List.any_eq_true, Bool.and_eq_true,
    decide_eq_true_eq, mem_revisions_iff]
  constructor
  · rintro ⟨⟨k, m⟩, hm, hc, hp⟩
    rw [claimsMember_iff] at hc
    obtain ⟨rfl, hw⟩ := hc
    exact ⟨m.revisionId, ⟨k, mem_memberships_iff.mp hm, hw⟩, hp⟩
  · rintro ⟨r, ⟨k, hm, hw⟩, hp⟩
    exact ⟨(k, ⟨c, r⟩), mem_memberships_iff.mpr hm, claimsMember_iff.mpr ⟨rfl, hw⟩, hp⟩

end Refinement

/-! ## Findings

Each of the three flags is raised together with a diagnostic, and each diagnostic raises one flag,
so the diagnostics alone tell the flags. -/

namespace ChangeDiagnostic

def marksIncomplete : ChangeDiagnostic → Bool
  | changeDeclarationMissing | changeMembershipRevisionMissing | changeMembershipEmpty
  | changeRelationTargetMissingOrMismatched | changeRelationMembershipIncomplete => true
  | _ => false

def marksDeclarationConflict : ChangeDiagnostic → Bool
  | changeDeclarationIdentityMismatch | changeDeclarationConflict => true
  | _ => false

def marksRevisionConflict : ChangeDiagnostic → Bool
  | changeMemberRevisionArtifactConflict | changeRelationRevisionArtifactConflict => true
  | _ => false

end ChangeDiagnostic

namespace ChangeFindings

open ChangeDiagnostic

def report (found : ChangeFindings) (code : ChangeDiagnostic) : ChangeFindings where
  incomplete := found.incomplete || code.marksIncomplete
  declarationConflict := found.declarationConflict || code.marksDeclarationConflict
  revisionConflict := found.revisionConflict || code.marksRevisionConflict
  diagnostics := found.diagnostics.insert code

theorem markIncomplete_eq (found : ChangeFindings) (code : ChangeDiagnostic)
    (h : code.marksIncomplete = true) : found.markIncomplete code = found.report code := by
  cases code <;> simp_all [markIncomplete, report, marksIncomplete,
    marksDeclarationConflict, marksRevisionConflict]

theorem markDeclarationConflict_eq (found : ChangeFindings) (code : ChangeDiagnostic)
    (h : code.marksDeclarationConflict = true) :
    found.markDeclarationConflict code = found.report code := by
  cases code <;> simp_all [markDeclarationConflict, report, marksIncomplete,
    marksDeclarationConflict, marksRevisionConflict]

theorem markRevisionConflict_eq (found : ChangeFindings) (code : ChangeDiagnostic)
    (h : code.marksRevisionConflict = true) :
    found.markRevisionConflict code = found.report code := by
  cases code <;> simp_all [markRevisionConflict, report, marksIncomplete,
    marksDeclarationConflict, marksRevisionConflict]

structure Coherent (found : ChangeFindings) : Prop where
  incomplete : found.incomplete = found.diagnostics.toList.any ChangeDiagnostic.marksIncomplete
  declarationConflict : found.declarationConflict =
    found.diagnostics.toList.any ChangeDiagnostic.marksDeclarationConflict
  revisionConflict : found.revisionConflict =
    found.diagnostics.toList.any ChangeDiagnostic.marksRevisionConflict

theorem any_insert (p : ChangeDiagnostic → Bool) (s : BTreeSet ChangeDiagnostic)
    (code : ChangeDiagnostic) : (s.insert code).toList.any p = (s.toList.any p || p code) := by
  rw [Bool.eq_iff_iff]
  simp only [List.any_eq_true, mem_toList_iff, mem_insert_iff, Bool.or_eq_true,
    or_and_right, exists_or, exists_eq_left]
  rw [or_comm]

theorem coherent_empty : Coherent {} := by
  constructor <;> rfl

variable {found : ChangeFindings}

theorem Coherent.report (h : found.Coherent) (code : ChangeDiagnostic) :
    (found.report code).Coherent := by
  constructor
  · simp only [ChangeFindings.report, any_insert, h.incomplete]
  · simp only [ChangeFindings.report, any_insert, h.declarationConflict]
  · simp only [ChangeFindings.report, any_insert, h.revisionConflict]

theorem mem_report {code d : ChangeDiagnostic} :
    d ∈ (found.report code).diagnostics ↔ d ∈ found.diagnostics ∨ d = code := by
  rw [ChangeFindings.report, mem_insert_iff, or_comm]

def reportIf (found : ChangeFindings) (check : Bool) (code : ChangeDiagnostic) : ChangeFindings :=
  if check then found.report code else found

theorem Coherent.reportIf (h : found.Coherent) (check : Bool) (code : ChangeDiagnostic) :
    (found.reportIf check code).Coherent := by
  cases check
  · exact h
  · exact h.report code

theorem mem_reportIf {check : Bool} {code d : ChangeDiagnostic} :
    d ∈ (found.reportIf check code).diagnostics ↔
      d ∈ found.diagnostics ∨ (d = code ∧ check = true) := by
  cases check <;> simp [reportIf, mem_report]

end ChangeFindings

namespace FoldInput

variable (input : FoldInput) (c : ChangeId)

def relationFault (entry : ChangeRevisionRelationClaimId × ChangeRelationFact) :
    Option ChangeDiagnostic :=
  if entry.2.changeId ≠ c || entry.1 ∈ input.relationWithdrawals then none
  else if input.artifactConflict entry.2.successor.revisionId ||
      input.artifactConflict entry.2.predecessor.revisionId then
    some .changeRelationRevisionArtifactConflict
  else if !(input.hasExactHash entry.2.successor && input.hasExactHash entry.2.predecessor) then
    some .changeRelationTargetMissingOrMismatched
  else if entry.2.successor.revisionId ∉ input.members c ||
      entry.2.predecessor.revisionId ∉ input.members c then
    some .changeRelationMembershipIncomplete
  else none

def relationEdge (entry : ChangeRevisionRelationClaimId × ChangeRelationFact) :
    Option (RevisionId × RevisionId) :=
  if (entry.2.changeId ≠ c || entry.1 ∈ input.relationWithdrawals) ||
      (input.relationFault c entry).isSome then none
  else some (entry.2.successor.revisionId, entry.2.predecessor.revisionId)

variable {d : ChangeDiagnostic}

theorem relationFault_eq_some :
    input.relationFault c (k, m) = some d ↔
      (m.changeId = c ∧ k ∉ input.relationWithdrawals) ∧
      ((input.artifactConflict m.successor.revisionId = true ∨
          input.artifactConflict m.predecessor.revisionId = true) ∧
          d = .changeRelationRevisionArtifactConflict ∨
        ¬ (input.artifactConflict m.successor.revisionId = true ∨
          input.artifactConflict m.predecessor.revisionId = true) ∧
        (¬ (input.hasExactHash m.successor = true ∧ input.hasExactHash m.predecessor = true) ∧
            d = .changeRelationTargetMissingOrMismatched ∨
          (input.hasExactHash m.successor = true ∧ input.hasExactHash m.predecessor = true) ∧
          ¬ (m.successor.revisionId ∈ input.members c ∧
            m.predecessor.revisionId ∈ input.members c) ∧
          d = .changeRelationMembershipIncomplete)) := by
  simp only [relationFault]
  split
  · grind
  split
  · grind
  split
  · grind
  split
  · grind
  · grind

theorem relationEdge_eq_some {edge : RevisionId × RevisionId} :
    input.relationEdge c (k, m) = some edge ↔
      (m.changeId = c ∧ k ∉ input.relationWithdrawals) ∧
      ¬ (input.artifactConflict m.successor.revisionId = true ∨
        input.artifactConflict m.predecessor.revisionId = true) ∧
      (input.hasExactHash m.successor = true ∧ input.hasExactHash m.predecessor = true) ∧
      (m.successor.revisionId ∈ input.members c ∧ m.predecessor.revisionId ∈ input.members c) ∧
      (m.successor.revisionId, m.predecessor.revisionId) = edge := by
  simp only [relationEdge, relationFault]
  split
  · grind
  · grind

theorem checkRelation_eq (state : ChangeFindings × Supersedes)
    (entry : ChangeRevisionRelationClaimId × ChangeRelationFact) :
    input.checkRelation c state entry =
      ((input.relationFault c entry).elim state.1 state.1.report,
        (input.relationEdge c entry).elim state.2 fun edge => state.2.insert edge) := by
  obtain ⟨found, supersedes⟩ := state
  obtain ⟨k, claim⟩ := entry
  simp only [checkRelation, relationEdge, relationFault]
  by_cases h1 : (claim.changeId ≠ c || k ∈ input.relationWithdrawals) = true
  · simp only [h1, if_true, Bool.true_or, Option.elim_none]
  by_cases h2 : (input.artifactConflict claim.successor.revisionId ||
      input.artifactConflict claim.predecessor.revisionId) = true
  · simp only [h1, h2, if_true, Option.isSome_some, Bool.or_true, Option.elim_none,
      Option.elim_some, Bool.false_eq_true, if_false,
      found.markRevisionConflict_eq .changeRelationRevisionArtifactConflict rfl]
  by_cases h3 : (!(input.hasExactHash claim.successor && input.hasExactHash claim.predecessor)) = true
  · simp only [h1, h2, h3, if_true, Option.isSome_some, Bool.or_true, Option.elim_none,
      Option.elim_some, Bool.false_eq_true, if_false,
      found.markIncomplete_eq .changeRelationTargetMissingOrMismatched rfl]
  by_cases h4 : (claim.successor.revisionId ∉ input.members c ||
      claim.predecessor.revisionId ∉ input.members c) = true
  · simp only [h1, h2, h3, h4, if_true, Option.isSome_some, Bool.or_true, Option.elim_none,
      Option.elim_some, Bool.false_eq_true, if_false,
      found.markIncomplete_eq .changeRelationMembershipIncomplete rfl]
  · simp only [h1, h2, h3, h4, Option.isSome_none, Bool.or_false, Option.elim_none,
      Option.elim_some, Bool.false_eq_true, if_false]

variable (found : ChangeFindings)

theorem checkRelations_supersedes {edge : RevisionId × RevisionId} :
    edge ∈ (input.checkRelations c found).2 ↔
      ∃ entry ∈ input.relations.toList, input.relationEdge c entry = some edge := by
  have h := mem_foldl (fun (s : ChangeFindings × Supersedes) e => e ∈ s.2)
    (input.checkRelation c) (input.relationEdge c) ?_ input.relations.toList (found, ∅) edge
  · simpa [checkRelations] using h
  · intro state entry e
    rw [checkRelation_eq]
    cases input.relationEdge c entry with
    | none => simp
    | some e' => simp [or_comm, eq_comm]

theorem checkRelations_diagnostics :
    d ∈ (input.checkRelations c found).1.diagnostics ↔
      d ∈ found.diagnostics ∨ ∃ entry ∈ input.relations.toList, input.relationFault c entry = some d := by
  refine mem_foldl (fun (s : ChangeFindings × Supersedes) d => d ∈ s.1.diagnostics)
    (input.checkRelation c) (input.relationFault c) ?_ input.relations.toList (found, ∅) d
  intro state entry e
  rw [checkRelation_eq]
  cases input.relationFault c entry with
  | none => simp
  | some d' => simp [mem_report, eq_comm]

theorem checkRelations_coherent {found : ChangeFindings} (h : found.Coherent) :
    (input.checkRelations c found).1.Coherent := by
  refine List.foldlRecOn (motive := fun s : ChangeFindings × Supersedes => s.1.Coherent) _ _ h
    fun s hs entry _ => ?_
  rw [checkRelation_eq]
  cases input.relationFault c entry with
  | none => exact hs
  | some d => exact hs.report d

theorem checkMembers_eq :
    input.checkMembers c found =
      ((found.reportIf (input.membershipRevisionMissing c) .changeMembershipRevisionMissing).reportIf
        (input.members c).isEmpty .changeMembershipEmpty).reportIf
        ((input.members c).toList.any input.artifactConflict)
        .changeMemberRevisionArtifactConflict := by
  simp only [checkMembers, reportIf,
    markIncomplete_eq _ .changeMembershipRevisionMissing rfl,
    markIncomplete_eq _ .changeMembershipEmpty rfl,
    markRevisionConflict_eq _ .changeMemberRevisionArtifactConflict rfl]

theorem checkMembers_coherent {found : ChangeFindings} (h : found.Coherent) :
    (input.checkMembers c found).Coherent := by
  rw [checkMembers_eq]
  exact ((h.reportIf _ _).reportIf _ _).reportIf _ _

theorem checkMembers_diagnostics :
    d ∈ (input.checkMembers c found).diagnostics ↔
      ((d ∈ found.diagnostics ∨
      (d = .changeMembershipRevisionMissing ∧ input.membershipRevisionMissing c = true)) ∨
      (d = .changeMembershipEmpty ∧ ∀ r, r ∉ input.members c)) ∨
      (d = .changeMemberRevisionArtifactConflict ∧
        ∃ r ∈ input.members c, input.artifactConflict r = true) := by
  have hempty : (input.members c).isEmpty = true ↔ ∀ r, r ∉ input.members c := by
    rw [ExtTreeSet.isEmpty_iff, ExtTreeSet.eq_empty_iff_forall_not_mem]
  have hany : ((input.members c).toList.any input.artifactConflict) = true ↔
      ∃ r ∈ input.members c, input.artifactConflict r = true := by
    simp
  rw [checkMembers_eq, mem_reportIf, mem_reportIf,
    mem_reportIf, hempty, hany]

end FoldInput

end Pointbreak
