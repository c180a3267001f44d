import Pointbreak.Projection.Change

/-!
# Projection.ChangeFold

What the fold leaves in each table, in terms of the facts alone. Each table is a keyed log of its
own kind of fact, with its own rule for two facts under one key.
-/

namespace Pointbreak

open Std KeyedLog ChangeProjectionFact

namespace ChangeProjectionFact

def revisionEntry : ChangeProjectionFact → Option (RevisionId × Text)
  | .revision r hash => some (r, hash)
  | _ => none

def declarationEntry : ChangeProjectionFact → Option (ChangeId × ChangeIdentityDescriptorV1)
  | .declaration c descriptor => some (c, descriptor)
  | _ => none

def membershipEntry : ChangeProjectionFact → Option (ChangeMembershipClaimId × ChangeMembershipFact)
  | .membershipAsserted claim c r => some (claim, ⟨c, r⟩)
  | _ => none

def membershipWithdrawal : ChangeProjectionFact → Option ChangeMembershipClaimId
  | .membershipWithdrawn claim => some claim
  | _ => none

def relationEntry :
    ChangeProjectionFact → Option (ChangeRevisionRelationClaimId × ChangeRelationFact)
  | .relationAsserted claim c successor predecessor => some (claim, ⟨c, successor, predecessor⟩)
  | _ => none

def relationWithdrawal : ChangeProjectionFact → Option ChangeRevisionRelationClaimId
  | .relationWithdrawn claim => some claim
  | _ => none

def linkEntry : ChangeProjectionFact → Option (ChangeLinkClaimId × ChangeLinkView)
  | .linkAsserted claim left right relation => some (claim, ⟨left, right, relation⟩)
  | _ => none

def assessmentEntry :
    ChangeProjectionFact → Option ((RevisionId × AssessmentId) × (EventId × ChangeAssessmentFact))
  | .assessment source r id verdict replaces =>
    some ((r, id), (source, ⟨id, verdict, replaces⟩))
  | _ => none

def requestEntry : ChangeProjectionFact → Option (InputRequestId × RevisionId)
  | .operativeRequest q r => some (q, r)
  | _ => none

def responseEntry : ChangeProjectionFact → Option (InputRequestId × Unit)
  | .requestResponse q => some (q, ())
  | _ => none

def portEntry : ChangeProjectionFact → Option ReviewFactPortedPayload
  | .factPort port => some port
  | _ => none

section Inversion

variable {f : ChangeProjectionFact}

@[simp] theorem revisionEntry_eq_some {e : RevisionId × Text} :
    f.revisionEntry = some e ↔ f = .revision e.1 e.2 := by
  cases f <;> simp [revisionEntry, Prod.ext_iff, eq_comm]

@[simp] theorem declarationEntry_eq_some {e : ChangeId × ChangeIdentityDescriptorV1} :
    f.declarationEntry = some e ↔ f = .declaration e.1 e.2 := by
  cases f <;> simp [declarationEntry, Prod.ext_iff, eq_comm]

@[simp] theorem membershipEntry_eq_some {k : ChangeMembershipClaimId} {m : ChangeMembershipFact} :
    f.membershipEntry = some (k, m) ↔ f = .membershipAsserted k m.changeId m.revisionId := by
  cases m
  cases f <;> simp [membershipEntry]

@[simp] theorem membershipWithdrawal_eq_some {k : ChangeMembershipClaimId} :
    f.membershipWithdrawal = some k ↔ f = .membershipWithdrawn k := by
  cases f <;> simp [membershipWithdrawal]

@[simp] theorem relationEntry_eq_some {k : ChangeRevisionRelationClaimId}
    {m : ChangeRelationFact} :
    f.relationEntry = some (k, m) ↔ f = .relationAsserted k m.changeId m.successor m.predecessor := by
  cases m
  cases f <;> simp [relationEntry]

@[simp] theorem relationWithdrawal_eq_some {k : ChangeRevisionRelationClaimId} :
    f.relationWithdrawal = some k ↔ f = .relationWithdrawn k := by
  cases f <;> simp [relationWithdrawal]

@[simp] theorem linkEntry_eq_some {k : ChangeLinkClaimId} {m : ChangeLinkView} :
    f.linkEntry = some (k, m) ↔
      f = .linkAsserted k m.leftChangeId m.rightChangeId m.relation := by
  cases m
  cases f <;> simp [linkEntry]

theorem assessmentEntry_eq_some {r : RevisionId} {a : AssessmentId}
    {v : EventId × ChangeAssessmentFact} :
    f.assessmentEntry = some ((r, a), v) ↔
      f = .assessment v.1 r a v.2.assessment v.2.replaces ∧ v.2.assessmentId = a := by
  obtain ⟨source, id, verdict, replaces⟩ := v
  cases f with
  | assessment source' r' a' verdict' replaces' =>
    simp only [assessmentEntry, Option.some.injEq, Prod.mk.injEq, ChangeAssessmentFact.mk.injEq,
      ChangeProjectionFact.assessment.injEq]
    grind
  | _ => simp [assessmentEntry]

@[simp] theorem requestEntry_eq_some {e : InputRequestId × RevisionId} :
    f.requestEntry = some e ↔ f = .operativeRequest e.1 e.2 := by
  cases f <;> simp [requestEntry, Prod.ext_iff, eq_comm]

@[simp] theorem responseEntry_eq_some {e : InputRequestId × Unit} :
    f.responseEntry = some e ↔ f = .requestResponse e.1 := by
  cases f <;> simp [responseEntry, Prod.ext_iff, eq_comm]

@[simp] theorem portEntry_eq_some {port : ReviewFactPortedPayload} :
    f.portEntry = some port ↔ f = .factPort port := by
  cases f <;> simp [portEntry]

end Inversion

end ChangeProjectionFact

section Tables

variable (F : List ChangeProjectionFact)

theorem foldFacts_revisions (r : RevisionId) :
    (foldFacts F).revisions[r]? =
      if entries ChangeProjectionFact.revisionEntry r F = [] then none
      else some (BTreeSet.collect (entries ChangeProjectionFact.revisionEntry r F)) := by
  rw [← foldl_collect]
  refine get_foldl_alter FoldInput.revisions (fun old h => (old.getD ∅).insert h) ?_ F {} r
  intro s f
  cases f <;> rfl

theorem foldFacts_declarations (c : ChangeId) :
    (foldFacts F).declarations[c]? =
      if entries ChangeProjectionFact.declarationEntry c F = [] then none
      else some (entries ChangeProjectionFact.declarationEntry c F) := by
  rw [← foldl_push]
  refine get_foldl_alter FoldInput.declarations (fun old d => old.getD [] ++ [d]) ?_ F {} c
  intro s f
  cases f <;> rfl

theorem foldFacts_memberships (k : ChangeMembershipClaimId) :
    (foldFacts F).memberships[k]? =
      (entries ChangeProjectionFact.membershipEntry k F).getLast? := by
  rw [← foldl_last]
  refine get_foldl_put FoldInput.memberships ?_ F {} k
  intro s f
  cases f <;> rfl

theorem foldFacts_relations (k : ChangeRevisionRelationClaimId) :
    (foldFacts F).relations[k]? = (entries ChangeProjectionFact.relationEntry k F).getLast? := by
  rw [← foldl_last]
  refine get_foldl_put FoldInput.relations ?_ F {} k
  intro s f
  cases f <;> rfl

theorem foldFacts_links (k : ChangeLinkClaimId) :
    (foldFacts F).links[k]? = (entries ChangeProjectionFact.linkEntry k F).getLast? := by
  rw [← foldl_last]
  refine get_foldl_put FoldInput.links ?_ F {} k
  intro s f
  cases f <;> rfl

theorem foldFacts_membershipWithdrawals (k : ChangeMembershipClaimId) :
    k ∈ (foldFacts F).membershipWithdrawals ↔ .membershipWithdrawn k ∈ F := by
  have h := mem_foldl (fun (s : FoldInput) k => k ∈ s.membershipWithdrawals) FoldInput.step
    membershipWithdrawal ?_ F {} k
  · simpa [foldFacts] using h
  · intro s f k
    cases f <;> simp [FoldInput.step, membershipWithdrawal]
    grind

theorem foldFacts_relationWithdrawals (k : ChangeRevisionRelationClaimId) :
    k ∈ (foldFacts F).relationWithdrawals ↔ .relationWithdrawn k ∈ F := by
  have h := mem_foldl (fun (s : FoldInput) k => k ∈ s.relationWithdrawals) FoldInput.step
    relationWithdrawal ?_ F {} k
  · simpa [foldFacts] using h
  · intro s f k
    cases f <;> simp [FoldInput.step, relationWithdrawal]
    grind

theorem foldFacts_factPorts :
    (foldFacts F).factPorts = F.filterMap ChangeProjectionFact.portEntry := by
  refine list_foldl FoldInput.factPorts FoldInput.step portEntry ?_ F {}
  intro s f
  cases f <;> simp [FoldInput.step, portEntry]

/-- The record kept for one assessment id on one Revision. -/
def assessmentRecord (r : RevisionId) (a : AssessmentId) : Option (EventId × ChangeAssessmentFact) :=
  leastOf compare (entries ChangeProjectionFact.assessmentEntry (r, a) F)

theorem get_recordAssessment {records : BTreeMap AssessmentId (EventId × ChangeAssessmentFact)}
    {source : EventId} {candidate : ChangeAssessmentFact} {a : AssessmentId} :
    (recordAssessment records source candidate)[a]? =
      if candidate.assessmentId = a then some (least compare records[a]? (source, candidate))
      else records[a]? := by
  rw [recordAssessment, BTreeMap.get_alter]
  split
  · rename_i h
    subst h
    cases records[candidate.assessmentId]? <;> simp [least]
  · rfl

theorem foldFacts_assessments (r : RevisionId) (a : AssessmentId) :
    (foldFacts F).assessments[r]?.bind (fun records => records[a]?) = assessmentRecord F r a := by
  refine get_foldl (fun (s : FoldInput) (k : RevisionId × AssessmentId) =>
    s.assessments[k.1]?.bind fun records => records[k.2]?) FoldInput.step (least compare) ?_ F {}
    (r, a)
  intro s f k
  cases f with
  | assessment source r' a' verdict replaces =>
    obtain ⟨r, a⟩ := k
    simp only [FoldInput.step, assessmentEntry, BTreeMap.get_alter,
      Prod.mk.injEq]
    by_cases hr : r' = r
    · subst hr
      simp only [if_true, Option.bind_some, get_recordAssessment, true_and]
      cases s.assessments[r']? <;> simp
    · simp [hr]
  | _ => simp [FoldInput.step, assessmentEntry]

end Tables

end Pointbreak
