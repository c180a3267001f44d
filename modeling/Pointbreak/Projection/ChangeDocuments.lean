import Pointbreak.Projection.ChangeAgreement

/-!
# Projection.ChangeDocuments

The provenance of Change claims: who supports and who withdraws each membership and relation
claim, which proposed Revisions have an exact reference, and the stamp that covers all of it
together with the projection of the Changes.
-/

namespace Pointbreak

open Std KeyedLog Result

structure ChangeClaimSupportV1 where
  eventId : EventId
  actorId : ActorId
  trackId : Option TrackId

namespace ChangeClaimSupportV1

def cmp : ChangeClaimSupportV1 → ChangeClaimSupportV1 → Ordering :=
  compareLex (compareOn eventId) (compareLex (compareOn actorId) (compareOn trackId))

instance : Ord ChangeClaimSupportV1 := ⟨cmp⟩

instance : TransOrd ChangeClaimSupportV1 :=
  inferInstanceAs (TransCmp (compareLex (compareOn eventId)
    (compareLex (compareOn actorId) (compareOn trackId))))

instance : LawfulEqOrd ChangeClaimSupportV1 where
  eq_of_compare {a b} h := by
    have h' : ((compare a.eventId b.eventId).then ((compare a.actorId b.actorId).then
        (compare a.trackId b.trackId))) = .eq := h
    simp only [Ordering.then_eq_eq, LawfulEqOrd.compare_eq_iff_eq] at h'
    cases a
    cases b
    simp_all

def toValue (support : ChangeClaimSupportV1) : Json :=
  .obj ([(text "eventId", support.eventId.toValue), (text "actorId", support.actorId.toValue)] ++
    support.trackId.toList.map fun track => (text "trackId", track.toValue))

end ChangeClaimSupportV1

structure ChangeMembershipClaimViewV1 where
  claimId : ChangeMembershipClaimId
  changeId : ChangeId
  revisionId : RevisionId
  supports : List ChangeClaimSupportV1
  withdrawals : List ChangeClaimSupportV1
  active : Bool
  diagnostics : List Text

structure ChangeRelationClaimViewV1 where
  claimId : ChangeRevisionRelationClaimId
  changeId : ChangeId
  successor : RevisionRefV1
  predecessor : RevisionRefV1
  supports : List ChangeClaimSupportV1
  withdrawals : List ChangeClaimSupportV1
  active : Bool
  diagnostics : List Text

inductive RevisionRefUnavailableReasonV1 where
  | invalidRevisionId | invalidObjectArtifactContentHash

def RevisionRefUnavailableReasonV1.asStr : RevisionRefUnavailableReasonV1 → Text
  | .invalidRevisionId => text "invalid_revision_id"
  | .invalidObjectArtifactContentHash => text "invalid_object_artifact_content_hash"

structure ChangeDocumentProjectionV1 where
  revisionRefs : BTreeMap RevisionId (List RevisionRefV1)
  unavailableRevisionRefs : BTreeMap RevisionId RevisionRefUnavailableReasonV1
  membershipClaims : List ChangeMembershipClaimViewV1
  relationClaims : List ChangeRelationClaimViewV1
  diagnostics : List Text
  projectionStamp : Text

def ChangeLifecycleV1.asStr : ChangeLifecycleV1 → Text
  | .incomplete => text "incomplete"
  | .conflicted => text "conflicted"
  | .inProgress => text "in_progress"
  | .accepted => text "accepted"

def ChangeTopologyV1.asStr : ChangeTopologyV1 → Text
  | .initial => text "initial"
  | .replacement => text "replacement"
  | .replacementDivergent => text "replacement_divergent"
  | .consolidation => text "consolidation"
  | .parallelCurrent => text "parallel_current"
  | .mixed => text "mixed"
  | .incomplete => text "incomplete"
  | .cycleConflicted => text "cycle_conflicted"

def idSetValue {kind : IdKind} (s : BTreeSet (Ident kind)) : Json :=
  .arr (s.toList.map Ident.toValue)

/-- A pair of ids is written as an array of two. -/
def supersedesValue (supersedes : Supersedes) : Json :=
  .arr (supersedes.toList.map fun edge => .arr [edge.1.toValue, edge.2.toValue])

def idMapValue {kind : IdKind} {α : Type} (value : α → Json) (m : BTreeMap (Ident kind) α) : Json :=
  .obj (m.toList.map fun entry => (entry.1.asStr, value entry.2))

def diagnosticsValue (diagnostics : List ChangeDiagnostic) : Json :=
  .arr (diagnostics.map fun d => .str d.asStr)

def ChangeView.toValue (view : ChangeView) : Json :=
  .obj [(text "changeId", view.changeId.toValue),
    (text "members", idSetValue view.members),
    (text "currentRevisions", idSetValue view.currentRevisions),
    (text "supersedes", supersedesValue view.supersedes),
    (text "topology", .str view.topology.asStr),
    (text "lifecycle", .str view.lifecycle.asStr),
    (text "qualifiedCurrentRevisions", idSetValue view.qualifiedCurrentRevisions),
    (text "operativeObligations", idSetValue view.operativeObligations),
    (text "diagnostics", diagnosticsValue view.diagnostics)]

def ChangeLinkView.toValue (link : ChangeLinkView) : Json :=
  .obj [(text "leftChangeId", link.leftChangeId.toValue),
    (text "rightChangeId", link.rightChangeId.toValue),
    (text "relation", link.relation.toValue)]

def ChangeProjection.toValue (projection : ChangeProjection) : Json :=
  .obj [(text "changes", idMapValue ChangeView.toValue projection.changes),
    (text "links", .arr (projection.links.map ChangeLinkView.toValue))]

def ChangeMembershipClaimViewV1.toValue (claim : ChangeMembershipClaimViewV1) : Json :=
  .obj [(text "claimId", claim.claimId.toValue), (text "changeId", claim.changeId.toValue),
    (text "revisionId", claim.revisionId.toValue),
    (text "supports", .arr (claim.supports.map ChangeClaimSupportV1.toValue)),
    (text "withdrawals", .arr (claim.withdrawals.map ChangeClaimSupportV1.toValue)),
    (text "active", .bool claim.active),
    (text "diagnostics", .arr (claim.diagnostics.map Json.str))]

def ChangeRelationClaimViewV1.toValue (claim : ChangeRelationClaimViewV1) : Json :=
  .obj [(text "claimId", claim.claimId.toValue), (text "changeId", claim.changeId.toValue),
    (text "successor", claim.successor.toValue), (text "predecessor", claim.predecessor.toValue),
    (text "supports", .arr (claim.supports.map ChangeClaimSupportV1.toValue)),
    (text "withdrawals", .arr (claim.withdrawals.map ChangeClaimSupportV1.toValue)),
    (text "active", .bool claim.active),
    (text "diagnostics", .arr (claim.diagnostics.map Json.str))]

/-- The JSON the stamp is the hash of. -/
def stampMaterial (semantic : ChangeProjection) (projection : ChangeDocumentProjectionV1) : Json :=
  .obj [(text "semantic", semantic.toValue),
    (text "revisionRefs",
      idMapValue (fun refs => .arr (refs.map RevisionRefV1.toValue)) projection.revisionRefs),
    (text "unavailableRevisionRefs",
      idMapValue (fun reason => .str reason.asStr) projection.unavailableRevisionRefs),
    (text "membershipClaims",
      .arr (projection.membershipClaims.map ChangeMembershipClaimViewV1.toValue)),
    (text "relationClaims",
      .arr (projection.relationClaims.map ChangeRelationClaimViewV1.toValue)),
    (text "diagnostics", .arr (projection.diagnostics.map Json.str))]

def changeDocumentProjectionStamp (sha : Sha256) (semantic : ChangeProjection)
    (projection : ChangeDocumentProjectionV1) : Text :=
  sha256JsonPrefixed sha (stampMaterial semantic projection)

structure ChangeDocumentProjectionFact where
  change : ChangeProjectionFact
  support : ChangeClaimSupportV1

structure MembershipProvenance where
  changeId : ChangeId
  revisionId : RevisionId
  supports : BTreeSet ChangeClaimSupportV1

structure RelationProvenance where
  changeId : ChangeId
  successor : RevisionRefV1
  predecessor : RevisionRefV1
  supports : BTreeSet ChangeClaimSupportV1

structure ClaimProvenanceInput where
  revisions : BTreeMap RevisionId (BTreeSet Text) := ∅
  memberships : BTreeMap ChangeMembershipClaimId MembershipProvenance := ∅
  membershipWithdrawals : BTreeMap ChangeMembershipClaimId (BTreeSet ChangeClaimSupportV1) := ∅
  relations : BTreeMap ChangeRevisionRelationClaimId RelationProvenance := ∅
  relationWithdrawals : BTreeMap ChangeRevisionRelationClaimId (BTreeSet ChangeClaimSupportV1) := ∅

/-- The coordinates of the first carrier stay; its supports are collected. -/
def ClaimProvenanceInput.step (input : ClaimProvenanceInput) (fact : ChangeDocumentProjectionFact) :
    ClaimProvenanceInput :=
  match fact.change with
  | .revision r hash =>
    { input with
      revisions := input.revisions.alter r fun hashes => some ((hashes.getD ∅).insert hash) }
  | .membershipAsserted claim c r =>
    { input with
      memberships := input.memberships.alter claim fun entry =>
        let entry := entry.getD ⟨c, r, ∅⟩
        some { entry with supports := entry.supports.insert fact.support } }
  | .membershipWithdrawn claim =>
    { input with
      membershipWithdrawals := input.membershipWithdrawals.alter claim fun supports =>
        some ((supports.getD ∅).insert fact.support) }
  | .relationAsserted claim c successor predecessor =>
    { input with
      relations := input.relations.alter claim fun entry =>
        let entry := entry.getD ⟨c, successor, predecessor, ∅⟩
        some { entry with supports := entry.supports.insert fact.support } }
  | .relationWithdrawn claim =>
    { input with
      relationWithdrawals := input.relationWithdrawals.alter claim fun supports =>
        some ((supports.getD ∅).insert fact.support) }
  | _ => input

def claimProvenance (facts : List ChangeDocumentProjectionFact) : ClaimProvenanceInput :=
  facts.foldl ClaimProvenanceInput.step {}

def claimDiagnostics (supports withdrawals : BTreeSet ChangeClaimSupportV1) : List Text :=
  let diagnostics : BTreeSet Text :=
    if 1 < supports.size then BTreeSet.collect [text "duplicate_claim_support"] else ∅
  let diagnostics :=
    if !withdrawals.isEmpty && withdrawals.toList.any (fun withdrawal =>
        !supports.toList.any fun support => support.actorId = withdrawal.actorId) then
      diagnostics.insert (text "cross_actor_withdrawal")
    else diagnostics
  diagnostics.toList

/-- The exact references of a proposed Revision, or why it has none. -/
def revisionRefsOf (r : RevisionId) (hashes : BTreeSet Text) :
    Except RevisionRefUnavailableReasonV1 (List RevisionRefV1) :=
  if !r.hasRevPrefix then .error .invalidRevisionId
  else (hashes.toList.mapM (RevisionRefV1.new r)).mapError fun _ =>
    .invalidObjectArtifactContentHash

def revisionRefStep
    (maps : BTreeMap RevisionId (List RevisionRefV1) ×
      BTreeMap RevisionId RevisionRefUnavailableReasonV1)
    (entry : RevisionId × BTreeSet Text) :
    BTreeMap RevisionId (List RevisionRefV1) ×
      BTreeMap RevisionId RevisionRefUnavailableReasonV1 :=
  match revisionRefsOf entry.1 entry.2 with
  | .ok refs => (maps.1.insert entry.1 refs, maps.2)
  | .error reason => (maps.1, maps.2.insert entry.1 reason)

def unavailableDiagnostic (entry : RevisionId × RevisionRefUnavailableReasonV1) : Text :=
  text "change_revision_ref_unavailable:" ++ entry.1.asStr ++ text ":" ++ entry.2.asStr

def ClaimProvenanceInput.document (input : ClaimProvenanceInput) (sha : Sha256)
    (semantic : ChangeProjection) : ChangeDocumentProjectionV1 :=
  let (revisionRefs, unavailableRevisionRefs) :=
    input.revisions.toList.foldl revisionRefStep (∅, ∅)
  let diagnostics := BTreeSet.collect
    (unavailableRevisionRefs.toList.map unavailableDiagnostic ++
    ((input.membershipWithdrawals.keys.filter fun claim => claim ∉ input.memberships).map
      fun claim => text "change_membership_withdrawal_claim_missing:" ++ claim.asStr) ++
    ((input.relationWithdrawals.keys.filter fun claim => claim ∉ input.relations).map
      fun claim => text "change_relation_withdrawal_claim_missing:" ++ claim.asStr))
  let membershipClaims := input.memberships.toList.map fun (claim, entry) =>
    let withdrawals := input.membershipWithdrawals[claim]?.getD ∅
    { claimId := claim, changeId := entry.changeId, revisionId := entry.revisionId,
      diagnostics := claimDiagnostics entry.supports withdrawals,
      active := withdrawals.isEmpty,
      supports := entry.supports.toList, withdrawals := withdrawals.toList }
  let relationClaims := input.relations.toList.map fun (claim, entry) =>
    let withdrawals := input.relationWithdrawals[claim]?.getD ∅
    { claimId := claim, changeId := entry.changeId, successor := entry.successor,
      predecessor := entry.predecessor,
      diagnostics := claimDiagnostics entry.supports withdrawals,
      active := withdrawals.isEmpty,
      supports := entry.supports.toList, withdrawals := withdrawals.toList }
  let projection : ChangeDocumentProjectionV1 :=
    { revisionRefs, unavailableRevisionRefs, membershipClaims, relationClaims,
      diagnostics := diagnostics.toList, projectionStamp := [] }
  { projection with projectionStamp := changeDocumentProjectionStamp sha semantic projection }

def projectChangeDocumentsFromFacts (sha : Sha256) (facts : List ChangeDocumentProjectionFact) :
    Result ChangeDocumentProjectionV1 := do
  let semantic ← projectChangesFromFacts sha (facts.map (·.change))
  .ok ((claimProvenance facts).document sha semantic)

def extractDocumentFacts {V : Type} (rt : Runtime V) :
    List (ShoreEvent V) → Result (List ChangeDocumentProjectionFact)
  | [] => .ok []
  | event :: events => do
    let fact ← extractChangeProjectionFact rt event
    let facts ← extractDocumentFacts rt events
    .ok (fact.toList.map (fun change =>
      ⟨change, event.eventId, event.writer.actorId, event.target.trackId⟩) ++ facts)

def projectChangeDocuments {V : Type} (rt : Runtime V) (events : List (ShoreEvent V)) :
    Result ChangeDocumentProjectionV1 := do
  let facts ← extractDocumentFacts rt events
  projectChangeDocumentsFromFacts rt.sha256 facts

/-! ## What the documents depend on

The provenance tables collect or keep the first, so with claims that agree they do not depend on
the order of the facts; the rest of the document is computed from them and from the projection. -/

section Order

variable {D D' : List ChangeDocumentProjectionFact}

namespace ChangeDocumentProjectionFact

def membershipEntry (fact : ChangeDocumentProjectionFact) :
    Option (ChangeMembershipClaimId × ChangeMembershipFact × ChangeClaimSupportV1) :=
  fact.change.membershipEntry.map fun entry => (entry.1, entry.2, fact.support)

def membershipWithdrawal (fact : ChangeDocumentProjectionFact) :
    Option (ChangeMembershipClaimId × ChangeClaimSupportV1) :=
  fact.change.membershipWithdrawal.map fun claim => (claim, fact.support)

def relationEntry (fact : ChangeDocumentProjectionFact) :
    Option (ChangeRevisionRelationClaimId × ChangeRelationFact × ChangeClaimSupportV1) :=
  fact.change.relationEntry.map fun entry => (entry.1, entry.2, fact.support)

def relationWithdrawal (fact : ChangeDocumentProjectionFact) :
    Option (ChangeRevisionRelationClaimId × ChangeClaimSupportV1) :=
  fact.change.relationWithdrawal.map fun claim => (claim, fact.support)

end ChangeDocumentProjectionFact

section Perm

variable (hp : D.Perm D')
include hp

theorem collected_perm {κ α : Type} [Ord κ] [TransOrd κ] [LawfulEqOrd κ] [DecidableEq κ] [Ord α]
    [TransOrd α] [LawfulEqOrd α] (sel : ChangeDocumentProjectionFact → Option (κ × α))
    (table : ClaimProvenanceInput → BTreeMap κ (BTreeSet α))
    (hstep : ∀ s f, table (s.step f) =
      (sel f).elim (table s) fun kv => (table s).addTo kv.1 kv.2) :
    table (claimProvenance D) = table (claimProvenance D') := by
  refine foldl_alter_perm sel table (fun old v => (old.getD ∅).insert v) hstep hp {} ?_
  intro k v _ w _ old
  exact BTreeSet.insert_comm _ v w

theorem claimProvenance_collected :
    (claimProvenance D).revisions = (claimProvenance D').revisions ∧
    (claimProvenance D).membershipWithdrawals = (claimProvenance D').membershipWithdrawals ∧
    (claimProvenance D).relationWithdrawals = (claimProvenance D').relationWithdrawals := by
  refine ⟨collected_perm hp (fun f => f.change.revisionEntry) (·.revisions) ?_,
    collected_perm hp (·.membershipWithdrawal) (·.membershipWithdrawals) ?_,
    collected_perm hp (·.relationWithdrawal) (·.relationWithdrawals) ?_⟩
  all_goals
    rintro s ⟨change, support⟩
    cases change <;> rfl

theorem claimProvenance_memberships
    (h : Functional ChangeProjectionFact.membershipEntry (D.map (·.change))) :
    (claimProvenance D).memberships = (claimProvenance D').memberships := by
  refine foldl_alter_perm (·.membershipEntry) ClaimProvenanceInput.memberships
    (fun old v =>
      { old.getD ⟨v.1.changeId, v.1.revisionId, ∅⟩ with
        supports := (old.getD ⟨v.1.changeId, v.1.revisionId, ∅⟩).supports.insert v.2 }) ?_ hp {} ?_
  · rintro s ⟨change, support⟩
    cases change <;> rfl
  · intro k v hv w hw old
    have heq : v.1 = w.1 := h.labelled hv hw
    cases old <;> simp [heq, BTreeSet.insert_comm]

theorem claimProvenance_relations
    (h : Functional ChangeProjectionFact.relationEntry (D.map (·.change))) :
    (claimProvenance D).relations = (claimProvenance D').relations := by
  refine foldl_alter_perm (·.relationEntry) ClaimProvenanceInput.relations
    (fun old v =>
      { old.getD ⟨v.1.changeId, v.1.successor, v.1.predecessor, ∅⟩ with
        supports := (old.getD ⟨v.1.changeId, v.1.successor, v.1.predecessor, ∅⟩).supports.insert
          v.2 }) ?_ hp {} ?_
  · rintro s ⟨change, support⟩
    cases change <;> rfl
  · intro k v hv w hw old
    have heq : v.1 = w.1 := h.labelled hv hw
    cases old <;> simp [heq, BTreeSet.insert_comm]

end Perm

theorem claimProvenance_perm (hp : D.Perm D') (h : ClaimsAgree (D.map (·.change))) :
    claimProvenance D = claimProvenance D' := by
  obtain ⟨hrev, hmw, hrw⟩ := claimProvenance_collected hp
  have hm := claimProvenance_memberships hp h.membership
  have hr := claimProvenance_relations hp h.relation
  cases hD : claimProvenance D
  cases hD' : claimProvenance D'
  simp_all

end Order

variable {V : Type} {rt : Runtime V} {E : List (ShoreEvent V)}

variable (rt) in
def documentFactOf (e : ShoreEvent V) : Option ChangeDocumentProjectionFact :=
  (factOf rt e).map fun change => ⟨change, e.eventId, e.writer.actorId, e.target.trackId⟩

variable (rt) in
def documentFacts (E : List (ShoreEvent V)) : List ChangeDocumentProjectionFact :=
  E.filterMap (documentFactOf rt)

theorem map_change_documentFacts : (documentFacts rt E).map (·.change) = facts rt E := by
  rw [documentFacts, List.map_filterMap, facts]
  congr 1
  funext e
  rw [documentFactOf]
  cases factOf rt e <;> rfl

theorem extractDocumentFacts_eq_ok {D : List ChangeDocumentProjectionFact} :
    extractDocumentFacts rt E = .ok D ↔ Readable rt E ∧ documentFacts rt E = D :=
  gather_eq_ok rfl fun _ _ => rfl

theorem projectChangeDocuments_eq_ok {P : ChangeDocumentProjectionV1} :
    projectChangeDocuments rt E = .ok P ↔ ∃ semantic, projectChanges rt E = .ok semantic ∧
      (claimProvenance (documentFacts rt E)).document rt.sha256 semantic = P := by
  simp [projectChangeDocuments, extractDocumentFacts_eq_ok, projectChangeDocumentsFromFacts,
    bind_eq_ok, projectChanges_eq_ok, and_assoc, map_change_documentFacts]

theorem projectChangeDocuments_perm {E' : List (ShoreEvent V)} (hp : E.Perm E')
    (h : ClaimsAgree (facts rt E))
    (heq : (projectChanges rt E).toOption = (projectChanges rt E').toOption) :
    (projectChangeDocuments rt E).toOption = (projectChangeDocuments rt E').toOption := by
  have hD : claimProvenance (documentFacts rt E) = claimProvenance (documentFacts rt E') :=
    claimProvenance_perm (hp.filterMap _) (by rwa [map_change_documentFacts])
  apply Option.ext
  intro P
  rw [toOption_eq_some, toOption_eq_some, projectChangeDocuments_eq_ok,
    projectChangeDocuments_eq_ok, hD]
  simp only [← toOption_eq_some, heq]

end Pointbreak
