import Pointbreak.Event.Envelope

/-!
# Projection.Change

The Change fold. Every event contributes at most one fact; the facts are folded into eleven
keyed tables, each with its own rule for two facts under one key; the view of each Change is then
computed from the tables.
-/

namespace Pointbreak

open Std

inductive ChangeLifecycleV1 where
  | incomplete | conflicted | inProgress | accepted
deriving DecidableEq

inductive ChangeTopologyV1 where
  | initial | replacement | replacementDivergent | consolidation | parallelCurrent | mixed
  | incomplete | cycleConflicted
deriving DecidableEq

/-- The diagnostic codes of a Change, in the order of their texts. -/
inductive ChangeDiagnostic where
  | changeDeclarationConflict
  | changeDeclarationIdentityMismatch
  | changeDeclarationMissing
  | changeMemberRevisionArtifactConflict
  | changeMembershipEmpty
  | changeMembershipRevisionMissing
  | changeRelationMembershipIncomplete
  | changeRelationRevisionArtifactConflict
  | changeRelationTargetMissingOrMismatched
  | operativeRequestResponseAmbiguous
deriving DecidableEq

namespace ChangeDiagnostic

def asStr : ChangeDiagnostic → Text
  | changeDeclarationConflict => text "change_declaration_conflict"
  | changeDeclarationIdentityMismatch => text "change_declaration_identity_mismatch"
  | changeDeclarationMissing => text "change_declaration_missing"
  | changeMemberRevisionArtifactConflict => text "change_member_revision_artifact_conflict"
  | changeMembershipEmpty => text "change_membership_empty"
  | changeMembershipRevisionMissing => text "change_membership_revision_missing"
  | changeRelationMembershipIncomplete => text "change_relation_membership_incomplete"
  | changeRelationRevisionArtifactConflict => text "change_relation_revision_artifact_conflict"
  | changeRelationTargetMissingOrMismatched =>
    text "change_relation_target_missing_or_mismatched"
  | operativeRequestResponseAmbiguous => text "operative_request_response_ambiguous"

def rank : ChangeDiagnostic → Nat
  | changeDeclarationConflict => 0
  | changeDeclarationIdentityMismatch => 1
  | changeDeclarationMissing => 2
  | changeMemberRevisionArtifactConflict => 3
  | changeMembershipEmpty => 4
  | changeMembershipRevisionMissing => 5
  | changeRelationMembershipIncomplete => 6
  | changeRelationRevisionArtifactConflict => 7
  | changeRelationTargetMissingOrMismatched => 8
  | operativeRequestResponseAmbiguous => 9

def all : List ChangeDiagnostic :=
  [changeDeclarationConflict, changeDeclarationIdentityMismatch, changeDeclarationMissing,
    changeMemberRevisionArtifactConflict, changeMembershipEmpty, changeMembershipRevisionMissing,
    changeRelationMembershipIncomplete, changeRelationRevisionArtifactConflict,
    changeRelationTargetMissingOrMismatched, operativeRequestResponseAmbiguous]

instance : Ord ChangeDiagnostic := ⟨fun a b => compare a.rank b.rank⟩

instance : TransOrd ChangeDiagnostic where
  eq_swap {a b} := OrientedOrd.eq_swap (a := a.rank) (b := b.rank)
  isLE_trans {a b c} h h' := TransOrd.isLE_trans (a := a.rank) (b := b.rank) (c := c.rank) h h'

instance : LawfulEqOrd ChangeDiagnostic where
  eq_of_compare {a b} h := by
    have hr : a.rank = b.rank := LawfulEqOrd.eq_of_compare h
    cases a <;> cases b <;> first | rfl | cases hr

theorem mem_all (d : ChangeDiagnostic) : d ∈ all := by
  cases d <;> simp [all]

theorem compare_asStr (a b : ChangeDiagnostic) : compare a.asStr b.asStr = compare a b := by
  have h : ∀ a ∈ all, ∀ b ∈ all, compare a.asStr b.asStr = compare a b := by decide +kernel
  exact h a (mem_all a) b (mem_all b)

end ChangeDiagnostic

structure ChangeView where
  changeId : ChangeId
  members : BTreeSet RevisionId
  currentRevisions : BTreeSet RevisionId
  supersedes : Supersedes
  topology : ChangeTopologyV1
  lifecycle : ChangeLifecycleV1
  qualifiedCurrentRevisions : BTreeSet RevisionId
  operativeObligations : BTreeSet InputRequestId
  diagnostics : List ChangeDiagnostic

structure ChangeLinkView where
  leftChangeId : ChangeId
  rightChangeId : ChangeId
  relation : ChangeLinkRelationV1

structure ChangeProjection where
  changes : BTreeMap ChangeId ChangeView
  links : List ChangeLinkView

/-- What one event can say about Changes. -/
inductive ChangeProjectionFact where
  | revision (revisionId : RevisionId) (objectArtifactContentHash : Text)
  | declaration (changeId : ChangeId) (identityDescriptor : ChangeIdentityDescriptorV1)
  | membershipAsserted (claimId : ChangeMembershipClaimId) (changeId : ChangeId)
      (revisionId : RevisionId)
  | membershipWithdrawn (claimId : ChangeMembershipClaimId)
  | relationAsserted (claimId : ChangeRevisionRelationClaimId) (changeId : ChangeId)
      (successor predecessor : RevisionRefV1)
  | relationWithdrawn (claimId : ChangeRevisionRelationClaimId)
  | linkAsserted (claimId : ChangeLinkClaimId) (leftChangeId rightChangeId : ChangeId)
      (relation : ChangeLinkRelationV1)
  | assessment (sourceEventId : EventId) (revisionId : RevisionId) (assessmentId : AssessmentId)
      (assessment : ReviewAssessment) (replaces : List AssessmentId)
  | operativeRequest (requestId : InputRequestId) (revisionId : RevisionId)
  | requestResponse (requestId : InputRequestId)
  | factPort (port : ReviewFactPortedPayload)
deriving DecidableEq

/-- The fact an event contributes; `none` when it has no effect on Changes. -/
def extractChangeProjectionFact {V : Type} (rt : Runtime V) (event : ShoreEvent V) :
    Result (Option ChangeProjectionFact) :=
  match event.eventType with
  | .workObjectProposed => do
    let payload ← fromValue rt.workObjectProposed event.payload
    match payload.workObject with
    | .revision revision hash _ => .ok (some (.revision revision.id hash))
    | .taskAttempt _ => .ok none
  | .changeDeclared => do
    let payload ← fromValue rt.changeDeclared event.payload
    payload.validate rt.sha256
    .ok (some (.declaration payload.changeId payload.identityDescriptor))
  | .changeMembershipAsserted => do
    let payload ← fromValue rt.changeMembershipAsserted event.payload
    payload.validate rt.sha256
    .ok (some (.membershipAsserted payload.membershipClaimId payload.changeId payload.revisionId))
  | .changeMembershipWithdrawn => do
    let payload ← fromValue rt.changeMembershipWithdrawn event.payload
    payload.validate rt.sha256
    .ok (some (.membershipWithdrawn payload.membershipClaimId))
  | .changeRevisionRelationAsserted => do
    let payload ← fromValue rt.changeRevisionRelationAsserted event.payload
    payload.validate rt.sha256
    .ok (some (.relationAsserted payload.relationClaimId payload.changeId payload.successor
      payload.predecessor))
  | .changeRevisionRelationWithdrawn => do
    let payload ← fromValue rt.changeRevisionRelationWithdrawn event.payload
    payload.validate rt.sha256
    .ok (some (.relationWithdrawn payload.relationClaimId))
  | .changeLinkAsserted => do
    let payload ← fromValue rt.changeLinkAsserted event.payload
    payload.validate rt.sha256
    .ok (some (.linkAsserted payload.linkClaimId payload.leftChangeId payload.rightChangeId
      payload.relation))
  | .reviewAssessmentRecorded => do
    let payload ← fromValue rt.reviewAssessmentRecorded event.payload
    .ok (some (.assessment event.eventId payload.target.revisionOf payload.assessmentId
      payload.assessment payload.replacesAssessmentIds))
  | .inputRequestOpened =>
    if event.assertionMode = .operative then do
      let payload ← decodeInputRequestOpenedPayload rt event.payload
      if payload.taskTarget.isNone then
        .ok (some (.operativeRequest payload.inputRequestId payload.target.revisionOf))
      else .ok none
    else .ok none
  | .inputRequestResponded => do
    let payload ← fromValue rt.inputRequestResponded event.payload
    .ok (some (.requestResponse payload.inputRequestId))
  | .reviewFactPorted => do
    let payload ← fromValue rt.reviewFactPorted event.payload
    match event.target.trackId with
    | none => .error (.invalidEvent (text "review_fact_ported requires an attributed review track"))
    | some trackId => do
      payload.validateAttribution rt.sha256 event.writer.actorId trackId
      .ok (some (.factPort payload))
  | .reviewInitialized | .reviewNoteImported | .reviewObservationRecorded
  | .validationCheckRecorded | .revisionRefAssociated | .revisionRefWithdrawn
  | .revisionCommitAssociated | .revisionCommitWithdrawn | .taskCheckpointCaptured
  | .taskObservationRecorded | .eventSignatureRecorded | .artifactRemoved
  | .revisionRelationAttested => .ok none

def extractFacts {V : Type} (rt : Runtime V) :
    List (ShoreEvent V) → Result (List ChangeProjectionFact)
  | [] => .ok []
  | event :: events => do
    let fact ← extractChangeProjectionFact rt event
    let facts ← extractFacts rt events
    .ok (fact.toList ++ facts)

structure ChangeMembershipFact where
  changeId : ChangeId
  revisionId : RevisionId

structure ChangeRelationFact where
  changeId : ChangeId
  successor : RevisionRefV1
  predecessor : RevisionRefV1

structure ChangeAssessmentFact where
  assessmentId : AssessmentId
  assessment : ReviewAssessment
  replaces : List AssessmentId

structure FoldInput where
  revisions : BTreeMap RevisionId (BTreeSet Text) := ∅
  declarations : BTreeMap ChangeId (List ChangeIdentityDescriptorV1) := ∅
  memberships : BTreeMap ChangeMembershipClaimId ChangeMembershipFact := ∅
  membershipWithdrawals : BTreeSet ChangeMembershipClaimId := ∅
  relations : BTreeMap ChangeRevisionRelationClaimId ChangeRelationFact := ∅
  relationWithdrawals : BTreeSet ChangeRevisionRelationClaimId := ∅
  links : BTreeMap ChangeLinkClaimId ChangeLinkView := ∅
  assessments : BTreeMap RevisionId (BTreeMap AssessmentId (EventId × ChangeAssessmentFact)) := ∅
  operativeRequests : BTreeMap InputRequestId RevisionId := ∅
  requestResponseCount : BTreeMap InputRequestId Nat := ∅
  factPorts : List ReviewFactPortedPayload := []

/-- The record with the lower event id stays. -/
def recordAssessment (records : BTreeMap AssessmentId (EventId × ChangeAssessmentFact))
    (sourceEventId : EventId) (candidate : ChangeAssessmentFact) :
    BTreeMap AssessmentId (EventId × ChangeAssessmentFact) :=
  records.alter candidate.assessmentId fun
    | none => some (sourceEventId, candidate)
    | some kept =>
      some (if compare sourceEventId kept.1 = .lt then (sourceEventId, candidate) else kept)

def FoldInput.step (input : FoldInput) : ChangeProjectionFact → FoldInput
  | .revision id hash =>
    { input with
      revisions := input.revisions.alter id fun hashes => some ((hashes.getD ∅).insert hash) }
  | .declaration c descriptor =>
    { input with
      declarations := input.declarations.alter c fun items => some (items.getD [] ++ [descriptor]) }
  | .membershipAsserted claim c r =>
    { input with memberships := input.memberships.insert claim ⟨c, r⟩ }
  | .membershipWithdrawn claim =>
    { input with membershipWithdrawals := input.membershipWithdrawals.insert claim }
  | .relationAsserted claim c successor predecessor =>
    { input with relations := input.relations.insert claim ⟨c, successor, predecessor⟩ }
  | .relationWithdrawn claim =>
    { input with relationWithdrawals := input.relationWithdrawals.insert claim }
  | .linkAsserted claim left right relation =>
    { input with links := input.links.insert claim ⟨left, right, relation⟩ }
  | .assessment source r id assessment replaces =>
    { input with
      assessments := input.assessments.alter r fun records =>
        some (recordAssessment (records.getD ∅) source ⟨id, assessment, replaces⟩) }
  | .operativeRequest q r =>
    { input with operativeRequests := input.operativeRequests.insert q r }
  | .requestResponse q =>
    { input with
      requestResponseCount := input.requestResponseCount.alter q fun n => some (n.getD 0 + 1) }
  | .factPort port => { input with factPorts := input.factPorts ++ [port] }

def foldFacts (facts : List ChangeProjectionFact) : FoldInput := facts.foldl FoldInput.step {}

namespace FoldInput

def changeIds (input : FoldInput) : BTreeSet ChangeId :=
  BTreeSet.collect (input.declarations.keys ++ input.memberships.vals.map (·.changeId) ++
    input.relations.vals.map (·.changeId))

end FoldInput

structure ChangeFindings where
  incomplete : Bool := false
  declarationConflict : Bool := false
  revisionConflict : Bool := false
  diagnostics : BTreeSet ChangeDiagnostic := ∅

namespace ChangeFindings

def markIncomplete (found : ChangeFindings) (code : ChangeDiagnostic) : ChangeFindings :=
  { found with incomplete := true, diagnostics := found.diagnostics.insert code }

def markDeclarationConflict (found : ChangeFindings) (code : ChangeDiagnostic) : ChangeFindings :=
  { found with declarationConflict := true, diagnostics := found.diagnostics.insert code }

def markRevisionConflict (found : ChangeFindings) (code : ChangeDiagnostic) : ChangeFindings :=
  { found with revisionConflict := true, diagnostics := found.diagnostics.insert code }

end ChangeFindings

namespace FoldInput

variable (input : FoldInput) (c : ChangeId)

def checkDeclaration (sha : Sha256) (found : ChangeFindings)
    (descriptor : ChangeIdentityDescriptorV1) : Result ChangeFindings := do
  let derived ← deriveChangeId sha descriptor
  .ok (if derived ≠ c then found.markDeclarationConflict .changeDeclarationIdentityMismatch
    else found)

def checkDeclarations (sha : Sha256) : Result ChangeFindings :=
  match input.declarations[c]? with
  | none => .ok (ChangeFindings.markIncomplete {} .changeDeclarationMissing)
  | some declarations => do
    let found ← declarations.foldlM (checkDeclaration c sha) {}
    let distinct := BTreeSet.collect (declarations.map fun item => item.toValue.render)
    .ok (if 1 < distinct.size then found.markDeclarationConflict .changeDeclarationConflict
      else found)

def claimsMember (entry : ChangeMembershipClaimId × ChangeMembershipFact) : Bool :=
  entry.2.changeId = c && entry.1 ∉ input.membershipWithdrawals

def members : BTreeSet RevisionId :=
  BTreeSet.collect ((input.memberships.toList.filter fun entry =>
    input.claimsMember c entry && entry.2.revisionId ∈ input.revisions).map (·.2.revisionId))

def membershipRevisionMissing : Bool :=
  input.memberships.toList.any fun entry =>
    input.claimsMember c entry && entry.2.revisionId ∉ input.revisions

/-- The Revision was proposed with more than one artifact hash. -/
def artifactConflict (r : RevisionId) : Bool :=
  input.revisions[r]?.any fun hashes => 1 < hashes.size

/-- The Revision was proposed with this artifact hash and no other. -/
def hasExactHash (ref : RevisionRefV1) : Bool :=
  input.revisions[ref.revisionId]?.any fun hashes =>
    hashes.size == 1 && ref.objectArtifactContentHash ∈ hashes

def checkMembers (found : ChangeFindings) : ChangeFindings :=
  let found := if input.membershipRevisionMissing c then
    found.markIncomplete .changeMembershipRevisionMissing else found
  let found := if (input.members c).isEmpty then found.markIncomplete .changeMembershipEmpty
    else found
  if (input.members c).toList.any input.artifactConflict then
    found.markRevisionConflict .changeMemberRevisionArtifactConflict else found

/-- One relation claim: it is foreign or withdrawn, faulty in one of three ways, or an edge. -/
def checkRelation (state : ChangeFindings × Supersedes)
    (entry : ChangeRevisionRelationClaimId × ChangeRelationFact) : ChangeFindings × Supersedes :=
  let (found, supersedes) := state
  let (claimId, claim) := entry
  let successor := claim.successor.revisionId
  let predecessor := claim.predecessor.revisionId
  if claim.changeId ≠ c || claimId ∈ input.relationWithdrawals then state
  else if input.artifactConflict successor || input.artifactConflict predecessor then
    (found.markRevisionConflict .changeRelationRevisionArtifactConflict, supersedes)
  else if !(input.hasExactHash claim.successor && input.hasExactHash claim.predecessor) then
    (found.markIncomplete .changeRelationTargetMissingOrMismatched, supersedes)
  else if successor ∉ input.members c || predecessor ∉ input.members c then
    (found.markIncomplete .changeRelationMembershipIncomplete, supersedes)
  else (found, supersedes.insert (successor, predecessor))

def checkRelations (found : ChangeFindings) : ChangeFindings × Supersedes :=
  input.relations.toList.foldl (input.checkRelation c) (found, ∅)

end FoldInput

structure OperativeObligationStatus where
  unresolvedRequests : BTreeSet InputRequestId := ∅
  ambiguousResponse : Bool := false

/-- The Revision a port carries the open request `q` to, if the target request is open there. -/
def carryTarget (input : FoldInput) (q : InputRequestId) (port : ReviewFactPortedPayload) :
    Option RevisionId :=
  match port.originFact, port.relation, port.targetFact with
  | .inputRequest origin, .carriedOpenAs, some (.inputRequest target) =>
    if origin = q ∧ input.operativeRequests[target]? = some port.targetRevision.revisionId then
      some port.targetRevision.revisionId
    else none
  | _, _, _ => none

def carriedTo (input : FoldInput) (q : InputRequestId) : BTreeSet RevisionId :=
  BTreeSet.collect (input.factPorts.filterMap (carryTarget input q))

def obligationStep (input : FoldInput) (members current : BTreeSet RevisionId)
    (status : OperativeObligationStatus) (entry : InputRequestId × RevisionId) :
    OperativeObligationStatus :=
  let (q, origin) := entry
  if origin ∉ members then status
  else match input.requestResponseCount[q]? with
    | some 1 => status
    | some _ => { unresolvedRequests := status.unresolvedRequests.insert q,
                  ambiguousResponse := true }
    | none =>
      if carriedTo input q ≠ current then
        { status with unresolvedRequests := status.unresolvedRequests.insert q }
      else status

def operativeObligationStatus (members current : BTreeSet RevisionId) (input : FoldInput) :
    OperativeObligationStatus :=
  input.operativeRequests.toList.foldl (obligationStep input members current) {}

def hasOneAcceptingAssessment (r : RevisionId)
    (assessments : BTreeMap RevisionId (BTreeMap AssessmentId (EventId × ChangeAssessmentFact))) :
    Bool :=
  match assessments[r]? with
  | none => false
  | some records =>
    let facts := records.vals.map Prod.snd
    let replaced := BTreeSet.collect (facts.flatMap (·.replaces))
    match facts.filter fun record => record.assessmentId ∉ replaced with
    | [record] => record.assessment = .accepted || record.assessment = .acceptedWithFollowUp
    | _ => false

def topologyOf (incomplete cycle divergent : Bool) (supersedes : Supersedes)
    (current : BTreeSet RevisionId) : ChangeTopologyV1 :=
  if incomplete then .incomplete
  else if cycle then .cycleConflicted
  else if divergent then .replacementDivergent
  else if supersedes.isEmpty then
    if current.size ≤ 1 then .initial else .parallelCurrent
  else match current.toList with
    | [head] =>
      if 1 < (supersedes.toList.filter fun edge => edge.1 = head).length then .consolidation
      else .replacement
    | _ => .mixed

def lifecycleOf (incomplete cycle divergent declarationConflict revisionConflict : Bool)
    (current qualified : BTreeSet RevisionId) (unresolved : BTreeSet InputRequestId) :
    ChangeLifecycleV1 :=
  if incomplete then .incomplete
  else if cycle || divergent || declarationConflict || revisionConflict then .conflicted
  else if current.isEmpty || qualified.size ≠ current.size || !unresolved.isEmpty then .inProgress
  else .accepted

/-- The view of a Change from what the checks found, its obligations and its qualified current
Revisions. -/
def assembleView (c : ChangeId) (members : BTreeSet RevisionId) (supersedes : Supersedes)
    (found : ChangeFindings) (obligations : OperativeObligationStatus)
    (qualified : BTreeSet RevisionId) : ChangeView :=
  let cycle := revisionGraphHasCycle members supersedes
  let current := currentRevisions members supersedes
  let divergent := !cycle && replacementHeadsDiverge current supersedes
  let diagnostics := if obligations.ambiguousResponse then
    found.diagnostics.insert .operativeRequestResponseAmbiguous else found.diagnostics
  { changeId := c, members, currentRevisions := current, supersedes,
    topology := topologyOf found.incomplete cycle divergent supersedes current,
    lifecycle := lifecycleOf found.incomplete cycle divergent found.declarationConflict
      found.revisionConflict current qualified obligations.unresolvedRequests,
    qualifiedCurrentRevisions := qualified,
    operativeObligations := obligations.unresolvedRequests,
    diagnostics := diagnostics.toList }

def projectChange (sha : Sha256) (input : FoldInput) (c : ChangeId) : Result ChangeView := do
  let declared ← input.checkDeclarations c sha
  let members := input.members c
  let (found, supersedes) := input.checkRelations c (input.checkMembers c declared)
  let current := currentRevisions members supersedes
  .ok (assembleView c members supersedes found (operativeObligationStatus members current input)
    (current.filter fun r => hasOneAcceptingAssessment r input.assessments))

def linkLE (a b : ChangeLinkView) : Prop :=
  (compare (a.leftChangeId, a.rightChangeId) (b.leftChangeId, b.rightChangeId)).isLE = true

instance : DecidableRel linkLE := fun _ _ => inferInstanceAs (Decidable (_ = true))

def projectChangesFromInput (sha : Sha256) (input : FoldInput) : Result ChangeProjection := do
  let changes ← input.changeIds.toList.foldlM
    (fun changes c => do
      let view ← projectChange sha input c
      .ok (changes.insert c view)) (∅ : BTreeMap ChangeId ChangeView)
  .ok { changes, links := input.links.vals.insertionSort linkLE }

def projectChangesFromFacts (sha : Sha256) (facts : List ChangeProjectionFact) :
    Result ChangeProjection :=
  projectChangesFromInput sha (foldFacts facts)

def projectChanges {V : Type} (rt : Runtime V) (events : List (ShoreEvent V)) :
    Result ChangeProjection := do
  let facts ← extractFacts rt events
  projectChangesFromFacts rt.sha256 facts

end Pointbreak
