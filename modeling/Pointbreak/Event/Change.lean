import Pointbreak.Model.Change

/-!
# Event.Change

The payloads of Change claims. A payload names itself by a claim id that hashes its coordinates,
and `validate` recomputes it; so claims that pass `validate` under one id agree on everything the
id covers, as long as the hash does not collide on them.
-/

namespace Pointbreak

open Result Ident

def CHANGE_DECLARED_SCHEMA_V1 : Text := text "pointbreak.change-declared"
def MEMBERSHIP_ASSERTED_SCHEMA_V1 : Text := text "pointbreak.change-membership-asserted"
def MEMBERSHIP_WITHDRAWN_SCHEMA_V1 : Text := text "pointbreak.change-membership-withdrawn"
def CHANGE_LINK_ASSERTED_SCHEMA_V1 : Text := text "pointbreak.change-link-asserted"
def REVISION_RELATION_ASSERTED_SCHEMA_V1 : Text :=
  text "pointbreak.change-revision-relation-asserted"
def REVISION_RELATION_WITHDRAWN_SCHEMA_V1 : Text :=
  text "pointbreak.change-revision-relation-withdrawn"

def claimMaterial (family : Text) (coordinates : Json) (claimNonce : Text) : Json :=
  .obj [(text "family", .str family), (text "coordinates", coordinates),
    (text "claimNonce", .str claimNonce)]

def prefixedClaimId (sha : Sha256) (idPrefix family : Text) (coordinates : Json)
    (claimNonce : Text) : Text :=
  prefixedHash sha idPrefix (claimMaterial family coordinates claimNonce)

theorem claimMaterial_canonical_inj {family family' nonce nonce' : Text} {coords coords' : Json}
    (h : (claimMaterial family coords nonce).canonical =
      (claimMaterial family' coords' nonce').canonical) :
    coords.canonical = coords'.canonical := by
  have hf := Json.canonicalFields_of_canonical
    [text "family", text "coordinates", text "claimNonce"] rfl rfl (by decide +kernel) h
  simp only [Json.canonicalFields, List.cons.injEq, Prod.mk.injEq] at hf
  exact hf.2.1.2

def invalidChangePayload (message : Text) : ShoreError := .invalidEvent message

def validatePayloadHeader (schema : Text) (version : Nat) (expectedSchema : Text) : Result Unit :=
  Result.ensure (schema = expectedSchema && version == 1)
    (invalidChangePayload (text "unsupported Change payload schema/version"))

def validateClaimNonce (nonce : Text) : Result Unit :=
  Result.ensure (Text.isHexOfLength 64 nonce)
    (invalidChangePayload (text "Change claim nonce must be 32 lowercase-hex bytes"))

structure ChangeDeclaredPayload where
  schema : Text
  version : Nat
  declarationClaimId : ChangeDeclarationClaimId
  changeId : ChangeId
  identityDescriptor : ChangeIdentityDescriptorV1
  claimNonce : Text
deriving DecidableEq

namespace ChangeDeclaredPayload

def coordinates (changeId : ChangeId) (descriptor : ChangeIdentityDescriptorV1) : Json :=
  .obj [(text "changeId", changeId.toValue), (text "identityDescriptor", descriptor.toValue)]

def claimId (sha : Sha256) (changeId : ChangeId) (descriptor : ChangeIdentityDescriptorV1)
    (claimNonce : Text) : ChangeDeclarationClaimId :=
  ⟨prefixedClaimId sha IdPrefix.CHANGE_DECLARATION (text "change_declared_v1")
    (coordinates changeId descriptor) claimNonce⟩

def validate (sha : Sha256) (payload : ChangeDeclaredPayload) : Result Unit := do
  validatePayloadHeader payload.schema payload.version CHANGE_DECLARED_SCHEMA_V1
  validateClaimNonce payload.claimNonce
  let derived ← deriveChangeId sha payload.identityDescriptor
  Result.ensure (derived = payload.changeId)
    (invalidChangePayload (text "Change declaration identity mismatch"))
  let expected := claimId sha payload.changeId payload.identityDescriptor payload.claimNonce
  Result.ensure (expected = payload.declarationClaimId)
    (invalidChangePayload (text "Change declaration claim id mismatch"))

end ChangeDeclaredPayload

structure ChangeMembershipAssertedPayload where
  schema : Text
  version : Nat
  membershipClaimId : ChangeMembershipClaimId
  changeId : ChangeId
  revisionId : RevisionId
  claimNonce : Text
deriving DecidableEq

variable {values : List Json}

namespace ChangeMembershipAssertedPayload

def material (payload : ChangeMembershipAssertedPayload) : Json :=
  membershipMaterial payload.changeId payload.revisionId payload.claimNonce

def validate (sha : Sha256) (payload : ChangeMembershipAssertedPayload) : Result Unit := do
  validatePayloadHeader payload.schema payload.version MEMBERSHIP_ASSERTED_SCHEMA_V1
  validateClaimNonce payload.claimNonce
  let expected : ChangeMembershipClaimId :=
    ⟨prefixedHash sha IdPrefix.CHANGE_MEMBERSHIP payload.material⟩
  Result.ensure (expected = payload.membershipClaimId)
    (invalidChangePayload (text "Change membership claim id mismatch"))

theorem coordinates_eq {sha : Sha256} (hcf : CollisionFree sha values)
    {p q : ChangeMembershipAssertedPayload} (hp : p.validate sha = .ok ())
    (hq : q.validate sha = .ok ()) (hpm : p.material ∈ values) (hqm : q.material ∈ values)
    (hid : p.membershipClaimId = q.membershipClaimId) :
    p.changeId = q.changeId ∧ p.revisionId = q.revisionId := by
  simp only [validate, bind_eq_ok, ensure_eq_ok, decide_eq_true_eq] at hp hq
  obtain ⟨_, -, _, -, hp⟩ := hp
  obtain ⟨_, -, _, -, hq⟩ := hq
  rw [← hp, ← hq, Ident.mk.injEq] at hid
  have hf := Json.canonicalFields_of_canonical
    [text "family", text "changeId", text "revisionId", text "claimNonce"] rfl rfl
    (by decide +kernel) (hcf.of_prefixedHash hpm hqm hid)
  simp only [Json.canonicalFields, canonical_toValue, List.cons.injEq, Prod.mk.injEq,
    toValue_inj] at hf
  exact ⟨hf.2.1.2, hf.2.2.1.2⟩

end ChangeMembershipAssertedPayload

def buildMembershipAsserted (sha : Sha256) (changeId : ChangeId) (revisionId : RevisionId)
    (claimNonce : Vector UInt8 32) : ChangeMembershipAssertedPayload :=
  { schema := MEMBERSHIP_ASSERTED_SCHEMA_V1, version := 1,
    membershipClaimId := deriveMembershipClaimId sha changeId revisionId claimNonce,
    changeId, revisionId, claimNonce := lowercaseHex claimNonce }

variable (sha : Sha256)

structure ChangeMembershipWithdrawnPayload where
  schema : Text
  version : Nat
  membershipWithdrawalId : ChangeMembershipWithdrawalId
  membershipClaimId : ChangeMembershipClaimId
  claimNonce : Text
deriving DecidableEq

namespace ChangeMembershipWithdrawnPayload

def withdrawalId (sha : Sha256) (claimId : ChangeMembershipClaimId) (claimNonce : Text) :
    ChangeMembershipWithdrawalId :=
  ⟨prefixedClaimId sha IdPrefix.CHANGE_MEMBERSHIP_WITHDRAWAL (text "change_membership_withdrawn_v1")
    (.obj [(text "membershipClaimId", claimId.toValue)]) claimNonce⟩

def validate (sha : Sha256) (payload : ChangeMembershipWithdrawnPayload) : Result Unit := do
  validatePayloadHeader payload.schema payload.version MEMBERSHIP_WITHDRAWN_SCHEMA_V1
  validateClaimNonce payload.claimNonce
  let expected := withdrawalId sha payload.membershipClaimId payload.claimNonce
  Result.ensure (expected = payload.membershipWithdrawalId)
    (invalidChangePayload (text "Change membership withdrawal id mismatch"))

end ChangeMembershipWithdrawnPayload

def buildMembershipWithdrawn (sha : Sha256) (membershipClaimId : ChangeMembershipClaimId)
    (claimNonce : Vector UInt8 32) : ChangeMembershipWithdrawnPayload :=
  let nonce := lowercaseHex claimNonce
  { schema := MEMBERSHIP_WITHDRAWN_SCHEMA_V1, version := 1,
    membershipWithdrawalId :=
      ChangeMembershipWithdrawnPayload.withdrawalId sha membershipClaimId nonce,
    membershipClaimId, claimNonce := nonce }

inductive ChangeLinkRelationV1 where
  | sameWork | relatedWork
deriving DecidableEq

def ChangeLinkRelationV1.toValue : ChangeLinkRelationV1 → Json
  | .sameWork => .str (text "same_work")
  | .relatedWork => .str (text "related_work")

theorem ChangeLinkRelationV1.toValue_canonical_inj {a b : ChangeLinkRelationV1}
    (h : a.toValue.canonical = b.toValue.canonical) : a = b := by
  have hne : text "same_work" ≠ text "related_work" := by decide +kernel
  cases a <;> cases b <;> simp_all [toValue, eq_comm]

structure ChangeLinkAssertedPayload where
  schema : Text
  version : Nat
  linkClaimId : ChangeLinkClaimId
  leftChangeId : ChangeId
  rightChangeId : ChangeId
  relation : ChangeLinkRelationV1
  claimNonce : Text
deriving DecidableEq

namespace ChangeLinkAssertedPayload

def coordinates (left right : ChangeId) (relation : ChangeLinkRelationV1) : Json :=
  .obj [(text "leftChangeId", left.toValue), (text "rightChangeId", right.toValue),
    (text "relation", relation.toValue)]

def linkMaterial (left right : ChangeId) (relation : ChangeLinkRelationV1) (nonce : Text) : Json :=
  claimMaterial (text "change_link_asserted_v1") (coordinates left right relation) nonce

def material (payload : ChangeLinkAssertedPayload) : Json :=
  linkMaterial payload.leftChangeId payload.rightChangeId payload.relation payload.claimNonce

def validate (sha : Sha256) (payload : ChangeLinkAssertedPayload) : Result Unit := do
  validatePayloadHeader payload.schema payload.version CHANGE_LINK_ASSERTED_SCHEMA_V1
  validateClaimNonce payload.claimNonce
  Result.ensure (compare payload.leftChangeId payload.rightChangeId = .lt)
    (invalidChangePayload (text "Change links require a canonical distinct id pair"))
  let expected : ChangeLinkClaimId := ⟨prefixedHash sha IdPrefix.CHANGE_LINK payload.material⟩
  Result.ensure (expected = payload.linkClaimId)
    (invalidChangePayload (text "Change link claim id mismatch"))

theorem coordinates_eq {sha : Sha256} (hcf : CollisionFree sha values)
    {p q : ChangeLinkAssertedPayload} (hp : p.validate sha = .ok ()) (hq : q.validate sha = .ok ())
    (hpm : p.material ∈ values) (hqm : q.material ∈ values) (hid : p.linkClaimId = q.linkClaimId) :
    p.leftChangeId = q.leftChangeId ∧ p.rightChangeId = q.rightChangeId ∧
      p.relation = q.relation := by
  simp only [validate, bind_eq_ok, ensure_eq_ok, decide_eq_true_eq] at hp hq
  obtain ⟨_, -, _, -, _, -, hp⟩ := hp
  obtain ⟨_, -, _, -, _, -, hq⟩ := hq
  rw [← hp, ← hq, Ident.mk.injEq] at hid
  have hf := Json.canonicalFields_of_canonical
    [text "leftChangeId", text "rightChangeId", text "relation"] rfl rfl (by decide +kernel)
    (claimMaterial_canonical_inj (hcf.of_prefixedHash hpm hqm hid))
  simp only [Json.canonicalFields, canonical_toValue, List.cons.injEq, Prod.mk.injEq,
    toValue_inj] at hf
  exact ⟨hf.1.2, hf.2.1.2, ChangeLinkRelationV1.toValue_canonical_inj hf.2.2.1.2⟩

end ChangeLinkAssertedPayload

inductive ChangeRevisionRelationV1 where
  | supersedes
deriving DecidableEq

def ChangeRevisionRelationV1.toValue : ChangeRevisionRelationV1 → Json
  | .supersedes => .str (text "supersedes")

structure ChangeRevisionRelationAssertedPayload where
  schema : Text
  version : Nat
  relationClaimId : ChangeRevisionRelationClaimId
  changeId : ChangeId
  successor : RevisionRefV1
  predecessor : RevisionRefV1
  relation : ChangeRevisionRelationV1
  claimNonce : Text
deriving DecidableEq

namespace ChangeRevisionRelationAssertedPayload

def coordinates (changeId : ChangeId) (successor predecessor : RevisionRefV1)
    (relation : ChangeRevisionRelationV1) : Json :=
  .obj [(text "changeId", changeId.toValue), (text "successor", successor.toValue),
    (text "predecessor", predecessor.toValue), (text "relation", relation.toValue)]

def relationMaterial (changeId : ChangeId) (successor predecessor : RevisionRefV1)
    (relation : ChangeRevisionRelationV1) (nonce : Text) : Json :=
  claimMaterial (text "change_revision_relation_asserted_v1")
    (coordinates changeId successor predecessor relation) nonce

def material (payload : ChangeRevisionRelationAssertedPayload) : Json :=
  relationMaterial payload.changeId payload.successor payload.predecessor payload.relation
    payload.claimNonce

def validate (sha : Sha256) (payload : ChangeRevisionRelationAssertedPayload) : Result Unit := do
  validatePayloadHeader payload.schema payload.version REVISION_RELATION_ASSERTED_SCHEMA_V1
  validateClaimNonce payload.claimNonce
  let expected : ChangeRevisionRelationClaimId :=
    ⟨prefixedHash sha IdPrefix.CHANGE_REVISION_RELATION payload.material⟩
  Result.ensure (expected = payload.relationClaimId)
    (invalidChangePayload (text "Change Revision-relation claim id mismatch"))

theorem coordinates_eq {sha : Sha256} (hcf : CollisionFree sha values)
    {p q : ChangeRevisionRelationAssertedPayload} (hp : p.validate sha = .ok ())
    (hq : q.validate sha = .ok ()) (hpm : p.material ∈ values) (hqm : q.material ∈ values)
    (hid : p.relationClaimId = q.relationClaimId) :
    p.changeId = q.changeId ∧ p.successor = q.successor ∧ p.predecessor = q.predecessor := by
  simp only [validate, bind_eq_ok, ensure_eq_ok, decide_eq_true_eq] at hp hq
  obtain ⟨_, -, _, -, hp⟩ := hp
  obtain ⟨_, -, _, -, hq⟩ := hq
  rw [← hp, ← hq, Ident.mk.injEq] at hid
  have hf := Json.canonicalFields_of_canonical
    [text "changeId", text "successor", text "predecessor", text "relation"] rfl rfl
    (by decide +kernel) (claimMaterial_canonical_inj (hcf.of_prefixedHash hpm hqm hid))
  simp only [Json.canonicalFields, canonical_toValue, List.cons.injEq, Prod.mk.injEq,
    toValue_inj] at hf
  exact ⟨hf.1.2, RevisionRefV1.toValue_canonical_inj hf.2.1.2,
    RevisionRefV1.toValue_canonical_inj hf.2.2.1.2⟩

end ChangeRevisionRelationAssertedPayload

def buildRevisionRelationAsserted (sha : Sha256) (changeId : ChangeId)
    (successor predecessor : RevisionRefV1) (claimNonce : Vector UInt8 32) :
    ChangeRevisionRelationAssertedPayload :=
  let nonce := lowercaseHex claimNonce
  { schema := REVISION_RELATION_ASSERTED_SCHEMA_V1, version := 1,
    relationClaimId := ⟨prefixedHash sha IdPrefix.CHANGE_REVISION_RELATION
      (ChangeRevisionRelationAssertedPayload.relationMaterial changeId successor predecessor
        .supersedes nonce)⟩,
    changeId, successor, predecessor, relation := .supersedes, claimNonce := nonce }

structure ChangeRevisionRelationWithdrawnPayload where
  schema : Text
  version : Nat
  relationWithdrawalId : ChangeRevisionRelationWithdrawalId
  relationClaimId : ChangeRevisionRelationClaimId
  claimNonce : Text
deriving DecidableEq

namespace ChangeRevisionRelationWithdrawnPayload

def withdrawalId (sha : Sha256) (claimId : ChangeRevisionRelationClaimId) (claimNonce : Text) :
    ChangeRevisionRelationWithdrawalId :=
  ⟨prefixedClaimId sha IdPrefix.CHANGE_REVISION_RELATION_WITHDRAWAL
    (text "change_revision_relation_withdrawn_v1")
    (.obj [(text "relationClaimId", claimId.toValue)]) claimNonce⟩

def validate (sha : Sha256) (payload : ChangeRevisionRelationWithdrawnPayload) : Result Unit := do
  validatePayloadHeader payload.schema payload.version REVISION_RELATION_WITHDRAWN_SCHEMA_V1
  validateClaimNonce payload.claimNonce
  let expected := withdrawalId sha payload.relationClaimId payload.claimNonce
  Result.ensure (expected = payload.relationWithdrawalId)
    (invalidChangePayload (text "Change Revision-relation withdrawal id mismatch"))

end ChangeRevisionRelationWithdrawnPayload

end Pointbreak
