import Pointbreak.Lib.Search
import Pointbreak.Model.Revision

/-!
# Model.Change

The identity of a Change and the graph of its replacements. An edge `(successor, predecessor)`
says that the successor Revision replaces the predecessor within one Change.
-/

namespace Pointbreak

open Std Relation BTreeSet Search

def CHANGE_IDENTITY_SCHEMA_V1 : Text := text "pointbreak.change-identity.v1"

inductive ChangeIdentityDescriptorV1 where
  | opaqueNonce (schema nonce : Text)
  | rootRevision (schema : Text) (revisionId : RevisionId)
deriving DecidableEq

def lowercaseHex (nonce : Vector UInt8 32) : Text := Text.lowercaseHex nonce.toList

def validateSchema (schema : Text) : Result Unit :=
  Result.ensure (schema = CHANGE_IDENTITY_SCHEMA_V1)
    (.message (text "unsupported Change identity schema: " ++ schema))

namespace ChangeIdentityDescriptorV1

def ofNonce (nonce : Vector UInt8 32) : ChangeIdentityDescriptorV1 :=
  .opaqueNonce CHANGE_IDENTITY_SCHEMA_V1 (lowercaseHex nonce)

def validate : ChangeIdentityDescriptorV1 → Result Unit
  | .opaqueNonce schema nonce => do
    validateSchema schema
    Result.ensure (Text.isHexOfLength 64 nonce)
      (.message (text "opaque Change nonce must be 32 lowercase-hex bytes"))
  | .rootRevision schema revisionId => do
    validateSchema schema
    Result.ensure revisionId.hasRevPrefix
      (.message (text "root Change rendezvous requires a rev: RevisionId"))

def toValue : ChangeIdentityDescriptorV1 → Json
  | .opaqueNonce schema nonce =>
    .obj [(text "kind", .str (text "opaque_nonce")), (text "schema", .str schema),
      (text "nonce", .str nonce)]
  | .rootRevision schema revisionId =>
    .obj [(text "kind", .str (text "root_revision")), (text "schema", .str schema),
      (text "revision_id", revisionId.toValue)]

theorem toValue_canonical_inj {a b : ChangeIdentityDescriptorV1}
    (h : a.toValue.canonical = b.toValue.canonical) : a = b := by
  have hkind : text "nonce" ≠ text "revision_id" ∧ text "nonce" ≠ text "schema" ∧
      text "nonce" ≠ text "kind" := by decide +kernel
  cases a with
  | opaqueNonce schema nonce =>
    cases b with
    | opaqueNonce schema' nonce' =>
      have hf := Json.canonicalFields_of_canonical [text "kind", text "schema", text "nonce"]
        rfl rfl (by decide +kernel) h
      simpa using hf
    | rootRevision schema' revisionId =>
      have hmem := (Json.perm_of_canonical h).map Prod.fst |>.subset
      simp [hkind] at hmem
  | rootRevision schema revisionId =>
    cases b with
    | opaqueNonce schema' nonce' =>
      have hmem := (Json.perm_of_canonical h.symm).map Prod.fst |>.subset
      simp [hkind] at hmem
    | rootRevision schema' revisionId' =>
      have hf := Json.canonicalFields_of_canonical
        [text "kind", text "schema", text "revision_id"] rfl rfl (by decide +kernel) h
      simpa using hf

end ChangeIdentityDescriptorV1

def deriveChangeId (sha : Sha256) (descriptor : ChangeIdentityDescriptorV1) : Result ChangeId := do
  descriptor.validate
  .ok ⟨prefixedHash sha IdPrefix.CHANGE descriptor.toValue⟩

theorem deriveChangeId_eq_ok {sha : Sha256} {d : ChangeIdentityDescriptorV1} {c : ChangeId} :
    deriveChangeId sha d = .ok c ↔
      d.validate = .ok () ∧ c = ⟨prefixedHash sha IdPrefix.CHANGE d.toValue⟩ := by
  rw [deriveChangeId, Result.bind_eq_ok]
  constructor
  · rintro ⟨_, hv, hc⟩
    cases hc
    exact ⟨hv, rfl⟩
  · rintro ⟨hv, hc⟩
    exact ⟨(), hv, by rw [hc]⟩

def membershipMaterial (changeId : ChangeId) (revisionId : RevisionId) (claimNonce : Text) : Json :=
  .obj [(text "family", .str (text "change_membership_asserted_v1")),
    (text "changeId", changeId.toValue), (text "revisionId", revisionId.toValue),
    (text "claimNonce", .str claimNonce)]

def deriveMembershipClaimId (sha : Sha256) (changeId : ChangeId) (revisionId : RevisionId)
    (claimNonce : Vector UInt8 32) : ChangeMembershipClaimId :=
  ⟨prefixedHash sha IdPrefix.CHANGE_MEMBERSHIP
    (membershipMaterial changeId revisionId (lowercaseHex claimNonce))⟩

/-- The edges of one Change, as `(successor, predecessor)` pairs. -/
abbrev Supersedes : Type := BTreeSet (RevisionId × RevisionId)

def currentRevisions (members : BTreeSet RevisionId) (supersedes : Supersedes) :
    BTreeSet RevisionId :=
  let replaced := BTreeSet.collect (supersedes.toList.map Prod.snd)
  members.filter fun member => member ∉ replaced

def predecessorsOf (supersedes : Supersedes) (node : RevisionId) : List RevisionId :=
  (supersedes.toList.filter fun edge => edge.1 = node).map Prod.snd

/-- Enough for every node a search can enter: the members and the predecessors. -/
def searchFuel (members : BTreeSet RevisionId) (supersedes : Supersedes) : Nat :=
  members.toList.length + supersedes.toList.length + 1

def revisionGraphHasCycle (members : BTreeSet RevisionId) (supersedes : Supersedes) : Bool :=
  Search.hasCycle (predecessorsOf supersedes) (searchFuel members supersedes) members.toList

def isDisjoint (s t : BTreeSet RevisionId) : Bool := s.toList.all fun r => r ∉ t

def anyPair {α : Type} (f : α → α → Bool) : List α → Bool
  | [] => false
  | a :: as => as.any (f a) || anyPair f as

def replacementHeadsDiverge (current : BTreeSet RevisionId) (supersedes : Supersedes) : Bool :=
  let ancestors := current.toList.map fun head =>
    Search.close (predecessorsOf supersedes) (searchFuel current supersedes) ∅ [head]
  anyPair (fun left right => !isDisjoint left right) ancestors

open List

section Graph

variable {members current : BTreeSet RevisionId} {supersedes : Supersedes}

/-- The replacement relation of a Change. -/
def Replaces (supersedes : Supersedes) (successor predecessor : RevisionId) : Prop :=
  (successor, predecessor) ∈ supersedes

theorem mem_currentRevisions {r : RevisionId} :
    r ∈ currentRevisions members supersedes ↔
      r ∈ members ∧ ∀ s, ¬ Replaces supersedes s r := by
  rw [currentRevisions, mem_filter_iff]
  simp [Replaces]

theorem mem_predecessorsOf {a b : RevisionId} :
    b ∈ predecessorsOf supersedes a ↔ Replaces supersedes a b := by
  simp [predecessorsOf, Replaces]

theorem search_edge : Search.Edge (predecessorsOf supersedes) = Replaces supersedes := by
  funext a b
  exact propext mem_predecessorsOf

def nodes (members : BTreeSet RevisionId) (supersedes : Supersedes) : Finset RevisionId :=
  (members.toList ++ supersedes.toList.map Prod.snd).toFinset

theorem mem_nodes_of_mem {r : RevisionId} (h : r ∈ members) : r ∈ nodes members supersedes := by
  simp [nodes, h]

theorem nodes_closed : ∀ x ∈ nodes members supersedes, ∀ y ∈ predecessorsOf supersedes x,
    y ∈ nodes members supersedes := by
  intro x _ y hy
  rw [mem_predecessorsOf] at hy
  rw [nodes, mem_toFinset, mem_append, mem_map]
  exact .inr ⟨(x, y), mem_toList_iff.mpr hy, rfl⟩

theorem card_nodes_lt : (nodes members supersedes).card < searchFuel members supersedes := by
  have h := toFinset_card_le (members.toList ++ supersedes.toList.map Prod.snd)
  rw [length_append, length_map] at h
  exact Nat.lt_succ_of_le h

theorem revisionGraphHasCycle_reach :
    revisionGraphHasCycle members supersedes = true ↔ ∃ m ∈ members, ∃ r,
      ReflTransGen (Replaces supersedes) m r ∧ TransGen (Replaces supersedes) r r := by
  have hroots : ∀ r ∈ members.toList, r ∈ nodes members supersedes := by
    intro r hr
    exact mem_nodes_of_mem (mem_toList_iff.mp hr)
  rw [revisionGraphHasCycle, hasCycle_iff nodes_closed card_nodes_lt hroots, search_edge]
  simp only [mem_toList_iff]

/-- The cycle check is exact when edges start at members, as the edges of a Change do. -/
theorem revisionGraphHasCycle_iff (hm : ∀ a b, Replaces supersedes a b → a ∈ members) :
    revisionGraphHasCycle members supersedes = true ↔
      ∃ r, TransGen (Replaces supersedes) r r := by
  rw [revisionGraphHasCycle_reach]
  constructor
  · rintro ⟨_, _, r, _, hr⟩
    exact ⟨r, hr⟩
  · rintro ⟨r, hr⟩
    obtain ⟨b, hb, -⟩ := TransGen.head'_iff.mp hr
    exact ⟨r, hm r b hb, r, .refl, hr⟩

theorem isDisjoint_eq_false {s t : BTreeSet RevisionId} :
    isDisjoint s t = false ↔ ∃ r, r ∈ s ∧ r ∈ t := by
  rw [isDisjoint, all_eq_false]
  simp

theorem isDisjoint_comm (s t : BTreeSet RevisionId) : isDisjoint s t = isDisjoint t s := by
  rw [← Bool.not_inj_iff, Bool.eq_iff_iff, Bool.not_eq_true', Bool.not_eq_true',
    isDisjoint_eq_false, isDisjoint_eq_false]
  simp only [and_comm]

theorem anyPair_eq_false {α : Type} {f : α → α → Bool} {l : List α} :
    anyPair f l = false ↔ l.Pairwise fun a b => f a b = false := by
  induction l with
  | nil => simp [anyPair]
  | cons a as ih => simp [anyPair, ih]

theorem replacementHeadsDiverge_iff :
    replacementHeadsDiverge current supersedes = true ↔
      ∃ a ∈ current, ∃ b ∈ current, a ≠ b ∧
        ∃ r, TransGen (Replaces supersedes) a r ∧ TransGen (Replaces supersedes) b r := by
  have hclose : ∀ head ∈ current, ∀ r,
      r ∈ Search.close (predecessorsOf supersedes) (searchFuel current supersedes) ∅ [head] ↔
        TransGen (Replaces supersedes) head r := by
    intro head hh r
    rw [mem_close_iff nodes_closed (mem_nodes_of_mem hh) card_nodes_lt, search_edge]
  rw [replacementHeadsDiverge, ← Bool.not_eq_false, anyPair_eq_false, pairwise_map]
  simp only [Bool.not_eq_false']
  constructor
  · intro h
    by_contra hnone
    refine h (nodup_toList.pairwise_of_forall_ne fun a ha b hb hne => ?_)
    rw [mem_toList_iff] at ha hb
    rw [← Bool.not_eq_false, isDisjoint_eq_false]
    rintro ⟨r, hra, hrb⟩
    exact hnone ⟨a, ha, b, hb, hne, r, (hclose a ha r).mp hra, (hclose b hb r).mp hrb⟩
  · rintro ⟨a, ha, b, hb, hne, r, hra, hrb⟩ h
    have hsymm : Std.Symm fun a b => isDisjoint
        (Search.close (predecessorsOf supersedes) (searchFuel current supersedes) ∅ [a])
        (Search.close (predecessorsOf supersedes) (searchFuel current supersedes) ∅ [b]) = true :=
      ⟨fun _ _ hab => (isDisjoint_comm ..).trans hab⟩
    have hapart := h.forall (mem_toList_iff.mpr ha) (mem_toList_iff.mpr hb) hne
    rw [isDisjoint_eq_false.mpr ⟨r, (hclose a ha r).mpr hra, (hclose b hb r).mpr hrb⟩] at hapart
    cases hapart

/-- The searches return on every graph. The cycle check finds the cycles that can be reached from
the members, so all of them when edges start at members; the divergence check finds two Revisions
with a common transitive predecessor. -/
theorem graph_searches_exact (members current : BTreeSet RevisionId) (supersedes : Supersedes) :
    (∀ m ∈ members, ∀ visited, Search.Visits (predecessorsOf supersedes) m ⟨∅, visited⟩
      (Search.visit (predecessorsOf supersedes) (searchFuel members supersedes) m ⟨∅, visited⟩)) ∧
    (revisionGraphHasCycle members supersedes = true ↔ ∃ m ∈ members, ∃ r,
      ReflTransGen (Replaces supersedes) m r ∧ TransGen (Replaces supersedes) r r) ∧
    ((∀ a b, Replaces supersedes a b → a ∈ members) →
      (revisionGraphHasCycle members supersedes = true ↔ ∃ r, TransGen (Replaces supersedes) r r)) ∧
    (∀ head ∈ current, Search.Closes (predecessorsOf supersedes) ∅ [head]
      (Search.close (predecessorsOf supersedes) (searchFuel current supersedes) ∅ [head])) ∧
    (replacementHeadsDiverge current supersedes = true ↔
      ∃ a ∈ current, ∃ b ∈ current, a ≠ b ∧
        ∃ r, TransGen (Replaces supersedes) a r ∧ TransGen (Replaces supersedes) b r) := by
  refine ⟨fun m hm visited => ?_, revisionGraphHasCycle_reach, revisionGraphHasCycle_iff,
    fun head hhead => ?_, replacementHeadsDiverge_iff⟩
  · exact visits_visit nodes_closed (mem_nodes_of_mem hm)
      ((Finset.card_le_card (Finset.filter_subset ..)).trans_lt card_nodes_lt)
  · refine closes_close nodes_closed ?_
      ((todo_singleton_le _ head).trans card_nodes_lt)
    intro x hx
    rw [mem_singleton.mp hx]
    exact mem_nodes_of_mem hhead

/-- Two Revisions that replace each other. -/
theorem mutual_replacement_is_cycle :
    revisionGraphHasCycle (.collect [⟨text "rev:a"⟩, ⟨text "rev:b"⟩])
      (.collect [(⟨text "rev:a"⟩, ⟨text "rev:b"⟩), (⟨text "rev:b"⟩, ⟨text "rev:a"⟩)]) = true := by
  have hexact := (graph_searches_exact (.collect [⟨text "rev:a"⟩, ⟨text "rev:b"⟩]) ∅
    (.collect [(⟨text "rev:a"⟩, ⟨text "rev:b"⟩), (⟨text "rev:b"⟩, ⟨text "rev:a"⟩)])).2.2.1
  refine (hexact ?_).mpr ⟨⟨text "rev:a"⟩, .head (b := ⟨text "rev:b"⟩) ?_ (.single ?_)⟩
  · intro a b h
    simp only [Replaces, mem_collect, mem_cons, Prod.mk.injEq, not_mem_nil,
      or_false] at h ⊢
    exact h.imp And.left And.left
  · simp [Replaces]
  · simp [Replaces]

-- The search starts at the members only: the same two edges are not found among other members.
example : revisionGraphHasCycle (.collect [⟨text "rev:c"⟩])
    (.collect [(⟨text "rev:a"⟩, ⟨text "rev:b"⟩), (⟨text "rev:b"⟩, ⟨text "rev:a"⟩)]) = false := by
  decide +kernel

end Graph

end Pointbreak
