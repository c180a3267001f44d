import Pointbreak.Projection.State

/-!
# Projection.CommitRange

Which commits and refs a Revision claims. Proposals, associations and withdrawals are folded into
one builder for each Revision, which is then split into what is current, what was withdrawn and what
a withdrawal names in vain. `finish_eq_iff` says when two builders show the same view.
-/

namespace Pointbreak

open Std BTreeMap ExtTreeMap List

structure RevisionsByBase where
  buckets : BTreeMap Text (BTreeSet RevisionId)

/-- Enters a proposed Revision in the bucket of its base commit. -/
def enterBase (buckets : BTreeMap Text (BTreeSet RevisionId)) (payload : WorkObjectProposedPayload) :
    BTreeMap Text (BTreeSet RevisionId) :=
  match payload.workObject with
  | .revision revision _ _ =>
    match revision.gitProvenance.bind fun provenance => provenance.base.commit with
    | some (commitOid, _) => buckets.addTo commitOid revision.id
    | none => buckets
  | .taskAttempt _ => buckets

section Bases

variable {V : Type} (rt : Runtime V)

def RevisionsByBase.apply (buckets : BTreeMap Text (BTreeSet RevisionId)) (event : ShoreEvent V) :
    Result (BTreeMap Text (BTreeSet RevisionId)) :=
  if event.eventType = .workObjectProposed then do
    let payload ← fromValue rt.workObjectProposed event.payload
    .ok (enterBase buckets payload)
  else .ok buckets

def RevisionsByBase.fromEvents (events : List (ShoreEvent V)) : Result RevisionsByBase := do
  let buckets ← events.foldlM (RevisionsByBase.apply rt) ∅
  .ok { buckets }

end Bases

inductive CommitEdgeSource where
  | captureTarget | association
deriving DecidableEq

structure CurrentCommitAssociation where
  commitOid : Text
  treeOid : Text
  commitAssociationId : Option CommitAssociationId
  source : CommitEdgeSource

structure CurrentRefAssociation where
  refAssociationId : RefAssociationId
  refName : Text
  headOid : Text

structure WithdrawnCommitAssociation where
  commitOid : Text
  treeOid : Text
  commitAssociationId : CommitAssociationId
  commitWithdrawalId : CommitWithdrawalId

structure WithdrawnRefAssociation where
  refAssociationId : RefAssociationId
  refName : Text
  headOid : Text
  refWithdrawalId : RefWithdrawalId

def CurrentCommitAssociation.ofCapture (commit : Text × Text) : CurrentCommitAssociation where
  commitOid := commit.1
  treeOid := commit.2
  commitAssociationId := none
  source := .captureTarget

def CurrentCommitAssociation.ofAssociation (entry : CommitAssociationId × (Text × Text)) :
    CurrentCommitAssociation where
  commitOid := entry.2.1
  treeOid := entry.2.2
  commitAssociationId := some entry.1
  source := .association

def CurrentRefAssociation.ofAssociation (entry : RefAssociationId × (Text × Text)) :
    CurrentRefAssociation where
  refAssociationId := entry.1
  refName := entry.2.1
  headOid := entry.2.2

def WithdrawnCommitAssociation.ofWithdrawal
    (entry : CommitAssociationId × (Text × Text) × CommitWithdrawalId) :
    WithdrawnCommitAssociation where
  commitOid := entry.2.1.1
  treeOid := entry.2.1.2
  commitAssociationId := entry.1
  commitWithdrawalId := entry.2.2

def WithdrawnRefAssociation.ofWithdrawal
    (entry : RefAssociationId × (Text × Text) × RefWithdrawalId) : WithdrawnRefAssociation where
  refAssociationId := entry.1
  refName := entry.2.1.1
  headOid := entry.2.1.2
  refWithdrawalId := entry.2.2

structure RevisionCommitRangeView where
  revisionId : RevisionId
  anchored : Bool
  currentCommits : List CurrentCommitAssociation
  currentRefs : List CurrentRefAssociation
  withdrawnCommits : List WithdrawnCommitAssociation
  withdrawnRefs : List WithdrawnRefAssociation
  diagnostics : List ProjectionDiagnostic

structure RevisionCommitRangeProjection where
  units : BTreeMap RevisionId RevisionCommitRangeView

def REWRITTEN_COMMIT_ASSOCIATION_CODE : Text := text "rewritten_commit_association"

def RETRACTION_TARGET_MISSING_CODE : Text := text "retraction_target_missing"

structure CommitRangeBuilder where
  captureTarget : Option (Text × Text) := none
  associatedCommits : BTreeMap CommitAssociationId (Text × Text) := ∅
  withdrawnCommits : BTreeMap CommitAssociationId CommitWithdrawalId := ∅
  associatedRefs : BTreeMap RefAssociationId (Text × Text) := ∅
  withdrawnRefs : BTreeMap RefAssociationId RefWithdrawalId := ∅

abbrev CommitRangeBuilders : Type := BTreeMap RevisionId CommitRangeBuilder

def CommitRangeBuilders.modify (builders : CommitRangeBuilders) (revisionId : RevisionId)
    (update : CommitRangeBuilder → CommitRangeBuilder) : CommitRangeBuilders :=
  builders.alter revisionId fun builder => some (update (builder.getD {}))

namespace CommitRangeBuilder

variable (builder : CommitRangeBuilder)

def associateCommit (id : CommitAssociationId) (commit : Text × Text) : CommitRangeBuilder :=
  { builder with associatedCommits := builder.associatedCommits.insert id commit }

def withdrawCommit (id : CommitAssociationId) (withdrawal : CommitWithdrawalId) :
    CommitRangeBuilder :=
  { builder with withdrawnCommits := builder.withdrawnCommits.insert id withdrawal }

def associateRef (id : RefAssociationId) (ref : Text × Text) : CommitRangeBuilder :=
  { builder with associatedRefs := builder.associatedRefs.insert id ref }

def withdrawRef (id : RefAssociationId) (withdrawal : RefWithdrawalId) : CommitRangeBuilder :=
  { builder with withdrawnRefs := builder.withdrawnRefs.insert id withdrawal }

/-- A proposal seeds the capture target if it ends in a commit, and keeps the old one if not. -/
def propose (revision : Revision) : CommitRangeBuilder :=
  match revision.gitProvenance.bind fun provenance => provenance.target.commit with
  | some target => { builder with captureTarget := some target }
  | none => builder

end CommitRangeBuilder

/-- The Revision of a target that is a Revision itself. -/
def ReviewTargetRef.asRevision : ReviewTargetRef → Option RevisionId
  | .revision revisionId => some revisionId
  | _ => none

section FromEvents

variable {V : Type} (rt : Runtime V)

def CommitRangeBuilders.apply (builders : CommitRangeBuilders) (event : ShoreEvent V) :
    Result CommitRangeBuilders :=
  match event.eventType with
  | .workObjectProposed => do
    let payload ← fromValue rt.workObjectProposed event.payload
    match payload.workObject with
    | .revision revision _ _ => .ok (builders.modify revision.id (·.propose revision))
    | .taskAttempt _ => .ok builders
  | .revisionCommitAssociated => do
    let payload ← fromValue rt.revisionCommitAssociated event.payload
    match payload.target.asRevision, payload.commit.commit with
    | some revisionId, some commit =>
      .ok (builders.modify revisionId (·.associateCommit payload.commitAssociationId commit))
    | _, _ => .ok builders
  | .revisionCommitWithdrawn => do
    let payload ← fromValue rt.revisionCommitWithdrawn event.payload
    match payload.target.asRevision with
    | some revisionId => .ok (builders.modify revisionId
        (·.withdrawCommit payload.commitAssociationId payload.commitWithdrawalId))
    | none => .ok builders
  | .revisionRefAssociated => do
    let payload ← fromValue rt.revisionRefAssociated event.payload
    match payload.target.asRevision with
    | some revisionId => .ok (builders.modify revisionId
        (·.associateRef payload.refAssociationId (payload.refName, payload.headOid)))
    | none => .ok builders
  | .revisionRefWithdrawn => do
    let payload ← fromValue rt.revisionRefWithdrawn event.payload
    match payload.target.asRevision with
    | some revisionId => .ok (builders.modify revisionId
        (·.withdrawRef payload.refAssociationId payload.refWithdrawalId))
    | none => .ok builders
  | _ => .ok builders

end FromEvents

structure AxisPartition (ι α ω : Type) where
  current : List (ι × α)
  withdrawn : List (ι × α × ω)
  missingTargets : List ι

section Partition

variable {ι α ω : Type} [Ord ι] [TransOrd ι]

/-- The loop over the associations: the entries so far, and the withdrawals not yet used. -/
def partitionLoop (associated : List (ι × α)) (withdrawn : BTreeMap ι ω)
    (current : List (ι × α)) (history : List (ι × α × ω)) : AxisPartition ι α ω :=
  match associated with
  | [] => { current, withdrawn := history, missingTargets := withdrawn.keys }
  | (id, value) :: rest =>
    match withdrawn[id]? with
    | some withdrawal =>
      partitionLoop rest (withdrawn.erase id) current (history ++ [(id, value, withdrawal)])
    | none => partitionLoop rest withdrawn (current ++ [(id, value)]) history

def partitionAxis (associated : BTreeMap ι α) (withdrawn : BTreeMap ι ω) : AxisPartition ι α ω :=
  partitionLoop associated.toList withdrawn [] []

end Partition

def CurrentCommitAssociation.le (a b : CurrentCommitAssociation) : Prop :=
  (compare a.commitOid b.commitOid).isLE = true

def WithdrawnCommitAssociation.le (a b : WithdrawnCommitAssociation) : Prop :=
  (compare a.commitOid b.commitOid).isLE = true

def CurrentRefAssociation.le (a b : CurrentRefAssociation) : Prop :=
  ((compare a.refName b.refName).then (compare a.headOid b.headOid)).isLE = true

def WithdrawnRefAssociation.le (a b : WithdrawnRefAssociation) : Prop :=
  (compare a.refName b.refName).isLE = true

instance : DecidableRel CurrentCommitAssociation.le :=
  fun _ _ => inferInstanceAs (Decidable (_ = true))

instance : DecidableRel WithdrawnCommitAssociation.le :=
  fun _ _ => inferInstanceAs (Decidable (_ = true))

instance : DecidableRel CurrentRefAssociation.le :=
  fun _ _ => inferInstanceAs (Decidable (_ = true))

instance : DecidableRel WithdrawnRefAssociation.le :=
  fun _ _ => inferInstanceAs (Decidable (_ = true))

def missingDiagnostic (revisionId : RevisionId) (missing : Text) : ProjectionDiagnostic where
  code := RETRACTION_TARGET_MISSING_CODE
  message := text "revision " ++ revisionId.asStr ++ text " withdraws association " ++ missing ++
    text ", which has no matching association"

/-- The trees that current associations name, with their commits. -/
def oidsByTree (commits : List CurrentCommitAssociation) : BTreeMap Text (BTreeSet Text) :=
  (commits.filter fun commit => commit.source = .association).foldl
    (fun trees commit => trees.addTo commit.treeOid commit.commitOid) ∅

def rewrittenDiagnostic (revisionId : RevisionId) (entry : Text × BTreeSet Text) :
    Option ProjectionDiagnostic :=
  if 1 < entry.2.size then some
    { code := REWRITTEN_COMMIT_ASSOCIATION_CODE
      message := text "revision " ++ revisionId.asStr ++ text " has " ++
        text (toString entry.2.size) ++ text " content-equivalent commit associations for tree " ++
        entry.1 ++ text " — a rewritten landing; withdraw the stale edge" }
  else none

namespace CommitRangeBuilder

variable (builder : CommitRangeBuilder)

/-- The capture target comes first; the sort is stable. -/
def currentCommits (current : List (CommitAssociationId × (Text × Text))) :
    List CurrentCommitAssociation :=
  (builder.captureTarget.toList.map CurrentCommitAssociation.ofCapture ++
    current.map CurrentCommitAssociation.ofAssociation).insertionSort CurrentCommitAssociation.le

def finish (revisionId : RevisionId) : RevisionCommitRangeView :=
  let commitAxis := partitionAxis builder.associatedCommits builder.withdrawnCommits
  let refAxis := partitionAxis builder.associatedRefs builder.withdrawnRefs
  let currentCommits := builder.currentCommits commitAxis.current
  { revisionId
    anchored := !currentCommits.isEmpty
    currentCommits
    currentRefs := (refAxis.current.map .ofAssociation).insertionSort CurrentRefAssociation.le
    withdrawnCommits :=
      (commitAxis.withdrawn.map .ofWithdrawal).insertionSort WithdrawnCommitAssociation.le
    withdrawnRefs := (refAxis.withdrawn.map .ofWithdrawal).insertionSort WithdrawnRefAssociation.le
    diagnostics :=
      (commitAxis.missingTargets.map Ident.asStr ++ refAxis.missingTargets.map Ident.asStr).map
        (missingDiagnostic revisionId) ++
      (oidsByTree currentCommits).toList.filterMap (rewrittenDiagnostic revisionId) }

end CommitRangeBuilder

def CommitRangeBuilders.finish (builders : CommitRangeBuilders) : RevisionCommitRangeProjection where
  units := builders.map fun revisionId builder => builder.finish revisionId

def RevisionCommitRangeProjection.fromEvents {V : Type} (rt : Runtime V)
    (events : List (ShoreEvent V)) : Result RevisionCommitRangeProjection := do
  let builders ← events.foldlM (CommitRangeBuilders.apply rt) ∅
  .ok builders.finish

section Partition

variable {ι α ω : Type} [Ord ι] [TransOrd ι] [LawfulEqOrd ι] [DecidableEq ι]

theorem keys_erase (m : BTreeMap ι ω) (id : ι) : (m.erase id).keys = m.keys.filter (· ≠ id) := by
  refine eq_of_ordered (fun k => k) (m.erase id).ordered_keys (m.ordered_keys.filter _) ?_
  intro k
  rw [ExtTreeMap.mem_keys, mem_erase, mem_filter, ExtTreeMap.mem_keys, ne_eq,
    LawfulEqOrd.compare_eq_iff_eq, decide_eq_true_eq, and_comm]
  exact and_congr_right fun _ => not_congr eq_comm

theorem partitionLoop_eq (l : List (ι × α)) (hl : (l.map Prod.fst).Nodup) (w : BTreeMap ι ω)
    (current : List (ι × α)) (history : List (ι × α × ω)) :
    partitionLoop l w current history =
      { current := current ++ l.filter (fun x => w[x.1]?.isNone)
        withdrawn := history ++ l.filterMap fun x => w[x.1]?.map fun v => (x.1, x.2, v)
        missingTargets := w.keys.filter fun id => id ∉ l.map Prod.fst } := by
  induction l generalizing w current history with
  | nil => simp [partitionLoop]
  | cons x l ih =>
    obtain ⟨id, value⟩ := x
    rw [map_cons, nodup_cons] at hl
    rw [partitionLoop]
    cases hw : w[id]? with
    | some withdrawal =>
      -- The withdrawal is used up, which no later association can notice.
      have hrest : ∀ y ∈ l, (w.erase id)[y.1]? = w[y.1]? := by
        intro y hy
        rw [getElem?_erase, if_neg]
        rw [LawfulEqOrd.compare_eq_iff_eq]
        rintro rfl
        exact hl.1 (mem_map.mpr ⟨y, hy, rfl⟩)
      have hcurrent : l.filter (fun x => (w.erase id)[x.1]?.isNone) =
          l.filter fun x => w[x.1]?.isNone :=
        filter_congr fun y hy => by rw [hrest y hy]
      have hhistory : (l.filterMap fun x => (w.erase id)[x.1]?.map fun v => (x.1, x.2, v)) =
          l.filterMap fun x => w[x.1]?.map fun v => (x.1, x.2, v) :=
        filterMap_congr fun y hy => by rw [hrest y hy]
      have hmissing : (w.keys.filter (· ≠ id)).filter (fun k => k ∉ l.map Prod.fst) =
          w.keys.filter fun k => k ∉ id :: l.map Prod.fst := by
        rw [filter_filter]
        refine filter_congr fun k _ => ?_
        rw [Bool.eq_iff_iff, Bool.and_eq_true]
        simp only [decide_eq_true_eq, mem_cons, not_or]
        exact and_comm
      simp only [ih hl.2, hcurrent, hhistory, keys_erase, hmissing, filter_cons,
        filterMap_cons, hw, append_assoc, map_cons]
      rfl
    | none =>
      have hnot : id ∉ w.keys := by
        rw [ExtTreeMap.mem_keys, mem_iff]
        simp [hw]
      have hmissing : w.keys.filter (fun k => k ∉ l.map Prod.fst) =
          w.keys.filter fun k => k ∉ id :: l.map Prod.fst := by
        refine filter_congr fun k hk => ?_
        have hne : k ≠ id := fun he => hnot (he ▸ hk)
        simp [hne]
      simp only [ih hl.2, hmissing, filter_cons, filterMap_cons, hw, append_assoc,
        map_cons]
      rfl

theorem partitionAxis_eq (associated : BTreeMap ι α) (withdrawn : BTreeMap ι ω) :
    partitionAxis associated withdrawn =
      { current := associated.toList.filter (fun x => withdrawn[x.1]?.isNone)
        withdrawn := associated.toList.filterMap fun x =>
          withdrawn[x.1]?.map fun v => (x.1, x.2, v)
        missingTargets := withdrawn.keys.filter (· ∉ associated) } := by
  rw [partitionAxis, partitionLoop_eq _ (nodup_fst associated)]
  simp [map_fst_toList_eq_keys]

/-- Two axes that show the same: a withdrawal may differ only where there is no association. -/
structure AxisAlike (a a' : BTreeMap ι α) (w w' : BTreeMap ι ω) : Prop where
  associated : a = a'
  withdrawn : ∀ id, id ∈ w ↔ id ∈ w'
  history : ∀ id ∈ a, w[id]? = w'[id]?

variable {a a' : BTreeMap ι α} {w w' : BTreeMap ι ω}

theorem AxisAlike.partitionAxis_eq (h : AxisAlike a a' w w') :
    partitionAxis a w = partitionAxis a' w' := by
  obtain ⟨rfl, hw, hhistory⟩ := h
  have hget : ∀ x ∈ a.toList, w[x.1]? = w'[x.1]? := fun x hx =>
    hhistory x.1 (mem_iff.mpr ⟨x.2, mem_toList_iff.mp hx⟩)
  have hkeys : w.keys.filter (· ∉ a) = w'.keys.filter (· ∉ a) := by
    refine eq_of_ordered (fun k => k) (w.ordered_keys.filter _) (w'.ordered_keys.filter _) ?_
    intro id
    rw [mem_filter, mem_filter, ExtTreeMap.mem_keys, ExtTreeMap.mem_keys, hw]
  rw [Pointbreak.partitionAxis_eq, Pointbreak.partitionAxis_eq, hkeys,
    filter_congr fun x hx => by rw [hget x hx],
    filterMap_congr fun x hx => by rw [hget x hx]]

theorem mem_current {id : ι} {v : α} :
    (id, v) ∈ (partitionAxis a w).current ↔ a[id]? = some v ∧ w[id]? = none := by
  rw [partitionAxis_eq, mem_filter, mem_toList_iff, Option.isNone_iff_eq_none]

theorem mem_withdrawn {id : ι} {v : α} {d : ω} :
    (id, v, d) ∈ (partitionAxis a w).withdrawn ↔ a[id]? = some v ∧ w[id]? = some d := by
  rw [partitionAxis_eq, mem_filterMap]
  constructor
  · rintro ⟨⟨id', v'⟩, hx, hd⟩
    obtain ⟨d', hd', he⟩ := Option.map_eq_some_iff.mp hd
    cases he
    exact ⟨mem_toList_iff.mp hx, hd'⟩
  · rintro ⟨hv, hd⟩
    exact ⟨(id, v), mem_toList_iff.mpr hv, by rw [hd]; rfl⟩

theorem mem_missingTargets {id : ι} :
    id ∈ (partitionAxis a w).missingTargets ↔ id ∈ w ∧ id ∉ a := by
  rw [partitionAxis_eq, mem_filter, ExtTreeMap.mem_keys, decide_eq_true_eq]

theorem nodup_missingTargets : (partitionAxis a w).missingTargets.Nodup := by
  rw [partitionAxis_eq]
  exact nodup_keys.filter _

theorem axis_of_mem
    (hcurrent : ∀ x, x ∈ (partitionAxis a w).current ↔ x ∈ (partitionAxis a' w').current)
    (hwithdrawn : ∀ x, x ∈ (partitionAxis a w).withdrawn ↔ x ∈ (partitionAxis a' w').withdrawn) :
    a = a' ∧ ∀ id ∈ a, w[id]? = w'[id]? := by
  have hboth : ∀ {a a' : BTreeMap ι α} {w w' : BTreeMap ι ω},
      (∀ x, x ∈ (partitionAxis a w).current ↔ x ∈ (partitionAxis a' w').current) →
      (∀ x, x ∈ (partitionAxis a w).withdrawn ↔ x ∈ (partitionAxis a' w').withdrawn) →
      ∀ (id : ι) (v : α), a[id]? = some v → a'[id]? = some v ∧ w[id]? = w'[id]? := by
    intro a a' w w' hcurrent hwithdrawn id v hv
    cases hd : w[id]? with
    | none =>
      have h := mem_current.mp ((hcurrent (id, v)).mp (mem_current.mpr ⟨hv, hd⟩))
      exact ⟨h.1, h.2.symm⟩
    | some d =>
      have h := mem_withdrawn.mp ((hwithdrawn (id, v, d)).mp (mem_withdrawn.mpr ⟨hv, hd⟩))
      exact ⟨h.1, h.2.symm⟩
  constructor
  · refine ext_getElem? fun id => Option.ext fun v => ⟨fun hv => ?_, fun hv => ?_⟩
    · exact (hboth hcurrent hwithdrawn id v hv).1
    · exact (hboth (fun x => (hcurrent x).symm) (fun x => (hwithdrawn x).symm) id v hv).1
  · intro id hid
    obtain ⟨v, hv⟩ := mem_iff.mp hid
    exact (hboth hcurrent hwithdrawn id v hv).2

theorem subperm_missingTargets (ha : a = a') (hsub : ∀ id ∈ w, id ∈ w') :
    (partitionAxis a w).missingTargets.Subperm (partitionAxis a' w').missingTargets := by
  subst ha
  refine subperm_of_subset nodup_missingTargets fun id hid => ?_
  rw [mem_missingTargets] at hid ⊢
  exact ⟨hsub id hid.1, hid.2⟩

theorem axisAlike_of_length (ha : a = a') (hhistory : ∀ id ∈ a, w[id]? = w'[id]?)
    (hsub : ∀ id ∈ w, id ∈ w')
    (hlen : (partitionAxis a w).missingTargets.length =
      (partitionAxis a' w').missingTargets.length) : AxisAlike a a' w w' := by
  have hperm := (subperm_missingTargets ha hsub).perm_of_length_le hlen.ge
  refine ⟨ha, fun id => ⟨hsub id, fun hid => ?_⟩, hhistory⟩
  subst ha
  by_cases hida : id ∈ a
  · obtain ⟨d, hd⟩ := mem_iff.mp hid
    exact mem_iff.mpr ⟨d, (hhistory id hida).trans hd⟩
  · exact (mem_missingTargets.mp (hperm.mem_iff.mpr (mem_missingTargets.mpr ⟨hid, hida⟩))).1

end Partition

theorem mem_iff_of_sorted_map {α β : Type} {f : α → β} (hf : Function.Injective f) {r : β → β → Prop}
    [DecidableRel r] {l l' : List α}
    (h : (l.map f).insertionSort r = (l'.map f).insertionSort r) (x : α) : x ∈ l ↔ x ∈ l' := by
  have hmem : ∀ l : List α, x ∈ l ↔ f x ∈ (l.map f).insertionSort r := by
    intro l
    rw [mem_insertionSort, mem_map_of_injective hf]
  rw [hmem l, hmem l', h]

namespace CommitRangeBuilder

variable {b b' : CommitRangeBuilder}

structure Alike (b b' : CommitRangeBuilder) : Prop where
  captureTarget : b.captureTarget = b'.captureTarget
  commits : AxisAlike b.associatedCommits b'.associatedCommits b.withdrawnCommits b'.withdrawnCommits
  refs : AxisAlike b.associatedRefs b'.associatedRefs b.withdrawnRefs b'.withdrawnRefs

theorem mem_currentCommits {l : List (CommitAssociationId × (Text × Text))}
    {e : CurrentCommitAssociation} :
    e ∈ b.currentCommits l ↔
      (∃ c, b.captureTarget = some c ∧ .ofCapture c = e) ∨ ∃ x ∈ l, .ofAssociation x = e := by
  simp [currentCommits]

theorem filter_missing (r : RevisionId) :
    (b.finish r).diagnostics.filter (fun d => d.code = RETRACTION_TARGET_MISSING_CODE) =
      ((partitionAxis b.associatedCommits b.withdrawnCommits).missingTargets.map Ident.asStr ++
        (partitionAxis b.associatedRefs b.withdrawnRefs).missingTargets.map Ident.asStr).map
          (missingDiagnostic r) := by
  have hcode : REWRITTEN_COMMIT_ASSOCIATION_CODE ≠ RETRACTION_TARGET_MISSING_CODE := by
    decide +kernel
  have hrewritten : ((oidsByTree (b.currentCommits
      (partitionAxis b.associatedCommits b.withdrawnCommits).current)).toList.filterMap
      (rewrittenDiagnostic r)).filter (fun d => d.code = RETRACTION_TARGET_MISSING_CODE) = [] := by
    rw [filter_eq_nil_iff]
    intro d hd
    obtain ⟨entry, -, hd⟩ := mem_filterMap.mp hd
    unfold rewrittenDiagnostic at hd
    split at hd
    · cases hd
      simpa using hcode
    · cases hd
  simp only [finish, filter_append, hrewritten, append_nil]
  rw [filter_eq_self.mpr]
  intro d hd
  obtain ⟨_, -, rfl⟩ := mem_map.mp hd
  simp [missingDiagnostic]

theorem length_missing (r : RevisionId) :
    ((b.finish r).diagnostics.filter fun d => d.code = RETRACTION_TARGET_MISSING_CODE).length =
      (partitionAxis b.associatedCommits b.withdrawnCommits).missingTargets.length +
        (partitionAxis b.associatedRefs b.withdrawnRefs).missingTargets.length := by
  simp [filter_missing]

theorem finish_eq_iff (hcommits : ∀ id ∈ b.withdrawnCommits, id ∈ b'.withdrawnCommits)
    (hrefs : ∀ id ∈ b.withdrawnRefs, id ∈ b'.withdrawnRefs) (r : RevisionId) :
    b.finish r = b'.finish r ↔ Alike b b' := by
  refine ⟨fun h => ?_, fun h => ?_⟩
  rotate_left
  · simp only [finish, currentCommits, h.captureTarget, h.commits.partitionAxis_eq,
      h.refs.partitionAxis_eq]
  have hcommit : ∀ e, e ∈ b.currentCommits
      (partitionAxis b.associatedCommits b.withdrawnCommits).current ↔ e ∈ b'.currentCommits
      (partitionAxis b'.associatedCommits b'.withdrawnCommits).current := by
    intro e
    exact (congrArg (e ∈ ·) (congrArg RevisionCommitRangeView.currentCommits h)).to_iff
  have hcapture : b.captureTarget = b'.captureTarget := by
    refine Option.ext fun c => ?_
    have hc := hcommit (.ofCapture c)
    simpa [mem_currentCommits, CurrentCommitAssociation.ofCapture,
      CurrentCommitAssociation.ofAssociation, Prod.ext_iff] using hc
  have hcurrent : ∀ x, x ∈ (partitionAxis b.associatedCommits b.withdrawnCommits).current ↔
      x ∈ (partitionAxis b'.associatedCommits b'.withdrawnCommits).current := by
    intro x
    have hx := hcommit (.ofAssociation x)
    simpa [mem_currentCommits, CurrentCommitAssociation.ofCapture,
      CurrentCommitAssociation.ofAssociation, Prod.ext_iff] using hx
  obtain ⟨hassociated, hhistory⟩ := axis_of_mem hcurrent <| mem_iff_of_sorted_map
    (fun x y hxy => by
      simpa [WithdrawnCommitAssociation.ofWithdrawal, Prod.ext_iff, and_assoc, and_left_comm,
        and_comm] using hxy)
    (congrArg RevisionCommitRangeView.withdrawnCommits h)
  obtain ⟨hassociatedRefs, hhistoryRefs⟩ := axis_of_mem
    (mem_iff_of_sorted_map
      (fun x y hxy => by
        simpa [CurrentRefAssociation.ofAssociation, Prod.ext_iff] using hxy)
      (congrArg RevisionCommitRangeView.currentRefs h))
    (mem_iff_of_sorted_map
      (fun x y hxy => by
        simpa [WithdrawnRefAssociation.ofWithdrawal, Prod.ext_iff, and_assoc] using hxy)
      (congrArg RevisionCommitRangeView.withdrawnRefs h))
  -- As many diagnostics name missing targets, and neither axis has fewer of them.
  have hlength := length_missing (b := b) r
  rw [h, length_missing] at hlength
  have hle := (subperm_missingTargets hassociated hcommits).length_le
  have hleRefs := (subperm_missingTargets hassociatedRefs hrefs).length_le
  exact ⟨hcapture, axisAlike_of_length hassociated hhistory hcommits (by omega),
    axisAlike_of_length hassociatedRefs hhistoryRefs hrefs (by omega)⟩

end CommitRangeBuilder

end Pointbreak
