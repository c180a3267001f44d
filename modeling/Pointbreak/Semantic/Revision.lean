import Pointbreak.Projection.CommitRange
import Pointbreak.Projection.Supersession
import Pointbreak.Semantic.Carrier

/-!
# Semantic.Revision

The documents of the Revision family, from events and from facts. Strict replay keeps an older
capture target where a later proposal has none, and leaves out associations and withdrawals whose
target lies within the Revision. The documents are the same exactly when neither can be seen
(`ReadsAlike`).
-/

namespace Pointbreak

open Std BTreeMap KeyedLog ExtTreeMap ClassifiedFact

structure RevisionDocuments where
  supersession : SupersessionView
  revisionsByBase : RevisionsByBase
  commitRanges : RevisionCommitRangeProjection

def revisionDocuments {V : Type} (rt : Runtime V) (events : List (ShoreEvent V))
    (supersession : SupersessionView) : Result RevisionDocuments := do
  let revisionsByBase ← RevisionsByBase.fromEvents rt events
  let commitRanges ← RevisionCommitRangeProjection.fromEvents rt events
  .ok { supersession, revisionsByBase, commitRanges }

structure RevisionFold where
  baseBuckets : BTreeMap Text (BTreeSet RevisionId) := ∅
  builders : CommitRangeBuilders := ∅

/-- The first loop: a proposal sets the capture target, also to none. -/
def RevisionFold.capture (s : RevisionFold) (fact : SemanticFact) : SemanticResult RevisionFold :=
  match fact.kind with
  | .revision revision => do
    let id ← required fact.revisionId (text "revision_id")
    let captureTarget := revision.captureCommitOid.bind fun commitOid =>
      revision.captureTreeOid.map fun treeOid => (commitOid, treeOid)
    .ok {
      baseBuckets := match revision.baseCommitOid with
        | some base => s.baseBuckets.addTo base ⟨id⟩
        | none => s.baseBuckets
      builders := s.builders.modify ⟨id⟩ fun builder => { builder with captureTarget } }
  | _ => .ok s

/-- The second loop: associations and withdrawals of any fact with a Revision. -/
def CommitRangeBuilders.associate (builders : CommitRangeBuilders) (fact : SemanticFact) :
    SemanticResult CommitRangeBuilders :=
  match fact.revisionId with
  | none => .ok builders
  | some revisionId =>
    match fact.kind with
    | .commitAssociated association => do
      let id ← required fact.semanticId (text "semantic_id")
      .ok (builders.modify ⟨revisionId⟩
        (·.associateCommit ⟨id⟩ (association.commitOid, association.treeOid)))
    | .commitWithdrawn withdrawal => do
      let id ← required fact.semanticId (text "semantic_id")
      .ok (builders.modify ⟨revisionId⟩ (·.withdrawCommit ⟨withdrawal.associationId⟩ ⟨id⟩))
    | .refAssociated association => do
      let id ← required fact.semanticId (text "semantic_id")
      .ok (builders.modify ⟨revisionId⟩
        (·.associateRef ⟨id⟩ (association.refName, association.headOid)))
    | .refWithdrawn withdrawal => do
      let id ← required fact.semanticId (text "semantic_id")
      .ok (builders.modify ⟨revisionId⟩ (·.withdrawRef ⟨withdrawal.associationId⟩ ⟨id⟩))
    | _ => .ok builders

/-- One axis of the reducer's own `finish`, which pushes the views as it goes: the current ones, the
withdrawn ones, and the withdrawals not used. -/
def viewLoop {ι α ω γ δ : Type} [Ord ι] [TransOrd ι] (current : ι × α → γ)
    (history : ι × α × ω → δ) :
    List (ι × α) → BTreeMap ι ω → List γ → List δ → List γ × List δ × BTreeMap ι ω
  | [], withdrawn, currents, histories => (currents, histories, withdrawn)
  | (id, value) :: rest, withdrawn, currents, histories =>
    match withdrawn[id]? with
    | some withdrawal => viewLoop current history rest (withdrawn.erase id) currents
        (histories ++ [history (id, value, withdrawal)])
    | none => viewLoop current history rest withdrawn (currents ++ [current (id, value)]) histories

/-- The `finish` that the fact reducer has for itself. -/
def CommitRangeBuilder.finishFacts (builder : CommitRangeBuilder) (revisionId : RevisionId) :
    RevisionCommitRangeView :=
  let (currentCommits, withdrawnCommitViews, withdrawnCommits) :=
    viewLoop CurrentCommitAssociation.ofAssociation WithdrawnCommitAssociation.ofWithdrawal
      builder.associatedCommits.toList builder.withdrawnCommits
      (builder.captureTarget.toList.map CurrentCommitAssociation.ofCapture) []
  let (currentRefs, withdrawnRefViews, withdrawnRefs) :=
    viewLoop CurrentRefAssociation.ofAssociation WithdrawnRefAssociation.ofWithdrawal
      builder.associatedRefs.toList builder.withdrawnRefs [] []
  let missing := (withdrawnCommits.keys.map Ident.asStr ++ withdrawnRefs.keys.map Ident.asStr).map
    (missingDiagnostic revisionId)
  let currentCommits := currentCommits.insertionSort CurrentCommitAssociation.le
  { revisionId
    anchored := !currentCommits.isEmpty
    currentCommits
    currentRefs := currentRefs.insertionSort CurrentRefAssociation.le
    withdrawnCommits := withdrawnCommitViews.insertionSort WithdrawnCommitAssociation.le
    withdrawnRefs := withdrawnRefViews.insertionSort WithdrawnRefAssociation.le
    diagnostics := missing ++
      (oidsByTree currentCommits).toList.filterMap (rewrittenDiagnostic revisionId) }

def revisionDocumentsFromFacts (facts : List SemanticFact) (supersession : SupersessionView) :
    SemanticResult RevisionDocuments := do
  let captured ← facts.foldlM RevisionFold.capture {}
  let builders ← facts.foldlM CommitRangeBuilders.associate captured.builders
  .ok { supersession, revisionsByBase := { buckets := captured.baseBuckets },
        commitRanges := {
          units := builders.map fun revisionId builder => builder.finishFacts revisionId } }

theorem viewLoop_eq {ι α ω γ δ : Type} [Ord ι] [TransOrd ι] (view : ι × α → γ)
    (history : ι × α × ω → δ) (seed : List γ) (associated : List (ι × α)) (withdrawn : BTreeMap ι ω)
    (current : List (ι × α)) (past : List (ι × α × ω)) :
    ∃ unused,
      viewLoop view history associated withdrawn (seed ++ current.map view) (past.map history) =
        (seed ++ (partitionLoop associated withdrawn current past).current.map view,
          (partitionLoop associated withdrawn current past).withdrawn.map history, unused) ∧
      unused.keys = (partitionLoop associated withdrawn current past).missingTargets := by
  induction associated generalizing withdrawn current past with
  | nil => exact ⟨withdrawn, rfl, rfl⟩
  | cons entry associated ih =>
    obtain ⟨id, value⟩ := entry
    rw [viewLoop, partitionLoop]
    cases withdrawn[id]? with
    | some withdrawal =>
      simpa using ih (withdrawn.erase id) current (past ++ [(id, value, withdrawal)])
    | none => simpa using ih withdrawn (current ++ [(id, value)]) past

theorem CommitRangeBuilder.finishFacts_eq (builder : CommitRangeBuilder) (revisionId : RevisionId) :
    builder.finishFacts revisionId = builder.finish revisionId := by
  obtain ⟨unusedCommits, hcommits, hmissingCommits⟩ := viewLoop_eq
    CurrentCommitAssociation.ofAssociation WithdrawnCommitAssociation.ofWithdrawal
    (builder.captureTarget.toList.map CurrentCommitAssociation.ofCapture)
    builder.associatedCommits.toList builder.withdrawnCommits [] []
  obtain ⟨unusedRefs, hrefs, hmissingRefs⟩ := viewLoop_eq
    CurrentRefAssociation.ofAssociation WithdrawnRefAssociation.ofWithdrawal []
    builder.associatedRefs.toList builder.withdrawnRefs [] []
  simp only [List.map_nil, List.append_nil, List.nil_append] at hcommits hrefs
  simp only [finishFacts, finish, hcommits, hrefs, hmissingCommits, hmissingRefs, partitionAxis,
    currentCommits]

/-- What a record says of a Revision. -/
inductive RangeEntry where
  | captured (target : Option (Text × Text))
  | commitAssociated (id : CommitAssociationId) (commit : Text × Text)
  | commitWithdrawn (id : CommitAssociationId) (withdrawal : CommitWithdrawalId)
  | refAssociated (id : RefAssociationId) (ref : Text × Text)
  | refWithdrawn (id : RefAssociationId) (withdrawal : RefWithdrawalId)

namespace RangeEntry

def capture : RangeEntry → Option (Option (Text × Text))
  | captured target => some target
  | _ => none

def commit (id : CommitAssociationId) : RangeEntry → Option (Text × Text)
  | commitAssociated id' commit => if id' = id then some commit else none
  | _ => none

def commitWithdrawal (id : CommitAssociationId) : RangeEntry → Option CommitWithdrawalId
  | commitWithdrawn id' withdrawal => if id' = id then some withdrawal else none
  | _ => none

def ref (id : RefAssociationId) : RangeEntry → Option (Text × Text)
  | refAssociated id' ref => if id' = id then some ref else none
  | _ => none

def refWithdrawal (id : RefAssociationId) : RangeEntry → Option RefWithdrawalId
  | refWithdrawn id' withdrawal => if id' = id then some withdrawal else none
  | _ => none

end RangeEntry

/-- A proposal, an association or a withdrawal, and whether its target is the Revision itself. -/
structure RangeRecord where
  revisionId : RevisionId
  atRevision : Bool
  entry : RangeEntry

def RangeRecord.of (target : ReviewTargetRef) (entry : RangeEntry) : RangeRecord where
  revisionId := target.revisionOf
  atRevision := target.asRevision.isSome
  entry

section Records

variable {V : Type} (rt : Runtime V)

def rangeRecord (e : ShoreEvent V) : Option RangeRecord :=
  match e.eventType with
  | .workObjectProposed =>
    (rt.workObjectProposed e.payload).toOption.bind fun p =>
      match p.workObject with
      | .revision revision _ _ => some
          { revisionId := revision.id, atRevision := true,
            entry := .captured (revision.gitProvenance.bind (·.target.commit)) }
      | .taskAttempt _ => none
  | .revisionCommitAssociated =>
    (rt.revisionCommitAssociated e.payload).toOption.bind fun p =>
      p.commit.commit.map fun commit => .of p.target (.commitAssociated p.commitAssociationId commit)
  | .revisionCommitWithdrawn =>
    (rt.revisionCommitWithdrawn e.payload).toOption.map fun p =>
      .of p.target (.commitWithdrawn p.commitAssociationId p.commitWithdrawalId)
  | .revisionRefAssociated =>
    (rt.revisionRefAssociated e.payload).toOption.map fun p =>
      .of p.target (.refAssociated p.refAssociationId (p.refName, p.headOid))
  | .revisionRefWithdrawn =>
    (rt.revisionRefWithdrawn e.payload).toOption.map fun p =>
      .of p.target (.refWithdrawn p.refAssociationId p.refWithdrawalId)
  | _ => none

def rangeRecords (E : List (ShoreEvent V)) (r : RevisionId) : List RangeRecord :=
  (E.filterMap (rangeRecord rt)).filter fun record => record.revisionId = r

end Records

def latest {α : Type} (read : RangeEntry → Option α) (records : List RangeRecord) : Option α :=
  (records.filterMap fun record => read record.entry).getLast?

def atRevision (records : List RangeRecord) : List RangeRecord :=
  records.filter RangeRecord.atRevision

/-- Where the two folds over the associations and withdrawals of one kind cannot be told apart. -/
structure AxisReadsAlike {ι α ω : Type} (association : ι → RangeEntry → Option α)
    (withdrawal : ι → RangeEntry → Option ω) (records : List RangeRecord) : Prop where
  /-- The last association of an id is about the Revision itself, or says the same as the last one
  that is. -/
  associated : ∀ id, latest (association id) (atRevision records) = latest (association id) records
  /-- What is withdrawn is withdrawn from the Revision itself. -/
  withdrawn : ∀ id, (latest (withdrawal id) records).isSome = true →
    (latest (withdrawal id) (atRevision records)).isSome = true
  /-- Where there is an association, so is its last withdrawal, or it says the same. -/
  history : ∀ id, (latest (association id) records).isSome = true →
    latest (withdrawal id) (atRevision records) = latest (withdrawal id) records

/-- Where the two folds over the records of one Revision cannot be told apart. -/
structure ReadsAlike (records : List RangeRecord) : Prop where
  /-- If the last proposal has no commit, then none has. -/
  captured : latest RangeEntry.capture records = some none →
    ∀ target, some target ∉ records.filterMap fun record => record.entry.capture
  commits : AxisReadsAlike RangeEntry.commit RangeEntry.commitWithdrawal records
  refs : AxisReadsAlike RangeEntry.ref RangeEntry.refWithdrawal records

variable {α : Type}

section Built

/-- Enters what a record says. A proposal without a commit keeps the capture target or clears it. -/
def CommitRangeBuilder.enter (keep : Bool) (b : CommitRangeBuilder) :
    RangeEntry → CommitRangeBuilder
  | .captured target =>
    { b with captureTarget := if keep then target.or b.captureTarget else target }
  | .commitAssociated id commit => b.associateCommit id commit
  | .commitWithdrawn id withdrawal => b.withdrawCommit id withdrawal
  | .refAssociated id ref => b.associateRef id ref
  | .refWithdrawn id withdrawal => b.withdrawRef id withdrawal

variable (keep : Bool) (l : List RangeRecord)

def built : CommitRangeBuilder := l.foldl (fun b record => b.enter keep record.entry) {}

theorem latest_append (read : RangeEntry → Option α) (x : RangeRecord) :
    latest read (l ++ [x]) = (read x.entry).or (latest read l) := by
  rw [latest, List.filterMap_append, List.getLast?_append]
  cases h : read x.entry <;> simp [h, latest]

variable {keep} in
theorem built_eq_latest (get : CommitRangeBuilder → Option α) (read : RangeEntry → Option α)
    (hinit : get {} = none)
    (hstep : ∀ b entry, get (b.enter keep entry) = (read entry).or (get b)) :
    get (built keep l) = latest read l := by
  induction l using List.reverseRecOn with
  | nil => exact hinit
  | append_singleton l x ih =>
    rw [latest_append, ← ih, built, List.foldl_append, List.foldl_cons, List.foldl_nil, hstep]
    rfl

theorem get_insert_or {κ α : Type} [Ord κ] [TransOrd κ] [LawfulEqOrd κ] [DecidableEq κ]
    {m : BTreeMap κ α} {k id : κ} {v : α} :
    (m.insert k v)[id]? = (if k = id then some v else none).or m[id]? := by
  rw [get_insert]
  split <;> rfl

theorem get_associatedCommits (id : CommitAssociationId) :
    (built keep l).associatedCommits[id]? = latest (RangeEntry.commit id) l := by
  refine built_eq_latest l (fun b => b.associatedCommits[id]?) _ (by simp) fun b entry => ?_
  cases entry with
  | commitAssociated => exact get_insert_or
  | _ => rfl

theorem get_withdrawnCommits (id : CommitAssociationId) :
    (built keep l).withdrawnCommits[id]? = latest (RangeEntry.commitWithdrawal id) l := by
  refine built_eq_latest l (fun b => b.withdrawnCommits[id]?) _ (by simp) fun b entry => ?_
  cases entry with
  | commitWithdrawn => exact get_insert_or
  | _ => rfl

theorem get_associatedRefs (id : RefAssociationId) :
    (built keep l).associatedRefs[id]? = latest (RangeEntry.ref id) l := by
  refine built_eq_latest l (fun b => b.associatedRefs[id]?) _ (by simp) fun b entry => ?_
  cases entry with
  | refAssociated => exact get_insert_or
  | _ => rfl

theorem get_withdrawnRefs (id : RefAssociationId) :
    (built keep l).withdrawnRefs[id]? = latest (RangeEntry.refWithdrawal id) l := by
  refine built_eq_latest l (fun b => b.withdrawnRefs[id]?) _ (by simp) fun b entry => ?_
  cases entry with
  | refWithdrawn => exact get_insert_or
  | _ => rfl

theorem captureTarget_keep :
    (built true l).captureTarget = latest (fun entry => entry.capture.join) l := by
  refine built_eq_latest l CommitRangeBuilder.captureTarget _ rfl fun b entry => ?_
  cases entry <;> rfl

theorem captureTarget_overwrite :
    (built false l).captureTarget = (latest RangeEntry.capture l).join := by
  induction l using List.reverseRecOn with
  | nil => rfl
  | append_singleton l x ih =>
    rw [latest_append, built, List.foldl_append, List.foldl_cons, List.foldl_nil]
    cases hx : x.entry with
    | captured target => rfl
    | _ => exact ih

theorem captured_agree_iff (l : List (Option α)) :
    (l.filterMap fun x => x).getLast? = l.getLast?.join ↔
      (l.getLast? = some none → ∀ a, some a ∉ l) := by
  induction l using List.reverseRecOn with
  | nil => simp
  | append_singleton l x _ =>
    cases x with
    | none =>
      simp only [List.filterMap_append, List.filterMap_cons_none, List.filterMap_nil,
        List.append_nil, List.getLast?_concat, Option.join_some, List.getLast?_eq_none_iff,
        List.filterMap_eq_nil_iff, List.mem_append, List.mem_singleton, forall_const]
      simp [Option.forall]
    | some a => simp

end Built

section Compare

variable {records : List RangeRecord}

/-- The order in which the reducer over facts enters records: the proposals come first. -/
def capturesFirst (records : List RangeRecord) : List RangeRecord :=
  (records.filter fun record => record.entry.capture.isSome) ++
    records.filter fun record => !record.entry.capture.isSome

theorem filterMap_filter_eq {β : Type} {f : α → Option β} {p : α → Bool} {l : List α}
    (h : ∀ x ∈ l, p x = false → f x = none) : (l.filter p).filterMap f = l.filterMap f := by
  rw [List.filterMap_filter]
  refine List.filterMap_congr fun x hx => ?_
  split
  · rfl
  · rename_i hp
    exact (h x hx (Bool.not_eq_true _ ▸ hp)).symm

theorem latest_capturesFirst_capture :
    latest RangeEntry.capture (capturesFirst records) = latest RangeEntry.capture records := by
  have hrest : (records.filter fun record => !record.entry.capture.isSome).filterMap
      (fun record => record.entry.capture) = [] := by
    rw [List.filterMap_eq_nil_iff]
    intro record hrecord
    simpa using (List.mem_filter.mp hrecord).2
  rw [latest, latest, capturesFirst, List.filterMap_append, hrest, List.append_nil,
    filterMap_filter_eq]
  intro record _ hnot
  simpa using hnot

theorem latest_capturesFirst {read : RangeEntry → Option α}
    (hread : ∀ target, read (.captured target) = none) :
    latest read (capturesFirst records) = latest read records := by
  have hnone : ∀ entry : RangeEntry, entry.capture.isSome = true → read entry = none := by
    intro entry hentry
    cases entry with
    | captured target => exact hread target
    | _ => cases hentry
  have hcaptures : (records.filter fun record => record.entry.capture.isSome).filterMap
      (fun record => read record.entry) = [] :=
    List.filterMap_eq_nil_iff.mpr fun record hrecord => hnone _ (List.mem_filter.mp hrecord).2
  rw [latest, latest, capturesFirst, List.filterMap_append, hcaptures, List.nil_append,
    filterMap_filter_eq]
  intro record _ hnot
  exact hnone _ (by simpa using hnot)

theorem latest_isSome_of_atRevision {read : RangeEntry → Option α}
    (h : (latest read (atRevision records)).isSome = true) :
    (latest read records).isSome = true := by
  rw [latest, List.getLast?_isSome] at h ⊢
  obtain ⟨a, ha⟩ := List.exists_mem_of_ne_nil _ h
  obtain ⟨record, hrecord, hread⟩ := List.mem_filterMap.mp ha
  exact List.ne_nil_of_mem (List.mem_filterMap.mpr ⟨record, (List.mem_filter.mp hrecord).1, hread⟩)

theorem axisAlike_iff {ι α ω : Type} [Ord ι] [TransOrd ι] [LawfulEqOrd ι] [DecidableEq ι]
    {association : ι → RangeEntry → Option α} {withdrawal : ι → RangeEntry → Option ω}
    {a a' : BTreeMap ι α} {w w' : BTreeMap ι ω}
    (ha : ∀ id : ι, a[id]? = latest (association id) (atRevision records))
    (ha' : ∀ id : ι, a'[id]? = latest (association id) records)
    (hw : ∀ id : ι, w[id]? = latest (withdrawal id) (atRevision records))
    (hw' : ∀ id : ι, w'[id]? = latest (withdrawal id) records) :
    AxisAlike a a' w w' ↔ AxisReadsAlike association withdrawal records := by
  constructor
  · rintro ⟨hassociated, hwithdrawn, hhistory⟩
    refine ⟨fun id => ?_, fun id h => ?_, fun id h => ?_⟩
    · rw [← ha, ← ha', hassociated]
    · rw [← hw', ← mem_iff_isSome_getElem?] at h
      rw [← hw, ← mem_iff_isSome_getElem?]
      exact (hwithdrawn id).mpr h
    · rw [← ha', ← mem_iff_isSome_getElem?, ← hassociated] at h
      rw [← hw, ← hw']
      exact hhistory id h
  · rintro ⟨hassociated, hwithdrawn, hhistory⟩
    refine ⟨ext_getElem? fun id => by rw [ha, ha', hassociated], fun id => ?_,
      fun id h => ?_⟩
    · rw [mem_iff_isSome_getElem?, mem_iff_isSome_getElem?, hw, hw']
      exact ⟨latest_isSome_of_atRevision, hwithdrawn id⟩
    · rw [mem_iff_isSome_getElem?, ha, hassociated] at h
      rw [hw, hw']
      exact hhistory id h

/-- Proposals are about the Revision itself. -/
def ProposalsAtRevision (records : List RangeRecord) : Prop :=
  ∀ record ∈ records, record.entry.capture.isSome = true → record.atRevision = true

theorem filterMap_capture_atRevision (h : ProposalsAtRevision records) :
    (atRevision records).filterMap (fun record => record.entry.capture) =
      records.filterMap fun record => record.entry.capture := by
  refine filterMap_filter_eq fun record hrecord hnot => ?_
  rw [← Option.not_isSome_iff_eq_none]
  intro hsome
  rw [h record hrecord hsome] at hnot
  cases hnot

theorem alike_iff (h : ProposalsAtRevision records) :
    CommitRangeBuilder.Alike (built true (atRevision records)) (built false (capturesFirst records)) ↔
      ReadsAlike records := by
  have hcapture : (built true (atRevision records)).captureTarget =
        (built false (capturesFirst records)).captureTarget ↔
      (latest RangeEntry.capture records = some none →
        ∀ target, some target ∉ records.filterMap fun record => record.entry.capture) := by
    rw [captureTarget_keep, captureTarget_overwrite, latest_capturesFirst_capture, latest, latest,
      ← captured_agree_iff, ← filterMap_capture_atRevision h, List.filterMap_filterMap]
    have hjoin : (fun record : RangeRecord => record.entry.capture.bind fun x => x) =
        fun record => record.entry.capture.join := by
      funext record
      cases record.entry.capture <;> rfl
    rw [hjoin]
  have hcommits := axisAlike_iff (get_associatedCommits true (atRevision records))
    (fun id => (get_associatedCommits false _ id).trans (latest_capturesFirst fun _ => rfl))
    (get_withdrawnCommits true _)
    (fun id => (get_withdrawnCommits false _ id).trans (latest_capturesFirst fun _ => rfl))
  have hrefs := axisAlike_iff (get_associatedRefs true (atRevision records))
    (fun id => (get_associatedRefs false _ id).trans (latest_capturesFirst fun _ => rfl))
    (get_withdrawnRefs true _)
    (fun id => (get_withdrawnRefs false _ id).trans (latest_capturesFirst fun _ => rfl))
  constructor
  · rintro ⟨hc, hcm, hrf⟩
    exact ⟨hcapture.mp hc, hcommits.mp hcm, hrefs.mp hrf⟩
  · rintro ⟨hc, hcm, hrf⟩
    exact ⟨hcapture.mpr hc, hcommits.mpr hcm, hrefs.mpr hrf⟩

def viewOf (keep : Bool) (r : RevisionId) (l : List RangeRecord) : Option RevisionCommitRangeView :=
  if l = [] then none else some ((built keep l).finish r)

theorem ReadsAlike.atRevision_ne_nil (h : ReadsAlike records) (hp : ProposalsAtRevision records)
    (hne : records ≠ []) : atRevision records ≠ [] := by
  intro hnil
  obtain ⟨record, hrecord⟩ := List.exists_mem_of_ne_nil _ hne
  -- A record within the Revision would be seen by one fold only.
  have hunseen : ∀ {α : Type} (read : RangeEntry → Option α), ((latest read records).isSome = true →
      (latest read (atRevision records)).isSome = true) → read record.entry = none := by
    intro α read hseen
    rw [hnil, latest, List.getLast?_isSome] at hseen
    rw [← Option.not_isSome_iff_eq_none, Option.isSome_iff_exists]
    rintro ⟨a, ha⟩
    cases hseen (List.ne_nil_of_mem (List.mem_filterMap.mpr ⟨record, hrecord, ha⟩))
  cases hentry : record.entry with
  | captured target =>
    have hmem : record ∈ atRevision records :=
      List.mem_filter.mpr ⟨hrecord, hp record hrecord (by rw [hentry]; rfl)⟩
    rw [hnil] at hmem
    cases hmem
  | commitAssociated id commit =>
    have hseen := hunseen (RangeEntry.commit id)
    simp [h.commits.associated, hentry, RangeEntry.commit] at hseen
  | commitWithdrawn id withdrawal =>
    simpa [hentry, RangeEntry.commitWithdrawal] using hunseen _ (h.commits.withdrawn id)
  | refAssociated id ref =>
    have hseen := hunseen (RangeEntry.ref id)
    simp [h.refs.associated, hentry, RangeEntry.ref] at hseen
  | refWithdrawn id withdrawal =>
    simpa [hentry, RangeEntry.refWithdrawal] using hunseen _ (h.refs.withdrawn id)

theorem capturesFirst_eq_nil : capturesFirst records = [] ↔ records = [] := by
  have hperm : (capturesFirst records).Perm records := List.filter_append_perm ..
  rw [← List.length_eq_zero_iff, hperm.length_eq, List.length_eq_zero_iff]

theorem readsAlike_nil : ReadsAlike [] where
  captured := nofun
  commits := ⟨fun _ => rfl, fun _ h => h, fun _ _ => rfl⟩
  refs := ⟨fun _ => rfl, fun _ h => h, fun _ _ => rfl⟩

theorem viewOf_eq_iff (h : ProposalsAtRevision records) (r : RevisionId) :
    viewOf true r (atRevision records) = viewOf false r (capturesFirst records) ↔
      ReadsAlike records := by
  by_cases hne : records = []
  · subst hne
    exact ⟨fun _ => readsAlike_nil, fun _ => rfl⟩
  · have hfirst : capturesFirst records ≠ [] := fun hnil => hne (capturesFirst_eq_nil.mp hnil)
    by_cases hat : atRevision records = []
    · rw [viewOf, viewOf, if_pos hat, if_neg hfirst]
      exact ⟨nofun, fun halike => absurd hat (halike.atRevision_ne_nil h hne)⟩
    · rw [viewOf, viewOf, if_neg hat, if_neg hfirst, Option.some.injEq, ← alike_iff h]
      refine CommitRangeBuilder.finish_eq_iff (fun id hid => ?_) (fun id hid => ?_) r
      · rw [mem_iff_isSome_getElem?, get_withdrawnCommits] at hid ⊢
        rw [latest_capturesFirst fun _ => rfl]
        exact latest_isSome_of_atRevision hid
      · rw [mem_iff_isSome_getElem?, get_withdrawnRefs] at hid ⊢
        rw [latest_capturesFirst fun _ => rfl]
        exact latest_isSome_of_atRevision hid

theorem ReadsAlike.of_plain (h : ∀ record ∈ records, record.atRevision = true ∧
    record.entry.capture ≠ some none) : ReadsAlike records := by
  have hat : atRevision records = records := List.filter_eq_self.mpr fun record hr => (h record hr).1
  refine ⟨fun hlast => ?_, ⟨fun id => ?_, fun id => ?_, fun id _ => ?_⟩,
    ⟨fun id => ?_, fun id => ?_, fun id _ => ?_⟩⟩
  · obtain ⟨record, hr, hcapture⟩ := List.mem_filterMap.mp (List.mem_of_getLast? hlast)
    exact absurd hcapture (h record hr).2
  all_goals rw [hat]
  all_goals exact fun hsome => hsome

end Compare

section Folds

def CommitRangeBuilders.enter (keep : Bool) (builders : CommitRangeBuilders) (record : RangeRecord) :
    CommitRangeBuilders :=
  builders.modify record.revisionId (·.enter keep record.entry)

variable (keep : Bool)

theorem get_units (l : List RangeRecord) (r : RevisionId) :
    (l.foldl (CommitRangeBuilders.enter keep) ∅).finish.units[r]? =
      viewOf keep r (l.filter fun record => record.revisionId = r) := by
  have hget : (l.foldl (CommitRangeBuilders.enter keep) ∅)[r]? =
      (entries (fun record => some (record.revisionId, record)) r l).foldl
        (fun old record => some ((old.getD {}).enter keep record.entry)) none := by
    refine get_foldl_alter id (fun (old : Option CommitRangeBuilder) (record : RangeRecord) =>
      (old.getD {}).enter keep record.entry) ?_ l ∅ r
    exact fun _ _ => rfl
  rw [CommitRangeBuilders.finish, getElem?_map, hget, entries_some, viewOf,
    foldl_accumulate fun (b : CommitRangeBuilder) (record : RangeRecord) => b.enter keep record.entry]
  split
  · simp
  · simp [built]

variable {V : Type} {rt : Runtime V} {e : ShoreEvent V} {f : SemanticFact}

def CommitRangeBuilders.enterSome (keep : Bool) (builders : CommitRangeBuilders)
    (record : Option RangeRecord) : CommitRangeBuilders :=
  match record with
  | some record => builders.enter keep record
  | none => builders

theorem foldl_enterSome (read : α → Option RangeRecord) (l : List α)
    (builders : CommitRangeBuilders) :
    l.foldl (fun builders a => builders.enterSome keep (read a)) builders =
      (l.filterMap read).foldl (CommitRangeBuilders.enter keep) builders := by
  rw [List.foldl_filterMap]
  congr 1
  funext builders a
  unfold CommitRangeBuilders.enterSome
  cases read a <;> rfl

theorem propose_eq_enter (revision : Revision) (b : CommitRangeBuilder) :
    b.propose revision =
      b.enter true (.captured (revision.gitProvenance.bind (·.target.commit))) := by
  unfold CommitRangeBuilder.propose CommitRangeBuilder.enter
  cases revision.gitProvenance.bind fun provenance => provenance.target.commit <;> rfl

/-- Strict replay reads the payload, whatever the builders, and enters the record if it is about the
Revision itself. -/
theorem apply_eq (builders : CommitRangeBuilders) (e : ShoreEvent V) :
    builders.apply rt e = (CommitRangeBuilders.apply rt ∅ e).map fun _ =>
      builders.enterSome true ((rangeRecord rt e).filter RangeRecord.atRevision) := by
  unfold CommitRangeBuilders.apply rangeRecord fromValue
  cases e.eventType with
  | workObjectProposed =>
    rcases rt.workObjectProposed e.payload with error | ⟨engagement, object⟩
    · rfl
    · cases object with
      | revision revision hash supersedes =>
        simp only [propose_eq_enter]
        rfl
      | taskAttempt id => rfl
  | revisionCommitAssociated =>
    rcases rt.revisionCommitAssociated e.payload with error | ⟨id, target, commit⟩
    · rfl
    · cases commit <;> cases target <;> rfl
  | revisionCommitWithdrawn =>
    rcases rt.revisionCommitWithdrawn e.payload with error | ⟨id, target, association⟩
    · rfl
    · cases target <;> rfl
  | revisionRefAssociated =>
    rcases rt.revisionRefAssociated e.payload with error | ⟨id, target, name, head⟩
    · rfl
    · cases target <;> rfl
  | revisionRefWithdrawn =>
    rcases rt.revisionRefWithdrawn e.payload with error | ⟨id, target, association⟩
    · rfl
    · cases target <;> rfl
  | _ => rfl

theorem apply_isOk (h : FactOf rt e f) : ∃ b, CommitRangeBuilders.apply rt ∅ e = .ok b := by
  have hreads := h.reads
  unfold Reads at hreads
  unfold CommitRangeBuilders.apply
  cases ht : e.eventType <;> simp only [ht] at hreads ⊢ <;> try exact ⟨_, rfl⟩
  case workObjectProposed =>
    obtain ⟨⟨engagement, object⟩, hp, -⟩ := hreads
    rw [fromValue, hp]
    cases object <;> exact ⟨_, rfl⟩
  case revisionCommitAssociated =>
    obtain ⟨⟨id, target, commit⟩, hp, -⟩ := hreads
    rw [fromValue, hp]
    cases target <;> cases commit <;> exact ⟨_, rfl⟩
  all_goals
    obtain ⟨⟨id, target, _⟩, hp, -⟩ := hreads
    rw [fromValue, hp]
    cases target <;> exact ⟨_, rfl⟩

theorem capture_isSome_of_rangeRecord {record : RangeRecord} (h : rangeRecord rt e = some record) :
    record.entry.capture.isSome = decide (e.eventType = .workObjectProposed) := by
  unfold rangeRecord at h
  cases ht : e.eventType <;>
    simp only [ht, Option.bind_eq_some_iff, Option.map_eq_some_iff, reduceCtorEq] at h
  case workObjectProposed =>
    obtain ⟨p, -, hp⟩ := h
    split at hp
    · cases hp
      rfl
    · cases hp
  case revisionCommitAssociated =>
    obtain ⟨p, -, commit, -, rfl⟩ := h
    rfl
  all_goals
    obtain ⟨p, -, rfl⟩ := h
    rfl

theorem capture_eq (h : FactOf rt e f) (s : RevisionFold) :
    ∃ buckets, s.capture f = .ok
      { baseBuckets := buckets
        builders := s.builders.enterSome false
          ((rangeRecord rt e).filter fun record => record.entry.capture.isSome) } ∧
      RevisionsByBase.apply rt s.baseBuckets e = .ok buckets := by
  unfold RevisionFold.capture RevisionsByBase.apply
  by_cases ht : e.eventType = .workObjectProposed
  · have hreads := h.reads
    simp only [Reads, ht] at hreads
    obtain ⟨⟨engagement, object⟩, hp, hc⟩ := hreads
    simp only [rangeRecord, ht, if_true, fromValue, hp]
    cases object with
    | revision revision hash supersedes =>
      simp only [ClassifiedFact.proposed, ClassifiedFact.mk.injEq] at hc
      have hzip : ((revision.gitProvenance.bind fun p => p.target.commit.map Prod.fst).bind
          fun commitOid => (revision.gitProvenance.bind fun p => p.target.commit.map Prod.snd).map
            fun treeOid => (commitOid, treeOid)) =
          revision.gitProvenance.bind (·.target.commit) := by
        cases revision.gitProvenance with
        | none => rfl
        | some p =>
          simp only [Option.bind_some]
          cases p.target.commit <;> rfl
      refine ⟨_, by simp only [hc, required_some, hzip]; rfl, ?_⟩
      change Except.ok (enterBase s.baseBuckets ⟨engagement, .revision revision hash supersedes⟩) = _
      simp only [enterBase]
      cases revision.gitProvenance with
      | none => rfl
      | some p =>
        simp only [Option.bind_some]
        cases p.base.commit <;> rfl
    | taskAttempt id =>
      simp only [ClassifiedFact.proposed, ClassifiedFact.other, ClassifiedFact.mk.injEq] at hc
      simp only [hc]
      exact ⟨_, rfl, rfl⟩
  · have hnone : (rangeRecord rt e).filter (fun record => record.entry.capture.isSome) = none := by
      rw [Option.filter_eq_none_iff]
      intro record hrecord
      simp [capture_isSome_of_rangeRecord hrecord, ht]
    have hkind := h.kindOf
    rw [hnone, if_neg ht]
    split
    · rename_i revision hrevision
      rw [hrevision] at hkind
      exact absurd hkind ht
    · exact ⟨_, rfl, rfl⟩

theorem associate_eq (h : FactOf rt e f) (builders : CommitRangeBuilders) :
    builders.associate f = .ok (builders.enterSome false
      ((rangeRecord rt e).filter fun record => !record.entry.capture.isSome)) := by
  have hreads := h.reads
  have hkind := h.kindOf
  unfold Reads at hreads
  unfold CommitRangeBuilders.associate rangeRecord
  cases ht : e.eventType <;> simp only [ht] at hreads hkind ⊢
  case revisionCommitAssociated =>
    obtain ⟨⟨id, target, commit⟩, hp, hc⟩ := hreads
    rw [hp]
    cases commit <;>
    · simp only [commitAssociated, ClassifiedFact.mk.injEq] at hc
      simp only [hc]
      rfl
  case revisionCommitWithdrawn | revisionRefAssociated | revisionRefWithdrawn =>
    obtain ⟨p, hp, hc⟩ := hreads
    rw [hp]
    simp only [commitWithdrawn, refAssociated,
      refWithdrawn, ClassifiedFact.mk.injEq] at hc
    simp only [hc]
    rfl
  case workObjectProposed =>
    obtain ⟨⟨engagement, object⟩, hp, hc⟩ := hreads
    rw [hp]
    cases object <;>
    · simp only [ClassifiedFact.proposed, ClassifiedFact.other, ClassifiedFact.mk.injEq] at hc
      simp only [hc]
      rfl
  all_goals
    -- no other fact is of one of the four kinds
    split
    · rfl
    · cases hf : f.kind <;> first | rfl | (rw [hf] at hkind; cases hkind)

variable {E : List (ShoreEvent V)} {facts : List SemanticFact}

theorem foldlM_apply_eq_ok {E : List (ShoreEvent V)} {builders builders' : CommitRangeBuilders} :
    E.foldlM (CommitRangeBuilders.apply rt) builders = .ok builders' ↔
      (∀ e ∈ E, ∃ b, CommitRangeBuilders.apply rt ∅ e = .ok b) ∧
        (atRevision (E.filterMap (rangeRecord rt))).foldl (CommitRangeBuilders.enter true) builders =
          builders' := by
  rw [atRevision, List.filter_filterMap]
  induction E generalizing builders with
  | nil => simp [pure, Except.pure]
  | cons e E ih =>
    rw [List.foldlM_cons, apply_eq, List.forall_mem_cons]
    cases CommitRangeBuilders.apply rt ∅ e with
    | error error => simp [Except.map, bind, Except.bind]
    | ok b =>
      simp only [Except.map, bind, Except.bind, ih, Except.ok.injEq, exists_eq', true_and,
        List.filterMap_cons]
      cases (rangeRecord rt e).filter RangeRecord.atRevision <;> rfl

theorem foldlM_capture (hE : List.Forall₂ (Yields rt) E facts) (s : RevisionFold) :
    ∃ buckets, E.foldlM (RevisionsByBase.apply rt) s.baseBuckets = .ok buckets ∧
      facts.foldlM RevisionFold.capture s = .ok
        { baseBuckets := buckets
          builders := ((E.filterMap (rangeRecord rt)).filter
            fun record => record.entry.capture.isSome).foldl (CommitRangeBuilders.enter false)
              s.builders } := by
  rw [List.filter_filterMap, ← foldl_enterSome]
  induction hE generalizing s with
  | nil => exact ⟨s.baseBuckets, rfl, rfl⟩
  | cons he _ ih =>
    obtain ⟨buckets, hcapture, hbase⟩ := capture_eq he.factOf s
    rw [List.foldlM_cons, List.foldlM_cons, hcapture, hbase]
    exact ih { baseBuckets := buckets, builders := _ }

theorem foldlM_associate (hE : List.Forall₂ (Yields rt) E facts) (builders : CommitRangeBuilders) :
    facts.foldlM CommitRangeBuilders.associate builders =
      .ok (((E.filterMap (rangeRecord rt)).filter
        fun record => !record.entry.capture.isSome).foldl (CommitRangeBuilders.enter false)
          builders) := by
  rw [List.filter_filterMap, ← foldl_enterSome]
  induction hE generalizing builders with
  | nil => rfl
  | cons he _ ih =>
    rw [List.foldlM_cons, associate_eq he.factOf]
    exact ih _

theorem proposalsAtRevision (E : List (ShoreEvent V)) (r : RevisionId) :
    ProposalsAtRevision (rangeRecords rt E r) := by
  intro record hrecord hcapture
  obtain ⟨e, -, he⟩ := List.mem_filterMap.mp (List.mem_filter.mp hrecord).1
  rw [capture_isSome_of_rangeRecord he, decide_eq_true_eq] at hcapture
  simp only [rangeRecord, hcapture] at he
  obtain ⟨p, -, hp⟩ := Option.bind_eq_some_iff.mp he
  split at hp
  · cases hp
    rfl
  · cases hp

end Folds

/-- Strict replay and the reducer over facts give the same documents exactly when no Revision has
records that only one of them heeds. -/
theorem revisionDocuments_parity_iff {V : Type} {rt : Runtime V} {E : List (ShoreEvent V)}
    {facts : List SemanticFact} (hfacts : List.Forall₂ (Yields rt) E facts)
    (supersession : SupersessionView) :
    (∃ documents, revisionDocuments rt E supersession = .ok documents ∧
      revisionDocumentsFromFacts facts supersession = .ok documents) ↔
    ∀ r, ReadsAlike (rangeRecords rt E r) := by
  obtain ⟨buckets, hbuckets, hcapture⟩ := foldlM_capture hfacts {}
  have hread : ∀ e ∈ E, ∃ b, CommitRangeBuilders.apply rt ∅ e = .ok b := by
    intro e he
    obtain ⟨f, hf⟩ := exists_factOf (hfacts.imp fun _ _ h => h.factOf) he
    exact apply_isOk hf
  have hstrict : revisionDocuments rt E supersession = .ok
      { supersession, revisionsByBase := { buckets }
        commitRanges := ((atRevision (E.filterMap (rangeRecord rt))).foldl
          (CommitRangeBuilders.enter true) ∅).finish } := by
    simp only [revisionDocuments, RevisionsByBase.fromEvents,
      RevisionCommitRangeProjection.fromEvents, foldlM_apply_eq_ok.mpr ⟨hread, rfl⟩]
    rw [hbuckets]
    rfl
  have hcompact : revisionDocumentsFromFacts facts supersession = .ok
      { supersession, revisionsByBase := { buckets }
        commitRanges := ((capturesFirst (E.filterMap (rangeRecord rt))).foldl
          (CommitRangeBuilders.enter false) ∅).finish } := by
    simp [revisionDocumentsFromFacts, hcapture, bind, Except.bind, foldlM_associate hfacts,
      capturesFirst, CommitRangeBuilder.finishFacts_eq, CommitRangeBuilders.finish]
  have hviews : ∀ r, ((atRevision (E.filterMap (rangeRecord rt))).foldl
        (CommitRangeBuilders.enter true) ∅).finish.units[r]? =
        ((capturesFirst (E.filterMap (rangeRecord rt))).foldl
          (CommitRangeBuilders.enter false) ∅).finish.units[r]? ↔
      ReadsAlike (rangeRecords rt E r) := by
    intro r
    rw [← viewOf_eq_iff (proposalsAtRevision E r) r, get_units, get_units]
    have hat : (atRevision (E.filterMap (rangeRecord rt))).filter (·.revisionId = r) =
        atRevision (rangeRecords rt E r) := by
      rw [atRevision, atRevision, rangeRecords, List.filter_comm]
    have hfirst : (capturesFirst (E.filterMap (rangeRecord rt))).filter (·.revisionId = r) =
        capturesFirst (rangeRecords rt E r) := by
      have hswap : ∀ p : RangeRecord → Bool, ((E.filterMap (rangeRecord rt)).filter p).filter
          (·.revisionId = r) = (rangeRecords rt E r).filter p := fun _ => List.filter_comm ..
      rw [capturesFirst, capturesFirst, List.filter_append, hswap, hswap]
    rw [hat, hfirst]
  rw [hstrict, hcompact]
  constructor
  · rintro ⟨documents, hdocuments, hdocuments'⟩ r
    have hsame := (Except.ok.inj hdocuments).trans (Except.ok.inj hdocuments').symm
    exact (hviews r).mp (congrArg (fun d => d.commitRanges.units[r]?) hsame)
  · intro h
    have hunits := ext_getElem? fun r => (hviews r).mpr (h r)
    refine ⟨_, rfl, ?_⟩
    rw [Except.ok.injEq, RevisionDocuments.mk.injEq]
    exact ⟨rfl, rfl, congrArg RevisionCommitRangeProjection.mk hunits.symm⟩

section Instances

open Recorded

def landed : GitProvenance where
  source := .gitCommitRange []
  base := .gitCommit (text "base") (text "base-tree")
  target := .gitCommit (text "head") (text "head-tree")

/-- The same Revision proposed twice, the second time from the working tree. -/
def recaptured : List (ShoreEvent WirePayload) :=
  journal 1 [captured 1 (some landed) [],
    captured 1 (some { landed with target := .gitWorkingTree (text "/repo") }) []]

def fileAssociated : List (ShoreEvent WirePayload) :=
  journal 1 [proposed 1, .revisionCommitAssociated
    { commitAssociationId := ⟨text "assoc-commit:01"⟩, target := .file (rev 1) (text "a.rs"),
      commit := .gitCommit (text "head") (text "head-tree") }]

def noSupersession : SupersessionView :=
  { heads := ∅, superseded := ∅, supersedes := ∅, supersededBy := ∅, components := [],
    cycleRevisions := ∅, diagnostics := [] }

def currentOids {ε : Type} (documents : Except ε RevisionDocuments) : Option (List Text) :=
  documents.toOption.bind fun documents =>
    documents.commitRanges.units[rev 1]?.map fun view => view.currentCommits.map (·.commitOid)

/-- Strict replay keeps the commit of the first capture, the facts do not; the facts show the
commit of a file, strict replay does not. -/
theorem recaptured_differs :
    (∃ facts, List.Forall₂ (Yields runtime) recaptured facts ∧
      currentOids (revisionDocuments runtime recaptured noSupersession) = some [text "head"] ∧
      currentOids (revisionDocumentsFromFacts facts noSupersession) = some []) ∧
    ∃ facts, List.Forall₂ (Yields runtime) fileAssociated facts ∧
      currentOids (revisionDocuments runtime fileAssociated noSupersession) = some [] ∧
      currentOids (revisionDocumentsFromFacts facts noSupersession) = some [text "head"] := by
  have hrun : (∃ facts, recaptured.mapM readFact = .ok facts ∧
        currentOids (revisionDocuments runtime recaptured noSupersession) = some [text "head"] ∧
        currentOids (revisionDocumentsFromFacts facts noSupersession) = some []) ∧
      ∃ facts, fileAssociated.mapM readFact = .ok facts ∧
        currentOids (revisionDocuments runtime fileAssociated noSupersession) = some [] ∧
        currentOids (revisionDocumentsFromFacts facts noSupersession) = some [text "head"] := by
    decide +kernel
  obtain ⟨⟨facts, hfacts, hoids⟩, facts', hfacts', hoids'⟩ := hrun
  exact ⟨⟨facts, yields_of_readFact hfacts, hoids⟩, facts', yields_of_readFact hfacts', hoids'⟩

def withdrawn : List (ShoreEvent WirePayload) :=
  journal 1 [captured 1 (some landed) [], .revisionCommitAssociated
    { commitAssociationId := ⟨text "assoc-commit:01"⟩, target := .revision (rev 1),
      commit := .gitCommit (text "tip") (text "tip-tree") }, .revisionCommitWithdrawn
    { commitWithdrawalId := ⟨text "withdraw-commit:01"⟩, target := .revision (rev 1),
      commitAssociationId := ⟨text "assoc-commit:01"⟩ }]

theorem withdrawn_parity :
    ∃ facts documents, List.Forall₂ (Yields runtime) withdrawn facts ∧
      revisionDocuments runtime withdrawn noSupersession = .ok documents ∧
      revisionDocumentsFromFacts facts noSupersession = .ok documents := by
  have hrun : ∃ facts, withdrawn.mapM readFact = .ok facts ∧
      ∀ record ∈ withdrawn.filterMap (rangeRecord runtime),
        record.atRevision = true ∧ record.entry.capture ≠ some none := by
    decide +kernel
  obtain ⟨facts, hfacts, hplain⟩ := hrun
  have hyields := yields_of_readFact hfacts
  obtain ⟨documents, hstrict, hcompact⟩ :=
    (revisionDocuments_parity_iff hyields noSupersession).mpr fun r =>
      .of_plain fun record hrecord => hplain record (List.mem_filter.mp hrecord).1
  exact ⟨facts, documents, hyields, hstrict, hcompact⟩

end Instances

end Pointbreak
