import Pointbreak.Semantic.Tables

/-!
# Semantic.SummaryConflicts

Revisions whose proposals disagree about their summary. The journal reaches the derived store in
deltas, and a delta is compared with the earliest proposal of the deltas before it, read back from
the journal; a Revision found in conflict is not looked at again. Only Revision proposals bring
something to these tables, so a journal is the list of them. The transaction of a delta also inserts
the semantic facts (`insertFacts`); where `encode_identity` fails on one, nothing of the delta is
stored.
-/

namespace Pointbreak

open Std KeyedLog List

namespace RevisionRefV1

instance : Ord RevisionRefV1 :=
  ⟨compareLex (compareOn revisionId) (compareOn objectArtifactContentHash)⟩

instance : TransOrd RevisionRefV1 :=
  inferInstanceAs (TransCmp (compareLex (compareOn revisionId) (compareOn objectArtifactContentHash)))

instance : LawfulEqOrd RevisionRefV1 where
  eq_of_compare {a b} h := by
    have h' : (compare a.revisionId b.revisionId).then
        (compare a.objectArtifactContentHash b.objectArtifactContentHash) = .eq := h
    simp only [Ordering.then_eq_eq, LawfulEqOrd.compare_eq_iff_eq] at h'
    cases a
    cases b
    simp_all

end RevisionRefV1

structure RevisionProposal where
  eventId : EventId
  revisionId : RevisionId
  objectArtifactContentHash : Text
  summary : Option Text

/-- A proposal at its place in the journal. -/
structure ProposalRow where
  cursor : TruthCursor
  event : RevisionProposal

structure ProposalSummaryMaterializationFact where
  sequence : Nat
  revision : RevisionRefV1
  summary : Option Text
deriving DecidableEq

/-- The summary of a product history fact. Without an exact Revision there is none. -/
def ProposalRow.proposalSummary (row : ProposalRow) : Option ProposalSummaryMaterializationFact :=
  (RevisionRefV1.new row.event.revisionId row.event.objectArtifactContentHash).toOption.map
    fun revision => { sequence := row.cursor.sequence, revision, summary := row.event.summary }

def proposalFacts (rows : List ProposalRow) : List ProposalSummaryMaterializationFact :=
  rows.filterMap ProposalRow.proposalSummary

/-- A delta fills `locator_event` and `semantic_revision_proposal_carrier` from the same entries under
the same sequences, so both are the rows that were applied. -/
structure SummaryTables where
  applied : TruthCursor
  rows : List ProposalRow
  /-- `semantic_revision_proposal_conflict` -/
  conflicts : BTreeMap RevisionRefV1 Nat

inductive SqliteSemanticError where
  | baselineExpected (expected observed : TruthCursor)
  | baselineMoved (observed applied : TruthCursor)
  | metadata (message : Text)
  | revision (error : ShoreError)
  | locator (error : SqliteLocatorError)

abbrev SqliteResult (α : Type) : Type := Except SqliteSemanticError α

/-- The columns of a carrier are those of the exact Revision. -/
def ProposalRow.Carries (row : ProposalRow) (revision : RevisionRefV1) : Prop :=
  revision.revisionId = row.event.revisionId ∧
    revision.objectArtifactContentHash = row.event.objectArtifactContentHash

instance (row : ProposalRow) (revision : RevisionRefV1) : Decidable (row.Carries revision) :=
  inferInstanceAs (Decidable (_ ∧ _))

namespace SummaryTables

variable (tables : SummaryTables) (observed : TruthCursor)

/-- The earliest carrier of an exact Revision, with the id of its event. -/
def baseline (revision : RevisionRefV1) : Option (Nat × EventId) :=
  leastBy compare Prod.fst ((tables.rows.filter fun row =>
    row.Carries revision ∧ row.cursor.sequence ≤ observed.sequence).map fun row =>
      (row.cursor.sequence, row.event.eventId))

/-- The entry of an event id, read back from the journal. -/
def lookupEventId (eventId : EventId) : Option RevisionProposal :=
  (tables.rows.find? fun row => row.event.eventId = eventId ∧ row.cursor.epoch = observed.epoch ∧
    row.cursor.sequence ≤ observed.sequence).map ProposalRow.event

/-- `none` when the tables are behind. -/
def lookupEventIdsHydrated (eventIds : List EventId) : Option (List (Option RevisionProposal)) :=
  if tables.applied.epoch ≠ observed.epoch ∨ tables.applied.sequence < observed.sequence then none
  else some (eventIds.map (tables.lookupEventId observed))

end SummaryTables

def proposalSummaryFromEvent (event : RevisionProposal) (expected : RevisionRefV1) :
    SqliteResult (Option Text) := do
  let actual ← (RevisionRefV1.new event.revisionId event.objectArtifactContentHash).mapError
    .revision
  if actual ≠ expected then
    .error (.metadata (text "proposal summary baseline " ++ event.eventId.asStr ++
      text " has the wrong exact Revision binding"))
  else .ok event.summary

def differing (summary : Option Text) (proposals : List ProposalSummaryMaterializationFact) :
    Option Nat :=
  (proposals.find? fun proposal => proposal.summary ≠ summary).map (·.sequence)

/-- Without a baseline the first proposal is it. -/
def firstDiffering : List ProposalSummaryMaterializationFact → Option Nat
  | [] => none
  | first :: later => differing first.summary later

abbrev PendingProposals : Type :=
  RevisionRefV1 × List ProposalSummaryMaterializationFact × Option (Nat × EventId)

/-- Compare the groups, taking a row for each that has a baseline. -/
def compareProposals : List PendingProposals → List (Option RevisionProposal) →
    SqliteResult (List (RevisionRefV1 × Nat))
  | [], _ => .ok []
  | (revision, proposals, none) :: pending, hydrated => do
    let updates ← compareProposals pending hydrated
    .ok ((firstDiffering proposals).toList.map (revision, ·) ++ updates)
  | (revision, proposals, some _) :: pending, some event :: hydrated => do
    let summary ← proposalSummaryFromEvent event revision
    let updates ← compareProposals pending hydrated
    .ok ((differing summary proposals).toList.map (revision, ·) ++ updates)
  | (revision, _, some _) :: _, _ =>
    .error (.metadata (text "proposal summary baseline for exact Revision " ++
      revision.revisionId.asStr ++ text " is absent"))

def SummaryTables.pending (tables : SummaryTables) (observed : TruthCursor)
    (facts : List ProposalSummaryMaterializationFact) : List PendingProposals :=
  (grouped (·.revision) id facts).toList.filterMap fun group =>
    if group.1 ∈ tables.conflicts then none
    else some (group.1, group.2.insertionSort (fun a b => a.sequence ≤ b.sequence),
      tables.baseline observed group.1)

def proposalSummaryConflictUpdates (tables : SummaryTables) (observed : TruthCursor)
    (facts : List ProposalSummaryMaterializationFact) :
    SqliteResult (List (RevisionRefV1 × Nat)) :=
  if facts.isEmpty then .ok []
  else if tables.applied ≠ observed then .error (.baselineExpected observed tables.applied)
  else
    let pending := tables.pending observed facts
    match tables.lookupEventIdsHydrated observed (pending.filterMap fun p => p.2.2.map Prod.snd) with
    | none => .error (.baselineMoved observed tables.applied)
    | some hydrated => compareProposals pending hydrated

/-- `INSERT OR IGNORE` -/
def insertConflict (conflicts : BTreeMap RevisionRefV1 Nat) (update : RevisionRefV1 × Nat) :
    BTreeMap RevisionRefV1 Nat :=
  conflicts.alter update.1 fun old => some (old.getD update.2)

section Apply

variable (insertFacts : List ProposalRow → SqliteResult Unit)

def applyDelta (tables : SummaryTables) (after : TruthCursor) (rows : List ProposalRow) :
    SqliteResult SummaryTables := do
  let updates ← proposalSummaryConflictUpdates tables after (proposalFacts rows)
  if tables.applied ≠ after then .error (.baselineExpected after tables.applied)
  else do
    insertFacts rows
    .ok {
      applied := rows.getLast?.elim after ProposalRow.cursor
      rows := tables.rows ++ rows
      conflicts := updates.foldl insertConflict tables.conflicts }

def applyDeltas (tables : SummaryTables) (deltas : List (List ProposalRow)) :
    SqliteResult SummaryTables :=
  deltas.foldlM (fun tables rows => applyDelta insertFacts tables tables.applied rows) tables

end Apply

def SummaryTables.empty (epoch : Nat) : SummaryTables where
  applied := ⟨epoch, 0⟩
  rows := []
  conflicts := ∅

/-- The proposals of a journal, in its order. -/
structure Journaled (epoch : Nat) (rows : List ProposalRow) : Prop where
  epoch : ∀ row ∈ rows, row.cursor.epoch = epoch
  ascending : rows.Pairwise fun a b => a.cursor.sequence < b.cursor.sequence
  distinct : (rows.map fun row => row.event.eventId).Nodup

def proposalsOf (revision : RevisionRefV1) (rows : List ProposalRow) :
    List ProposalSummaryMaterializationFact :=
  (proposalFacts rows).filter (·.revision = revision)

theorem proposalsOf_append (r : RevisionRefV1) (done rows : List ProposalRow) :
    proposalsOf r (done ++ rows) = proposalsOf r done ++ proposalsOf r rows := by
  rw [proposalsOf, proposalFacts, filterMap_append, filter_append]
  rfl

theorem proposalsOf_eq (r : RevisionRefV1) (rows : List ProposalRow) :
    proposalsOf r rows = (rows.filter (·.Carries r)).map fun row =>
      ⟨row.cursor.sequence, r, row.event.summary⟩ := by
  rw [proposalsOf, proposalFacts, filter_filterMap, ← filterMap_eq_map, filterMap_filter]
  refine filterMap_congr fun row _ => Option.ext fun p => ?_
  simp only [ProposalRow.proposalSummary, Option.filter_eq_some_iff, Option.map_eq_some_iff,
    Result.toOption_eq_some, RevisionRefV1.new_eq_ok, decide_eq_true_eq,
    Option.ite_none_right_eq_some, Function.comp_apply, Option.some.injEq]
  constructor
  · rintro ⟨⟨r, hcarries, rfl⟩, rfl⟩
    exact ⟨hcarries, rfl⟩
  · rintro ⟨hcarries, rfl⟩
    exact ⟨⟨r, hcarries, rfl⟩, rfl⟩

theorem summaryFromEvent_of_carries {row : ProposalRow} {r : RevisionRefV1} (h : row.Carries r) :
    proposalSummaryFromEvent row.event r = .ok row.event.summary := by
  rw [proposalSummaryFromEvent, RevisionRefV1.new_eq_ok.mpr h]
  exact if_neg (not_not.mpr rfl)

variable {epoch : Nat} {done rows : List ProposalRow} {tables : SummaryTables}
  {insertFacts : List ProposalRow → SqliteResult Unit}

theorem Journaled.sublist {part : List ProposalRow} (h : Journaled epoch rows)
    (hpart : part.Sublist rows) : Journaled epoch part where
  epoch row hrow := h.epoch row (hpart.subset hrow)
  ascending := h.ascending.sublist hpart
  distinct := (hpart.map _).nodup h.distinct

structure TablesAfter (tables : SummaryTables) (epoch : Nat) (done : List ProposalRow) : Prop where
  epoch : tables.applied.epoch = epoch
  applied : ∀ row ∈ done, row.cursor.sequence ≤ tables.applied.sequence
  rows : tables.rows = done
  conflicts : ∀ r, tables.conflicts[r]? = firstDiffering (proposalsOf r done)

namespace TablesAfter

theorem lookupEventId_eq (h : TablesAfter tables epoch done) (hj : Journaled epoch done)
    {row : ProposalRow} (hrow : row ∈ done) :
    tables.lookupEventId tables.applied row.event.eventId = some row.event := by
  rw [SummaryTables.lookupEventId, h.rows, Option.map_eq_some_iff]
  refine ⟨row, ?_, rfl⟩
  cases hfind : done.find? fun found => found.event.eventId = row.event.eventId ∧
      found.cursor.epoch = tables.applied.epoch ∧
      found.cursor.sequence ≤ tables.applied.sequence with
  | none =>
    have hself := find?_eq_none.mp hfind row hrow
    rw [hj.epoch row hrow, h.epoch] at hself
    exact absurd (decide_eq_true ⟨rfl, rfl, h.applied row hrow⟩) hself
  | some found =>
    have hid := find?_some hfind
    rw [decide_eq_true_eq] at hid
    rw [inj_on_of_nodup_map hj.distinct (mem_of_find?_eq_some hfind) hrow hid.1]

theorem baseline_eq (h : TablesAfter tables epoch done) (hj : Journaled epoch done)
    (r : RevisionRefV1) : tables.baseline tables.applied r =
      ((done.filter (·.Carries r)).map fun row =>
        (row.cursor.sequence, row.event.eventId)).head? := by
  have hfilter : (tables.rows.filter fun row => row.Carries r ∧
      row.cursor.sequence ≤ tables.applied.sequence) = done.filter (·.Carries r) := by
    rw [h.rows]
    exact filter_congr fun row hrow => by simp [h.applied row hrow]
  have hsorted := hj.ascending.filter (·.Carries r)
  rw [SummaryTables.baseline, hfilter]
  cases hrows : done.filter (·.Carries r) with
  | nil => rfl
  | cons row later =>
    rw [hrows, pairwise_cons] at hsorted
    refine leastBy_append (l := [_]) rfl fun w hw hlt => ?_
    obtain ⟨other, hother, rfl⟩ := mem_map.mp hw
    exact absurd (hsorted.1 other hother) (Nat.lt_asymm (Nat.compare_eq_lt.mp hlt))

end TablesAfter

/-- What a delta adds to the conflicts, after these proposals. -/
def laterConflict (before group : List ProposalSummaryMaterializationFact) : Option Nat :=
  match before with
  | [] => firstDiffering group
  | first :: _ => differing first.summary group

theorem firstDiffering_append (before group : List ProposalSummaryMaterializationFact) :
    firstDiffering (before ++ group) =
      (firstDiffering before).or (laterConflict before group) := by
  cases before with
  | nil => rfl
  | cons first later =>
    rw [cons_append, firstDiffering, firstDiffering, laterConflict, differing, differing,
      differing, find?_append, Option.map_or]

variable {later : RevisionRefV1 → Option Nat}

theorem compareProposals_eq {look : EventId → Option RevisionProposal}
    {pending : List PendingProposals}
    (h : ∀ p ∈ pending, p.2.2 = none ∧ firstDiffering p.2.1 = later p.1 ∨
      ∃ n e summary, p.2.2 = some (n, e.eventId) ∧ look e.eventId = some e ∧
        proposalSummaryFromEvent e p.1 = .ok summary ∧ differing summary p.2.1 = later p.1) :
    compareProposals pending ((pending.filterMap fun p => p.2.2.map Prod.snd).map look) =
      .ok ((pending.map Prod.fst).flatMap fun r => (later r).toList.map (r, ·)) := by
  induction pending with
  | nil => rfl
  | cons p pending ih =>
    obtain ⟨r, proposals, baseline⟩ := p
    have ih := ih fun p hp => h p (.tail _ hp)
    obtain ⟨hnone, hlater⟩ | ⟨n, e, summary, hsome, hlook, hread, hlater⟩ := h _ (.head _)
    · obtain rfl : baseline = none := hnone
      simp only at hlater
      simp [compareProposals, ih, hlater]
    · obtain rfl : baseline = some (n, e.eventId) := hsome
      simp only at hlater hread
      simp [compareProposals, ih, hlater, hread, hlook]

theorem get_insertConflict (conflicts : BTreeMap RevisionRefV1 Nat) (r k : RevisionRefV1) (n : Nat) :
    (insertConflict conflicts (r, n))[k]? =
      conflicts[k]?.or (if r = k then some n else none) := by
  rw [insertConflict, BTreeMap.get_alter]
  split
  · next hk =>
    rw [hk]
    cases conflicts[k]? <;> rfl
  · rw [Option.or_none]

theorem get_insertConflicts (rs : List RevisionRefV1)
    (conflicts : BTreeMap RevisionRefV1 Nat) (k : RevisionRefV1) :
    ((rs.flatMap fun r => (later r).toList.map (r, ·)).foldl insertConflict conflicts)[k]? =
      conflicts[k]?.or (if k ∈ rs then later k else none) := by
  induction rs generalizing conflicts with
  | nil => simp
  | cons r rs ih =>
    rw [flatMap_cons, foldl_append, ih]
    by_cases hk : r = k
    · subst hk
      cases hl : later r <;> simp [get_insertConflict]
    · cases hl : later r <;> simp [get_insertConflict, hk, Ne.symm hk]

theorem mem_pending (hj : Journaled epoch rows) {observed : TruthCursor} {p : PendingProposals} :
    p ∈ tables.pending observed (proposalFacts rows) ↔
      p.1 ∉ tables.conflicts ∧ proposalsOf p.1 rows ≠ [] ∧
        p.2 = (proposalsOf p.1 rows, tables.baseline observed p.1) := by
  have hsort : ∀ r, (proposalsOf r rows).insertionSort (fun a b => a.sequence ≤ b.sequence) =
      proposalsOf r rows := by
    intro r
    refine List.Pairwise.insertionSort_eq ?_
    rw [proposalsOf_eq, pairwise_map]
    exact (hj.ascending.filter _).imp Nat.le_of_lt
  obtain ⟨r, group, base⟩ := p
  simp only [SummaryTables.pending, mem_filterMap, Prod.exists, BTreeMap.mem_toList_iff,
    get_grouped, map_id, Option.ite_none_left_eq_some, Option.some.injEq, and_assoc,
    exists_and_left, exists_eq_left', Prod.mk.injEq]
  constructor
  · rintro ⟨r, hne, hr, rfl, rfl, rfl⟩
    exact ⟨hr, hne, hsort r, rfl⟩
  · rintro ⟨hr, hne, rfl, rfl⟩
    exact ⟨r, hne, hr, rfl, hsort r, rfl⟩

theorem laterConflict_nil (before : List ProposalSummaryMaterializationFact) :
    laterConflict before [] = none := by
  cases before <;> rfl

theorem conflictUpdates_ok (h : TablesAfter tables epoch done) (hdone : Journaled epoch done)
    (hrows : Journaled epoch rows) :
    ∃ updates, proposalSummaryConflictUpdates tables tables.applied (proposalFacts rows) =
        .ok updates ∧
      ∀ r, (updates.foldl insertConflict tables.conflicts)[r]? =
        firstDiffering (proposalsOf r (done ++ rows)) := by
  refine ⟨((tables.pending tables.applied (proposalFacts rows)).map Prod.fst).flatMap fun r =>
      (laterConflict (proposalsOf r done) (proposalsOf r rows)).toList.map (r, ·), ?_, fun r => ?_⟩
  · rw [proposalSummaryConflictUpdates]
    split
    · next hempty =>
      rw [isEmpty_iff.mp hempty]
      simp [SummaryTables.pending, grouped]
    · simp only [ne_eq, not_true_eq_false, if_false, SummaryTables.lookupEventIdsHydrated,
        Nat.lt_irrefl, or_self]
      refine compareProposals_eq fun p hp => ?_
      obtain ⟨-, -, hp⟩ := (mem_pending hrows).mp hp
      rw [hp, h.baseline_eq hdone, proposalsOf_eq p.1 done]
      cases hfirst : done.filter (·.Carries p.1) with
      | nil => exact .inl ⟨rfl, rfl⟩
      | cons row later =>
        have hrow : row ∈ done.filter (·.Carries p.1) := hfirst ▸ .head _
        rw [mem_filter, decide_eq_true_eq] at hrow
        exact .inr ⟨_, row.event, _, rfl, h.lookupEventId_eq hdone hrow.1,
          summaryFromEvent_of_carries hrow.2, rfl⟩
  · rw [get_insertConflicts, proposalsOf_append, firstDiffering_append, h.conflicts]
    split
    · rfl
    · next hskipped =>
      -- a group is passed over when its Revision is in conflict already
      by_cases hgroup : proposalsOf r rows = []
      · rw [hgroup, laterConflict_nil]
      · have hr : r ∈ tables.conflicts := by
          by_contra hr
          exact hskipped (mem_map.mpr ⟨(r, proposalsOf r rows, tables.baseline tables.applied r),
            (mem_pending hrows).mpr ⟨hr, hgroup, rfl⟩, rfl⟩)
        obtain ⟨n, hn⟩ := Option.isSome_iff_exists.mp (ExtTreeMap.mem_iff_isSome_getElem?.mp hr)
        rw [← h.conflicts, hn, Option.some_or, Option.some_or]

theorem applyDelta_ok (h : TablesAfter tables epoch done) (hj : Journaled epoch (done ++ rows))
    (hfacts : insertFacts rows = .ok ()) :
    ∃ tables', applyDelta insertFacts tables tables.applied rows = .ok tables' ∧
      TablesAfter tables' epoch (done ++ rows) := by
  have hdone := hj.sublist (sublist_append_left done rows)
  have hrows := hj.sublist (sublist_append_right done rows)
  obtain ⟨updates, hupdates, hconflicts⟩ := conflictUpdates_ok h hdone hrows
  refine ⟨⟨rows.getLast?.elim tables.applied ProposalRow.cursor, done ++ rows,
    updates.foldl insertConflict tables.conflicts⟩, ?_, ?_, ?_, rfl, hconflicts⟩
  · rw [applyDelta, hupdates, h.rows]
    simp [hfacts]
  · cases hlast : rows.getLast? with
    | none => exact h.epoch
    | some last => exact hj.epoch last (mem_append_right _ (mem_of_getLast? hlast))
  · intro row hrow
    cases hlast : rows.getLast? with
    | none =>
      rw [getLast?_eq_none_iff.mp hlast, append_nil] at hrow
      exact h.applied row hrow
    | some last =>
      obtain ⟨init, rfl⟩ := getLast?_eq_some_iff.mp hlast
      have hascending := hj.ascending
      rw [← append_assoc, pairwise_append] at hascending
      rw [← append_assoc, mem_append, mem_singleton] at hrow
      obtain hrow | rfl := hrow
      · exact Nat.le_of_lt (hascending.2.2 row hrow last (.head _))
      · exact Nat.le_refl _

theorem TablesAfter.empty (epoch : Nat) : TablesAfter (.empty epoch) epoch [] where
  epoch := rfl
  applied row hrow := absurd hrow not_mem_nil
  rows := rfl
  conflicts r := by simp [SummaryTables.empty, proposalsOf, proposalFacts, firstDiffering]

theorem applyDeltas_ok (h : TablesAfter tables epoch done) (cuts : List (List ProposalRow))
    (hj : Journaled epoch (done ++ cuts.flatten)) (hfacts : ∀ rows ∈ cuts, insertFacts rows = .ok ()) :
    ∃ tables', applyDeltas insertFacts tables cuts = .ok tables' ∧
      TablesAfter tables' epoch (done ++ cuts.flatten) := by
  induction cuts generalizing tables done with
  | nil => exact ⟨tables, rfl, by rwa [flatten_nil, append_nil]⟩
  | cons rows cuts ih =>
    rw [flatten_cons, ← append_assoc] at hj ⊢
    obtain ⟨hrows, hcuts⟩ := forall_mem_cons.mp hfacts
    obtain ⟨next, happly, hnext⟩ :=
      applyDelta_ok h (hj.sublist (sublist_append_left ..)) hrows
    obtain ⟨tables', hrest, htables'⟩ := ih hnext hj hcuts
    refine ⟨tables', ?_, htables'⟩
    rw [applyDeltas, foldlM_cons, happly]
    exact hrest

variable {proposals : List ProposalSummaryMaterializationFact}

theorem firstDiffering_eq_some {n : Nat} :
    firstDiffering proposals = some n ↔ ∃ first later, proposals = first :: later ∧
      ∃ p, (later.find? fun p => p.summary ≠ first.summary) = some p ∧ p.sequence = n := by
  cases proposals with
  | nil => simp [firstDiffering]
  | cons first later => simp [firstDiffering, differing]

theorem firstDiffering_eq_none :
    firstDiffering proposals = none ↔ ∀ p ∈ proposals, ∀ q ∈ proposals, p.summary = q.summary := by
  cases proposals with
  | nil => simp [firstDiffering]
  | cons first later =>
    have hfirst : firstDiffering (first :: later) = none ↔
        ∀ p ∈ later, p.summary = first.summary := by
      simp [firstDiffering, differing]
    rw [hfirst]
    constructor
    · intro h
      have hall : ∀ p ∈ first :: later, p.summary = first.summary := by
        simpa using h
      exact fun p hp q hq => (hall p hp).trans (hall q hq).symm
    · exact fun h p hp => h p (.tail _ hp) first (.head _)

/-- However a journal is cut into deltas, all of them are applied, as long as their facts can be
inserted, and the table of conflicts is the same. An exact Revision is in it when two of its proposals have different summaries, with the
sequence of the first proposal whose summary is not that of the first one. -/
theorem conflicts_independent_of_cuts (h : Journaled epoch rows) :
    ∃ conflicts : BTreeMap RevisionRefV1 Nat,
      (∀ (insertFacts : List ProposalRow → SqliteResult Unit) (cuts : List (List ProposalRow)),
        cuts.flatten = rows → (∀ delta ∈ cuts, insertFacts delta = .ok ()) → ∃ tables,
          applyDeltas insertFacts (.empty epoch) cuts = .ok tables ∧
            tables.conflicts = conflicts) ∧
      (∀ r, r ∈ conflicts ↔
        ∃ p ∈ proposalsOf r rows, ∃ q ∈ proposalsOf r rows, p.summary ≠ q.summary) ∧
      ∀ r n, conflicts[r]? = some n ↔ ∃ first later, proposalsOf r rows = first :: later ∧
        ∃ p, (later.find? fun p => p.summary ≠ first.summary) = some p ∧ p.sequence = n := by
  have hempty := TablesAfter.empty epoch
  have hplain : ∀ rows' ∈ [rows], (fun _ => .ok ()) rows' = (.ok () : SqliteResult Unit) :=
    fun _ _ => rfl
  obtain ⟨whole, -, hwhole⟩ := applyDeltas_ok hempty [rows] (by simpa using h) hplain
  simp only [flatten_cons, flatten_nil, append_nil, nil_append] at hwhole
  refine ⟨whole.conflicts, ?_, ?_, ?_⟩
  · rintro insertFacts cuts rfl hfacts
    obtain ⟨tables, happly, htables⟩ := applyDeltas_ok hempty cuts h hfacts
    refine ⟨tables, happly, ExtTreeMap.ext_getElem? fun r => ?_⟩
    rw [htables.conflicts, hwhole.conflicts, nil_append]
  · intro r
    rw [ExtTreeMap.mem_iff_isSome_getElem?, hwhole.conflicts, Option.isSome_iff_ne_none, ne_eq,
      firstDiffering_eq_none]
    simp [not_forall]
  · intro r n
    rw [hwhole.conflicts, firstDiffering_eq_some]

namespace SummaryRecorded

open Recorded

def row (n : Nat) (summary : Option Text) : ProposalRow where
  cursor := ⟨1, n⟩
  event := ⟨⟨text "evt:sha256:" ++ Text.hexOf 64 n []⟩, rev 1, artifact 1, summary⟩

def encodeIds (rows : List ProposalRow) : SqliteResult Unit :=
  rows.forM fun row => do
    let _revision ← (encodeIdentity row.event.revisionId.asStr).mapError .locator
    let _content ← (encodeIdentity row.event.objectArtifactContentHash).mapError .locator
    .ok ()

theorem second_proposal_conflicts :
    ∃ tables, applyDeltas encodeIds (.empty 1) [[row 1 (some (text "first"))], [row 2 none]] =
        .ok tables ∧
      tables.conflicts[ref 1]? = some 2 := by
  have hjournaled : Journaled 1 [row 1 (some (text "first")), row 2 none] :=
    ⟨by simp [row], by simp [row], by decide +kernel⟩
  obtain ⟨conflicts, hcuts, -, hfirst⟩ := conflicts_independent_of_cuts hjournaled
  obtain ⟨tables, happly, rfl⟩ :=
    hcuts encodeIds [[row 1 (some (text "first"))], [row 2 none]] rfl (by simp; exact ⟨rfl, rfl⟩)
  refine ⟨tables, happly, (hfirst (ref 1) 2).mpr ?_⟩
  exact ⟨⟨1, ref 1, some (text "first")⟩, [⟨2, ref 1, none⟩], by decide +kernel,
    ⟨2, ref 1, none⟩, by decide +kernel, rfl⟩

end SummaryRecorded

end Pointbreak
