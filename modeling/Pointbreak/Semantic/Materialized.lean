import Pointbreak.Semantic.Holding
import Pointbreak.Store.Recorded

/-!
# Semantic.Materialized

The materialised state against the reducer over facts. The rows of representatives hold what stands
for the semantic ids, the rows of duplicates are the carrier sets cut short, and the state row
counts; one fact keeps all of this (`Materializes.insertFact`), in whatever order facts arrive. A
fact whose key cannot be cut before its last sixty-four bytes stops the store instead.
-/

namespace Pointbreak

open Std BTreeMap KeyedLog SemanticReducer SemanticStateSnapshot Result EventType SemanticTables List

section Rules

variable {sha : Sha256} {K : Text → Prop} {tables : SemanticTables} {s : SemanticReducer}
  {f : SemanticFact} {family : SemanticFamily} {k journalId : Text} {done : List SemanticFact}

section Requests

variable {hold : Holding} {q : Text}

theorem mem_openRequests : q ∈ openRequests s ↔ q ∈ s.requestModes ∧ q ∉ s.responded := by
  rw [openRequests, mem_matching, mem_iff]
  simp

theorem mem_operativeRequests : q ∈ operativeRequests s ↔
      (∃ mode, s.requestModes[q]? = some mode ∧ mode.value = .operative) ∧ q ∉ s.responded := by
  rw [operativeRequests, mem_matching]
  simp [← and_assoc]

theorem Holds.mem_responded (h : Holds hold s) :
    q ∈ s.responded ↔ ∃ k g, hold .response k = some g ∧ g.kind.requestId = some q := by
  rw [SemanticReducer.responded, BTreeSet.mem_collect, mem_map]
  simp only [mem_vals_iff]
  constructor
  · rintro ⟨v, ⟨k, hv⟩, rfl⟩
    rw [h.targets k] at hv
    obtain ⟨g, hg, hvalue⟩ := Option.bind_eq_some_iff.mp hv
    obtain ⟨⟨k', v'⟩, hsel, rfl⟩ := Option.map_eq_some_iff.mp hvalue
    exact ⟨k, g, hg, requestId_of_targetOf hsel⟩
  · rintro ⟨k, g, hg, hq⟩
    obtain ⟨v, hsel, -, hv⟩ := h.targets.of_held selects_targetOf h.identity hg
    rw [requestId_of_targetOf hsel] at hq
    exact ⟨v, ⟨k, hv⟩, Option.some.inj hq⟩

structure Untouched (hold : Holding) (f : SemanticFact) (family : SemanticFamily) (k q : Text) :
    Prop where
  request : family = .request → k ≠ q
  response : family = .response → f.kind.requestId ≠ some q ∧
    ∀ g, hold .response k = some g → g.kind.requestId ≠ some q

variable (h : Holds hold s) (h' : Holds (hold.next f family k) (s.enter f))
  (hq : Untouched hold f family k q)
include h h' hq

theorem Holds.mode_untouched : (s.enter f).requestModes[q]? = s.requestModes[q]? := by
  rw [h'.requests q, h.requests q, Holding.next, if_neg]
  rintro ⟨heq, -⟩
  cases heq
  exact hq.request rfl rfl

theorem Holds.responded_untouched : q ∈ (s.enter f).responded ↔ q ∈ s.responded := by
  rw [h'.mem_responded, h.mem_responded]
  refine exists_congr fun k' => exists_congr fun g => ?_
  rw [Holding.next]
  split
  · rename_i hkey
    obtain ⟨heq, -⟩ := hkey
    cases heq
    obtain ⟨hnew, hold'⟩ := hq.response rfl
    constructor
    · rintro ⟨hg, hreq⟩
      cases hg
      exact absurd hreq hnew
    · rintro ⟨hg, hreq⟩
      exact absurd hreq (hold' g hg)
  · exact Iff.rfl

end Requests

section Rows

abbrev Representatives : Type := BTreeMap (SemanticFamily × Text) RepresentativeRow

variable {rows : Representatives}

/-- The fact that stands for a key: the row under its digest, if that row is about the key. -/
def held (sha : Sha256) (rows : Representatives) : Holding := fun family k =>
  (rows[(family, sha k)]?.filter fun row => row.key.text = k).map RepresentativeRow.fact

def SemanticFact.keys (f : SemanticFact) : List Text :=
  ((materializedIdentity f).map Prod.snd).toList ++ f.kind.requestId.toList

/-- The row stands under the digest of its key, for a fact of its family. -/
structure KeyedRow (sha : Sha256) (K : Text → Prop) (slot : SemanticFamily × Text)
    (row : RepresentativeRow) : Prop where
  digest : slot.2 = sha row.key.text
  known : K row.key.text
  splits : SplitsCleanly row.key.text
  identity : materializedIdentity row.fact = some (slot.1, row.key.text)
  target : ∀ q, row.fact.kind.requestId = some q → K q

def Keyed (sha : Sha256) (K : Text → Prop) (rows : Representatives) : Prop :=
  ∀ ⦃slot : SemanticFamily × Text⦄ ⦃row⦄, rows[slot]? = some row → KeyedRow sha K slot row

/-- No two of the keys have one digest. -/
def DistinctDigests (sha : Sha256) (K : Text → Prop) : Prop :=
  ∀ k k', K k → K k' → sha k = sha k' → k = k'

theorem Keyed.key_eq (h : Keyed sha K rows) (hsha : DistinctDigests sha K) (hk : K k)
    {row : RepresentativeRow} (hrow : rows[(family, sha k)]? = some row) : row.key.text = k :=
  hsha _ _ (h hrow).known hk (h hrow).digest.symm

theorem Keyed.held_eq (h : Keyed sha K rows) (hsha : DistinctDigests sha K) (hk : K k)
    (family : SemanticFamily) :
    held sha rows family k = rows[(family, sha k)]?.map RepresentativeRow.fact := by
  rw [held]
  cases hrow : rows[(family, sha k)]? with
  | none => rfl
  | some row => simp [h.key_eq hsha hk hrow]

theorem held_eq_some {g : SemanticFact} (hg : held sha rows family k = some g) :
    ∃ row, rows[(family, sha k)]? = some row ∧ row.key.text = k ∧ row.fact = g := by
  rw [held, Option.map_eq_some_iff] at hg
  obtain ⟨row, hrow, rfl⟩ := hg
  rw [Option.filter_eq_some_iff, decide_eq_true_eq] at hrow
  exact ⟨row, hrow.1, hrow.2, rfl⟩

theorem Keyed.held_insert (h : Keyed sha K rows) (hsha : DistinctDigests sha K) (hk : K k)
    {key : StoredKey} (hkey : key.text = k) (family' : SemanticFamily) (k' : Text) :
    held sha (rows.insert (family, sha k) ⟨key, f⟩) family' k' =
      if (family, k) = (family', k') then some f else held sha rows family' k' := by
  by_cases heq : (family, k) = (family', k')
  · cases heq
    rw [if_pos rfl, held, get_insert, if_pos rfl]
    simp [hkey]
  · rw [if_neg heq, held, get_insert]
    by_cases hslot : (family, sha k) = (family', sha k')
    · -- A key that is not stored may have the same digest; the new row is not about it.
      simp only [Prod.mk.injEq] at hslot heq
      have hne : k ≠ k' := fun he => heq ⟨hslot.1, he⟩
      have hnone : held sha rows family' k' = none := by
        by_contra hsome
        obtain ⟨g, hg⟩ := Option.ne_none_iff_exists'.mp hsome
        obtain ⟨row, hrow, hrowkey, -⟩ := held_eq_some hg
        rw [← hslot.2] at hrow
        exact hne ((h.key_eq hsha hk hrow).symm.trans hrowkey)
      rw [if_pos (Prod.ext hslot.1 hslot.2), hnone]
      simp [hkey, hne]
    · rw [if_neg hslot, held]

theorem key_known (hK : ∀ q ∈ f.keys, K q) (hid : materializedIdentity f = some (family, k)) :
    K k := by
  refine hK k ?_
  simp [SemanticFact.keys, hid]

theorem target_known (hK : ∀ q ∈ f.keys, K q) {q : Text} (hq : f.kind.requestId = some q) :
    K q := by
  refine hK q ?_
  simp [SemanticFact.keys, hq]

theorem Keyed.insert (h : Keyed sha K rows) (hK : ∀ q ∈ f.keys, K q)
    (hid : materializedIdentity f = some (family, k)) {key : StoredKey}
    (hkey : encodeIdentity k = .ok key) :
    Keyed sha K (rows.insert (family, sha k) ⟨key, f⟩) := by
  have htext := text_of_encodeIdentity hkey
  intro slot row hrow
  rw [get_insert] at hrow
  split at hrow
  · rename_i hslot
    cases hrow
    subst hslot
    refine ⟨congrArg sha htext.symm, ?_, ?_, ?_, fun q => target_known hK⟩
    · simpa only [htext] using key_known hK hid
    · simpa only [htext] using encodeIdentity_eq_ok_iff.mp ⟨key, hkey⟩
    · simpa only [htext] using hid
  · exact h hrow

end Rows

section Tables

variable (hsha : DistinctDigests sha K) (hkeyed : Keyed sha K tables.representatives)
  (h : Holds (held sha tables.representatives) s)
include hkeyed h

theorem isResponded_iff {q : Text} : tables.isResponded q = true ↔ q ∈ s.responded := by
  rw [h.mem_responded, isResponded, any_eq_true]
  simp only [Bool.and_eq_true, decide_eq_true_eq]
  constructor
  · rintro ⟨⟨⟨family, d⟩, row⟩, hrow, hfam, hq⟩
    have hrow := mem_toList_iff.mp hrow
    have hdigest : d = sha row.key.text := (hkeyed hrow).digest
    subst hdigest
    simp only at hfam
    subst hfam
    refine ⟨row.key.text, row.fact, ?_, hq⟩
    rw [held, hrow]
    simp
  · rintro ⟨k, g, hg, hq⟩
    obtain ⟨row, hrow, -, rfl⟩ := held_eq_some hg
    exact ⟨((.response, sha k), row), mem_toList_iff.mpr hrow, rfl, hq⟩

include hsha

theorem requestProjectionState_eq {q : Text} (hq : K q) :
    tables.requestProjectionState sha q =
      .ok (decide (q ∈ openRequests s), decide (q ∈ operativeRequests s)) := by
  have hheld := hkeyed.held_eq hsha hq .request
  rw [requestProjectionState, SemanticTables.representative]
  cases hrow : tables.representatives[(SemanticFamily.request, sha q)]? with
  | none =>
    rw [hrow] at hheld
    have hmem := h.requests.mem_iff selects_requestOf h.identity (k := q)
    rw [hheld] at hmem
    have hnot : q ∉ s.requestModes := by simpa using hmem
    simp [mem_openRequests, mem_operativeRequests, hnot]
  | some row =>
    rw [hrow, Option.map_some] at hheld
    obtain ⟨v, hsel, -, hv⟩ := h.requests.of_held selects_requestOf h.identity hheld
    have hmode := mode_of_requestOf hsel
    have hkey := hkeyed.key_eq hsha hq hrow
    have hmem : q ∈ s.requestModes := mem_iff.mpr ⟨v, hv⟩
    have hopen : (!tables.isResponded q) = decide (q ∈ openRequests s) := by
      rw [Bool.eq_iff_iff, Bool.not_eq_true', ← Bool.not_eq_true, isResponded_iff hkeyed h,
        decide_eq_true_eq, mem_openRequests]
      simp [hmem]
    have hoperative : (decide (q ∈ openRequests s) &&
        decide (row.fact.assertionMode = .operative)) = decide (q ∈ operativeRequests s) := by
      rw [Bool.eq_iff_iff, Bool.and_eq_true]
      simp only [decide_eq_true_eq, mem_openRequests, mem_operativeRequests, hv, ← hmode]
      simp [hmem, and_comm]
    simp [hkey, hopen, hoperative]

theorem requestStates_eq {affected : BTreeSet Text} (hK : ∀ q ∈ affected, K q) :
    tables.requestStates sha affected = .ok (affected.toList.map fun q =>
      (q, (decide (q ∈ openRequests s), decide (q ∈ operativeRequests s)))) := by
  refine mapM_eq_ok fun q hq => ?_
  rw [requestProjectionState_eq hsha hkeyed h (hK q (BTreeSet.mem_toList_iff.mp hq))]
  rfl

end Tables

theorem adjusted_card {A B : Finset Text} {q : Text} (h : ∀ j, j ≠ q → (j ∈ A ↔ j ∈ B)) :
    MaterializedSemanticState.adjusted A.card (decide (q ∈ A)) (decide (q ∈ B)) =
      .ok B.card := by
  have hsum : (A.card : Int) + ((decide (q ∈ B)).toNat - (decide (q ∈ A)).toNat : Int) =
      B.card := by
    have hcard := card_of_agree h
    by_cases hA : q ∈ A <;> by_cases hB : q ∈ B <;> simp [hA, hB] at hcard ⊢ <;> omega
  simp only [MaterializedSemanticState.adjusted, hsum, Int.toNat_natCast]
  exact if_neg (by omega)

theorem exists_switched (A B : Finset Text) (q : Text) :
    ∃ C : Finset Text, (q ∈ C ↔ q ∈ B) ∧ ∀ j, j ≠ q → (j ∈ A ↔ j ∈ C) := by
  by_cases hB : q ∈ B
  · exact ⟨insert q A, by simp [hB], fun j hj => by simp [hj]⟩
  · exact ⟨A.erase q, by simp [hB], fun j hj => by simp [hj]⟩

/-- One request after the other is settled, until the counters count the new sets. -/
theorem settle_run (hsha : DistinctDigests sha K) (rows : Representatives)
    (hkeyed : Keyed sha K rows) (h : Holds (held sha rows) s) {A₀ B₀ : Finset Text}
    (requests : List Text) (hnodup : requests.Nodup) (hK : ∀ q ∈ requests, K q)
    (tables : SemanticTables) (hrows : tables.representatives = rows)
    {A B : Finset Text} (hc : Counted tables.state s A B)
    (hbefore : ∀ q ∈ requests, (q ∈ A ↔ q ∈ A₀) ∧ (q ∈ B ↔ q ∈ B₀))
    (hafter : ∀ q ∉ requests, (q ∈ A ↔ q ∈ openRequests s) ∧ (q ∈ B ↔ q ∈ operativeRequests s)) :
    ∃ state, (requests.map fun q => (q, (decide (q ∈ A₀), decide (q ∈ B₀)))).foldlM
        (SemanticTables.settleRequest sha) tables = .ok { tables with state } ∧
      state.eventCount = tables.state.eventCount ∧
      Counted state s (openRequests s) (operativeRequests s) := by
  induction requests generalizing tables A B with
  | nil =>
    have hA : A = openRequests s := by
      ext q
      exact (hafter q (by simp)).1
    have hB : B = operativeRequests s := by
      ext q
      exact (hafter q (by simp)).2
    exact ⟨tables.state, rfl, rfl, hA ▸ hB ▸ hc⟩
  | cons q requests ih =>
    obtain ⟨C, hCq, hC⟩ := exists_switched A (openRequests s) q
    obtain ⟨D, hDq, hD⟩ := exists_switched B (operativeRequests s) q
    subst hrows
    have hstate := requestProjectionState_eq hsha hkeyed h (hK q (.head _))
    have hA := (hbefore q (.head _)).1
    have hB := (hbefore q (.head _)).2
    have hsettle : tables.settleRequest sha (q, (decide (q ∈ A₀), decide (q ∈ B₀))) =
        .ok { tables with state := { tables.state with
          openInputRequestCount := C.card, openOperativeInputRequestCount := D.card } } := by
      simp only [settleRequest, hstate,
        MaterializedSemanticState.adjustRequestStateCounts, hc.openInputRequestCount,
        hc.openOperativeInputRequestCount, ← hA, ← hB, ← hCq, ← hDq, bind, Except.bind,
        adjusted_card hC, adjusted_card hD]
    rw [nodup_cons] at hnodup
    have hne : ∀ j ∈ requests, j ≠ q := fun j hj he => hnodup.1 (he ▸ hj)
    rw [map_cons, foldlM_cons, hsettle]
    refine ih hnodup.2 (fun j hj => hK j (.tail _ hj)) _ rfl
      { hc with openInputRequestCount := rfl, openOperativeInputRequestCount := rfl } ?_ ?_
    · intro j hj
      exact ⟨(hC j (hne j hj)).symm.trans (hbefore j (.tail _ hj)).1,
        (hD j (hne j hj)).symm.trans (hbefore j (.tail _ hj)).2⟩
    · intro j hj
      by_cases hjq : j = q
      · subst hjq
        exact ⟨hCq, hDq⟩
      · have hout : j ∉ q :: requests := by simp [hjq, hj]
        exact ⟨(hC j hjq).symm.trans (hafter j hout).1, (hD j hjq).symm.trans (hafter j hout).2⟩

section Step

def duplicateRow (ids : BTreeSet Text) : Option DuplicateRow :=
  if ids.size < 2 then none else some ⟨ids.size, ids.toList.take 5⟩

/-- There is a row of duplicates for each key that has several carriers. -/
def Listed (duplicates : BTreeMap (SemanticFamily × Text) DuplicateRow) (events : SemanticEvents) :
    Prop :=
  ∀ key : SemanticFamily × Text, duplicates[key]? = events[key]?.bind duplicateRow

theorem Listed.upsert (hl : Listed tables.duplicates s.semanticEvents) {ids : BTreeSet Text}
    (hids : s.semanticEvents[(family, k)]? = some ids) (he : f.eventId ∉ ids)
    (hne : ids.toList ≠ []) :
    Listed (tables.upsertDuplicate family k (ids.size + 1) (ids.toList.take 5) f.eventId).duplicates
      (s.semanticEvents.addTo (family, k) f.eventId) := by
  intro key
  simp only [upsertDuplicate, get_insert, get_addTo]
  split
  · rename_i hkey
    have hsize : (ids.insert f.eventId).size = ids.size + 1 := by
      rw [ExtTreeSet.size_insert, if_neg]
      exact he
    have hpos : 0 < ids.size := by
      rw [← ExtTreeSet.length_toList]
      exact length_pos_iff.mpr hne
    rw [← hkey, setAt, hids, Option.getD_some, Option.bind_some, duplicateRow, hsize,
      if_neg (by omega), sortedUnique, BTreeSet.take_toList_insert he]
  · exact hl key

variable (hsha : DistinctDigests sha K) (hkeyed : Keyed sha K tables.representatives)
  (hid : materializedIdentity f = some (family, k)) (hK : ∀ q ∈ f.keys, K q)
include hsha hkeyed hid hK

/-- The requests that the store looks at again are all that the fact can touch. -/
theorem affectedRequests_spec : ∃ affected, SemanticTables.affectedRequests f family k
        (tables.representative sha family k) = .ok affected ∧ (∀ q ∈ affected, K q) ∧
      ∀ q, q ∉ affected → Untouched (held sha tables.representatives) f family k q := by
  have hk := key_known hK hid
  by_cases hrequest : family = .request
  · subst hrequest
    refine ⟨_, rfl, ?_, ?_⟩
    · intro q hq
      obtain rfl | hq := BTreeSet.mem_insert_iff.mp hq
      · exact hk
      · exact absurd hq (by simp)
    · intro q hq
      rw [BTreeSet.mem_insert_iff, not_or] at hq
      exact ⟨fun _ he => hq.1 he.symm, fun hne => absurd hne (by decide)⟩
  · by_cases hresponse : family = .response
    · subst hresponse
      obtain ⟨v, hsel⟩ := selects_targetOf.entry hid
      have htarget := requestId_of_targetOf hsel
      obtain ⟨response, hkind⟩ : ∃ response, f.kind = .inputRequestResponded response := by
        unfold SemanticFactKind.requestId at htarget
        cases hkind : f.kind <;> simp [hkind] at htarget ⊢
      have hheld := hkeyed.held_eq hsha hk .response
      refine ⟨_, by simp only [affectedRequests, hkind]; rfl, ?_, ?_⟩
      · intro q hq
        obtain rfl | hq := BTreeSet.mem_insert_iff.mp hq
        · exact target_known hK (by rw [hkind]; rfl)
        · simp only [BTreeSet.mem_collect, Option.mem_toList, Option.bind_eq_some_iff] at hq
          obtain ⟨row, hrow, hq⟩ := hq
          exact (hkeyed hrow).target q hq
      · intro q hq
        simp only [BTreeSet.mem_insert_iff, not_or, BTreeSet.mem_collect, Option.mem_toList,
          Option.bind_eq_some_iff, not_exists, not_and] at hq
        refine ⟨fun hne => absurd hne (by decide), fun _ => ⟨?_, ?_⟩⟩
        · rw [hkind]
          intro he
          exact hq.1 (Option.some.inj he).symm
        · intro g hg
          rw [hheld, Option.map_eq_some_iff] at hg
          obtain ⟨row, hrow, rfl⟩ := hg
          exact hq.2 row hrow
    · refine ⟨∅, ?_, fun q hq => absurd hq (by simp), fun q _ => ⟨fun h => absurd h hrequest,
        fun h => absurd h hresponse⟩⟩
      unfold affectedRequests
      cases family <;> first | rfl | exact absurd rfl hrequest | exact absurd rfl hresponse

variable (h : Holds (held sha tables.representatives) s)
include h

theorem Listed.update (hl : Listed tables.duplicates s.semanticEvents)
    (hfam : duplicateFamily family = true)
    (hfresh : f.eventId ∉ s.semanticEvents.setAt (family, k)) :
    ∃ duplicates, tables.updateMaterializedDuplicate sha family k f.eventId =
        .ok { tables with duplicates } ∧
      Listed duplicates (s.semanticEvents.addTo (family, k) f.eventId) := by
  have hk := key_known hK hid
  have hdup := hl (family, k)
  have hcarriers := h.carriers hfam (k := k)
  rw [hkeyed.held_eq hsha hk family] at hcarriers
  unfold updateMaterializedDuplicate SemanticTables.representative
  cases hids : s.semanticEvents[(family, k)]? with
  | none =>
    rw [hids] at hdup hcarriers
    rw [setAt, hids, Option.getD_none] at hfresh
    have hrow : tables.representatives[(family, sha k)]? = none := by
      simpa using hcarriers
    refine ⟨tables.duplicates, by rw [hdup, hrow]; rfl, ?_⟩
    intro key
    rw [get_addTo]
    split
    · rename_i hkey
      have hone : ((∅ : BTreeSet Text).insert f.eventId).size < 2 := by
        have hempty : (∅ : BTreeSet Text).size = 0 := by simp
        rw [ExtTreeSet.size_insert, hempty]
        split <;> decide
      rw [← hkey, hdup, setAt, hids, Option.getD_none, Option.bind_some, duplicateRow, if_pos hone]
      rfl
    · exact hl key
  | some ids =>
    have hne := h.nonempty hids
    rw [setAt, hids, Option.getD_some] at hfresh
    rw [hids, Option.bind_some] at hdup hcarriers
    refine ⟨_, ?_, hl.upsert hids hfresh hne⟩
    rw [hdup, duplicateRow]
    by_cases hsize : ids.size < 2
    · -- The first duplicate: the other carrier is the one that represents the key.
      have hone : ids.size = 1 := by
        have hpos := length_pos_iff.mpr hne
        rw [ExtTreeSet.length_toList] at hpos
        omega
      obtain ⟨b, hb⟩ := length_eq_one_iff.mp (ExtTreeSet.length_toList.trans hone)
      rw [hb, head?_cons, Option.map_map, Option.map_eq_some_iff] at hcarriers
      obtain ⟨row, hrow, rfl⟩ := hcarriers
      simp only [hrow, hkeyed.key_eq hsha hk hrow, ne_eq, not_true, if_false, hone, hb]
      rfl
    · rw [if_neg hsize]
      rfl

theorem replaceRepresentative_ok
    (hc : Counted tables.state s (openRequests s) (operativeRequests s))
    (hfresh : ∀ key, f.eventId ∉ s.semanticEvents.setAt key)
    (hlt : (held sha tables.representatives family k).all
      (fun g => compare f.eventId g.eventId = .lt) = true) (hsplit : SplitsCleanly k) :
    ∃ rows state, tables.replaceRepresentative sha f family k
        (tables.representative sha family k) =
          .ok { tables with representatives := rows, state } ∧
      Keyed sha K rows ∧ held sha rows = (held sha tables.representatives).next f family k ∧
      state.eventCount = tables.state.eventCount ∧
      Counted state (s.enter f) (openRequests (s.enter f)) (operativeRequests (s.enter f)) := by
  have hk := key_known hK hid
  have hheld := hkeyed.held_eq hsha hk family
  obtain ⟨affected, haffected, hKaffected, huntouched⟩ :=
    affectedRequests_spec hsha hkeyed hid hK
  obtain ⟨key, hkey⟩ := encodeIdentity_eq_ok_iff.mpr hsplit
  have hkeyed' := hkeyed.insert hK hid hkey
  have hnext : held sha (tables.representatives.insert (family, sha k) ⟨key, f⟩) =
      (held sha tables.representatives).next f family k := by
    funext family' k'
    rw [hkeyed.held_insert hsha hk (text_of_encodeIdentity hkey), Holding.next]
    simp [hlt]
  have h' := h.next hid hfresh
  -- The counters that do not depend on requests.
  obtain ⟨state, hstate, hcount, hc'⟩ : ∃ state,
      tables.state.countRepresentative family k f (tables.representative sha family k).isNone =
        .ok state ∧ state.eventCount = tables.state.eventCount ∧
      Counted state (s.enter f) (openRequests s) (operativeRequests s) := by
    rw [SemanticTables.representative]
    cases hrow : tables.representatives[(family, sha k)]? with
    | none =>
      rw [hrow] at hheld
      exact hc.increment h hid hheld
    | some row =>
      rw [hrow, Option.map_some] at hheld
      rw [hheld, Option.all_some, decide_eq_true_eq] at hlt
      exact hc.replace h hid hheld hlt
  obtain ⟨state', hsettle, hcount', hc''⟩ := settle_run hsha _ hkeyed' (hnext ▸ h')
    affected.toList BTreeSet.nodup_toList
    (fun q hq => hKaffected q (BTreeSet.mem_toList_iff.mp hq))
    { tables with
      representatives := tables.representatives.insert (family, sha k) ⟨key, f⟩, state } rfl hc'
    (fun q _ => ⟨Iff.rfl, Iff.rfl⟩)
    (fun q hq => by
      have hq' := huntouched q fun hmem => hq (BTreeSet.mem_toList_iff.mpr hmem)
      simp only [mem_openRequests, mem_operativeRequests, mem_iff, h.mode_untouched h' hq',
        h.responded_untouched h' hq', and_self])
  refine ⟨_, state', ?_, hkeyed', hnext, hcount'.trans hcount, hc''⟩
  simp only [replaceRepresentative, haffected,
    requestStates_eq hsha hkeyed h hKaffected, hkey, hstate, bind, Except.bind]
  exact hsettle

variable (tables)

theorem recordDuplicate_ok (hl : Listed tables.duplicates s.semanticEvents)
    (hfresh : ∀ key, f.eventId ∉ s.semanticEvents.setAt key) :
    ∃ duplicates, tables.recordDuplicate sha family k f.eventId = .ok { tables with duplicates } ∧
      Listed duplicates (s.enter f).semanticEvents := by
  simp only [SemanticReducer.enter, carrierOf_eq hid, recordDuplicate]
  by_cases hfam : duplicateFamily family = true
  · simp only [if_pos hfam]
    exact hl.update hsha hkeyed hid hK h hfam (hfresh _)
  · simp only [if_neg hfam]
    exact ⟨tables.duplicates, rfl, hl⟩

/-- The fact meets its key: it becomes the representative, or it does not. -/
theorem retainRepresentative_ok (hc : Counted tables.state s (openRequests s) (operativeRequests s))
    (hfresh : ∀ key, f.eventId ∉ s.semanticEvents.setAt key) (hsplit : SplitsCleanly k) :
    ∃ rows state, tables.retainRepresentative sha f family k =
        .ok { tables with representatives := rows, state } ∧
      Keyed sha K rows ∧ held sha rows = (held sha tables.representatives).next f family k ∧
      state.eventCount = tables.state.eventCount ∧
      Counted state (s.enter f) (openRequests (s.enter f)) (operativeRequests (s.enter f)) := by
  have hk := key_known hK hid
  have hheld := hkeyed.held_eq hsha hk family
  have hkey : ¬ (tables.representative sha family k).any (fun row => row.key.text ≠ k) = true := by
    rw [SemanticTables.representative, Option.any_eq_true]
    rintro ⟨row, hrow, hne⟩
    exact of_decide_eq_true hne (hkeyed.key_eq hsha hk hrow)
  have hall : (tables.representative sha family k).all
      (fun row => compare f.eventId row.fact.eventId = .lt) =
      (held sha tables.representatives family k).all
        fun g => compare f.eventId g.eventId = .lt := by
    rw [hheld, Option.all_map]
    rfl
  simp only [retainRepresentative, if_neg hkey, hall]
  by_cases hlt : (held sha tables.representatives family k).all
      (fun g => compare f.eventId g.eventId = .lt) = true
  · rw [if_pos hlt]
    exact replaceRepresentative_ok hsha hkeyed hid hK h hc hfresh hlt hsplit
  · rw [if_neg hlt]
    have hnext : (held sha tables.representatives).next f family k =
        held sha tables.representatives := by
      funext family' k'
      rw [Holding.next, if_neg fun hcond => hlt hcond.2]
    obtain ⟨g, hg⟩ : ∃ g, held sha tables.representatives family k = some g := by
      rw [← Option.isSome_iff_exists, Option.isSome_iff_ne_none]
      intro hnone
      exact hlt (by rw [hnone]; rfl)
    have h' := h.next hid hfresh
    rw [hnext] at h'
    have hcaptures := h'.captures.unique h.captures
    have hcurrent : (s.enter f).current = s.current := by
      rw [SemanticReducer.current, SemanticReducer.current, hcaptures]
    have hopen : openRequests (s.enter f) = openRequests s ∧
        operativeRequests (s.enter f) = operativeRequests s := by
      have hresponded : (s.enter f).responded = s.responded := by
        rw [SemanticReducer.responded, SemanticReducer.responded, h'.targets.unique h.targets]
      simp [openRequests, operativeRequests, h'.requests.unique h.requests, hresponded]
    refine ⟨tables.representatives, tables.state, rfl, hkeyed, hnext.symm, rfl, ?_⟩
    rw [hopen.1, hopen.2]
    exact hc.of_counts (h.counts hid) (by simp [hg]) rfl (hcurrent ▸ hc.currentRevisionId)
      (hcurrent ▸ hc.currentObjectId)

omit hid hK h in
/-- A key that has a representative was cut already, and another one is cut now. -/
theorem splits_of_retainRepresentative (hk : K k) {tables' : SemanticTables}
    (hok : tables.retainRepresentative sha f family k = .ok tables') : SplitsCleanly k := by
  cases hrow : tables.representative sha family k with
  | some row => exact hkeyed.key_eq hsha hk hrow ▸ (hkeyed hrow).splits
  | none =>
    simp only [retainRepresentative, hrow] at hok
    obtain ⟨_, -, hok⟩ := bind_eq_ok.mp hok
    obtain ⟨_, -, hok⟩ := bind_eq_ok.mp hok
    obtain ⟨key, hkey, -⟩ := bind_eq_ok.mp hok
    exact encodeIdentity_eq_ok_iff.mp ⟨key, hkey⟩

end Step

/-- The tables after some facts, and the reducer after the same facts. -/
structure Materializes (sha : Sha256) (K : Text → Prop) (journalId : Text)
    (tables : SemanticTables) (s : SemanticReducer) (done : List SemanticFact) : Prop where
  facts : tables.eventFacts = done
  keyed : Keyed sha K tables.representatives
  holds : Holds (held sha tables.representatives) s
  listed : Listed tables.duplicates s.semanticEvents
  counted : Counted tables.state s (openRequests s) (operativeRequests s)
  eventCount : tables.state.eventCount = done.length
  carriers : ∀ key e, e ∈ s.semanticEvents.setAt key → ∃ g ∈ done, g.eventId = e
  journal : s.journalId = if done = [] then DEFAULT_JOURNAL_ID else journalId
  journals : ∀ g ∈ done, g.journalId = journalId

structure Arrives (K : Text → Prop) (journalId : Text) (done : List SemanticFact)
    (f : SemanticFact) : Prop where
  complete : f.Complete
  journal : f.journalId = journalId
  fresh : ∀ g ∈ done, g.eventId ≠ f.eventId
  known : ∀ q ∈ f.keys, K q

theorem Holds.init : Holds (held sha ∅) {} := by
  constructor <;> simp [held, Represents]

theorem Counted.init : Counted {} {} (openRequests {}) (operativeRequests {}) := by
  have hkeys : (∅ : SemanticEvents).keys = [] := by simp [← ExtTreeMap.map_fst_toList_eq_keys]
  have hlist : (∅ : BTreeMap Text (CanonicalFactValue AssertionMode)).toList = [] := by simp
  constructor <;> simp [SemanticReducer.current, countFamily, openRequests, operativeRequests,
    matching, hkeys, hlist]

theorem Materializes.init : Materializes sha K journalId {} {} [] := by
  refine ⟨rfl, ?_, .init, ?_, .init, ?_, ?_, ?_, fun _ h => absurd h not_mem_nil⟩
  · intro slot row hrow
    simp at hrow
  · intro key
    simp
  · simp
  · intro key e he
    simp [setAt] at he
  · simp

theorem latestInitialized_isSome (facts : List SemanticFact) (hf : f ∈ facts)
    (htype : f.eventType = EventType.reviewInitialized.asStr) (hid : f.semanticId = none) :
    ∃ row, latestInitialized facts = some row := by
  rw [← Option.isSome_iff_exists, latestInitialized, isSome_head?]
  intro hnil
  have hmem : f ∈ (facts.filter fun fact => fact.eventType = reviewInitialized.asStr &&
      fact.semanticId.isNone).insertionSort laterFactLE := by
    rw [mem_insertionSort, mem_filter]
    simp [hf, htype, hid]
  rw [hnil] at hmem
  exact absurd hmem not_mem_nil

theorem Materializes.advance (h : Materializes sha K journalId tables s done)
    (hf : Arrives K journalId done f) :
    SemanticTables.advance { tables with eventFacts := done ++ [f] } f =
        .ok { tables with
          eventFacts := done ++ [f]
          state := { tables.state with eventCount := done.length + 1, journalId } } ∧
      s.setJournal f = { s with journalId } := by
  have hjournal := h.journal
  have hstate := h.counted.journalId
  constructor
  · unfold SemanticTables.advance
    by_cases htype : f.eventType = reviewInitialized.asStr
    · obtain ⟨row, hrow⟩ := latestInitialized_isSome (done ++ [f]) (by simp) htype
        (hf.complete.initialized htype)
      have hrowJournal : row.journalId = journalId := by
        have hmem := mem_of_head? hrow
        rw [mem_insertionSort, mem_filter, mem_append] at hmem
        obtain hmem | hmem := hmem.1
        · exact h.journals row hmem
        · rw [mem_singleton.mp hmem]
          exact hf.journal
      simp only [if_pos htype, hrow, hrowJournal, h.eventCount]
    · rw [if_neg htype]
      simp only [h.eventCount, hf.journal, hstate, hjournal, length_eq_zero_iff]
      by_cases hdone : done = [] <;> simp [hdone]
  · unfold setJournal
    rw [hf.journal]
    split
    · rfl
    · rename_i hkeep
      have hdone : done ≠ [] := by
        intro hdone
        rw [if_pos hdone] at hjournal
        exact hkeep (.inr hjournal)
      rw [if_neg hdone] at hjournal
      rw [← hjournal]

theorem enter_of_identity_none (hid : materializedIdentity f = none) : s.enter f = s := by
  have hnone : ∀ {α : Type} {family : SemanticFamily}
      {sel : SemanticFact → Option (Text × CanonicalFactValue α)}, Selects family sel →
      sel f = none := by
    intro α family sel hs
    by_contra hsome
    obtain ⟨⟨k, v⟩, hv⟩ := Option.ne_none_iff_exists'.mp hsome
    have hidentity := hs.identity hv
    rw [hid] at hidentity
    cases hidentity
  rw [SemanticReducer.enter, hnone selects_captureOf, hnone selects_requestOf,
    hnone selects_targetOf, carrierOf, hid]
  rfl

theorem Arrives.not_carrier (hf : Arrives K journalId done f)
    (h : ∀ key e, e ∈ s.semanticEvents.setAt key → ∃ g ∈ done, g.eventId = e)
    (key : SemanticFamily × Text) : f.eventId ∉ s.semanticEvents.setAt key := by
  intro hmem
  obtain ⟨g, hg, he⟩ := h key _ hmem
  exact hf.fresh g hg he

theorem carriers_enter (h : ∀ key e, e ∈ s.semanticEvents.setAt key → ∃ g ∈ done, g.eventId = e)
    {key : SemanticFamily × Text} {e : Text} (he : e ∈ (s.enter f).semanticEvents.setAt key) :
    ∃ g ∈ done ++ [f], g.eventId = e := by
  rw [SemanticReducer.enter] at he
  cases hcarrier : carrierOf f with
  | none =>
    rw [hcarrier] at he
    obtain ⟨g, hg, hge⟩ := h key e he
    exact ⟨g, mem_append_left _ hg, hge⟩
  | some key' =>
    rw [hcarrier] at he
    obtain heq | he := mem_setAt_addTo.mp he
    · cases heq
      exact ⟨f, by simp, rfl⟩
    · obtain ⟨g, hg, hge⟩ := h key e he
      exact ⟨g, mem_append_left _ hg, hge⟩

/-- One fact keeps the tables and the reducer in step. -/
theorem Materializes.insertFact (hsha : DistinctDigests sha K)
    (h : Materializes sha K journalId tables s done) (hf : Arrives K journalId done f)
    (hsplit : ∀ key ∈ f.storedKeys, SplitsCleanly key) :
    ∃ tables' s', tables.insertFact sha f = .ok tables' ∧ s.apply f = .ok s' ∧
      Materializes sha K journalId tables' s' (done ++ [f]) := by
  obtain ⟨hadvance, hset⟩ := h.advance hf
  have happly : s.apply f = .ok ({ s with journalId }.enter f) := by
    rw [SemanticReducer.apply, hset, applyKind_eq hf.complete]
  have hjournals : ∀ g ∈ done ++ [f], g.journalId = journalId := by
    intro g hg
    obtain hg | hg := mem_append.mp hg
    · exact h.journals g hg
    · rw [mem_singleton.mp hg]
      exact hf.journal
  have hjournal : journalId = if done ++ [f] = [] then DEFAULT_JOURNAL_ID else journalId := by
    simp
  have hholds : Holds (held sha tables.representatives) { s with journalId } := { h.holds with }
  have hcounted : Counted { tables.state with eventCount := done.length + 1, journalId }
      { s with journalId } (openRequests { s with journalId })
      (operativeRequests { s with journalId }) := { h.counted with journalId := rfl }
  have hfresh := hf.not_carrier h.carriers
  obtain ⟨hids, hkey⟩ := forall_mem_append.mp hsplit
  simp only [insertFact_eq_ok, and_assoc, exists_and_left]
  refine ⟨hids, ?_⟩
  rw [h.facts, updateMaterializedProjection, hadvance]
  cases hid : materializedIdentity f with
  | none =>
    rw [enter_of_identity_none hid] at happly
    refine ⟨_, rfl, _, happly, ⟨rfl, h.keyed, hholds, h.listed, hcounted, by simp, ?_, hjournal,
      hjournals⟩⟩
    intro key e he
    obtain ⟨g, hg, hge⟩ := h.carriers key e he
    exact ⟨g, mem_append_left _ hg, hge⟩
  | some identity =>
    obtain ⟨family, k⟩ := identity
    obtain ⟨duplicates, hduplicates, hlisted⟩ := recordDuplicate_ok { tables with
        eventFacts := done ++ [f]
        state := { tables.state with eventCount := done.length + 1, journalId } }
      hsha h.keyed hid hf.known hholds h.listed hfresh
    obtain ⟨rows, state, hretain, hkeyed, hnext, hcount, hc⟩ := retainRepresentative_ok
      { tables with
        eventFacts := done ++ [f]
        state := { tables.state with eventCount := done.length + 1, journalId }
        duplicates } hsha h.keyed hid hf.known hholds hcounted hfresh
        (hkey k (by simp [hid]))
    refine ⟨{ eventFacts := done ++ [f], representatives := rows, duplicates, state }, ?_, _,
      happly, ⟨rfl, hkeyed, ?_, hlisted, hc, ?_, ?_, hjournal, hjournals⟩⟩
    · simp only [bind, Except.bind, hduplicates, hretain]
    · exact hnext ▸ hholds.next hid hfresh
    · rw [hcount]
      simp
    · intro key e he
      exact carriers_enter h.carriers he

variable {tables' : SemanticTables}

theorem Materializes.splits_of_insertFact (hsha : DistinctDigests sha K)
    (h : Materializes sha K journalId tables s done) (hf : Arrives K journalId done f)
    (hok : tables.insertFact sha f = .ok tables') : ∀ key ∈ f.storedKeys, SplitsCleanly key := by
  obtain ⟨hids, hok⟩ := insertFact_eq_ok.mp hok
  refine forall_mem_append.mpr ⟨hids, fun k hk => ?_⟩
  simp only [Option.mem_toList, Option.map_eq_some_iff] at hk
  obtain ⟨⟨family, k⟩, hid, rfl⟩ := hk
  obtain ⟨hadvance, -⟩ := h.advance hf
  obtain ⟨duplicates, hduplicates, -⟩ := recordDuplicate_ok { tables with
      eventFacts := done ++ [f]
      state := { tables.state with eventCount := done.length + 1, journalId } }
    hsha h.keyed hid hf.known h.holds h.listed (hf.not_carrier h.carriers)
  rw [h.facts, updateMaterializedProjection, hadvance] at hok
  simp only [bind, Except.bind, hid, hduplicates] at hok
  refine splits_of_retainRepresentative _ hsha ?_ (key_known hf.known hid) hok
  exact h.keyed

structure Arrivals (K : Text → Prop) (journalId : Text) (l : List SemanticFact) : Prop where
  complete : ∀ f ∈ l, f.Complete
  journal : ∀ f ∈ l, f.journalId = journalId
  distinct : (l.map SemanticFact.eventId).Nodup
  known : ∀ f ∈ l, ∀ q ∈ f.keys, K q

theorem Arrivals.head {l : List SemanticFact} (h : Arrivals K journalId (done ++ f :: l)) :
    Arrives K journalId done f where
  complete := h.complete f (by simp)
  journal := h.journal f (by simp)
  fresh := by
    intro g hg he
    have hdistinct := h.distinct
    rw [map_append, nodup_append] at hdistinct
    exact hdistinct.2.2 g.eventId (mem_map_of_mem hg) f.eventId (by simp) he
  known := h.known f (by simp)

theorem Materializes.run (hsha : DistinctDigests sha K) (l : List SemanticFact)
    (hl : Arrivals K journalId (done ++ l)) (h : Materializes sha K journalId tables s done)
    (hsplit : ∀ f ∈ l, ∀ key ∈ f.storedKeys, SplitsCleanly key) :
    ∃ tables' s', l.foldlM (SemanticTables.insertFact sha) tables = .ok tables' ∧
      l.foldlM SemanticReducer.apply s = .ok s' ∧
      Materializes sha K journalId tables' s' (done ++ l) := by
  induction l generalizing tables s done with
  | nil => exact ⟨tables, s, rfl, rfl, by simpa using h⟩
  | cons f l ih =>
    obtain ⟨tables₁, s₁, hinsert, happly, h₁⟩ := h.insertFact hsha hl.head (hsplit f (.head _))
    have hassoc : done ++ f :: l = (done ++ [f]) ++ l := by simp
    obtain ⟨tables', s', hrun, hreduce, h'⟩ :=
      ih (hassoc ▸ hl) h₁ fun g hg => hsplit g (.tail _ hg)
    refine ⟨tables', s', ?_, ?_, hassoc ▸ h'⟩
    · rw [foldlM_cons, hinsert]
      exact hrun
    · rw [foldlM_cons, happly]
      exact hreduce

theorem Materializes.splits_of_run (hsha : DistinctDigests sha K) (l : List SemanticFact)
    (hl : Arrivals K journalId (done ++ l)) (h : Materializes sha K journalId tables s done)
    (hok : l.foldlM (SemanticTables.insertFact sha) tables = .ok tables') :
    ∀ f ∈ l, ∀ key ∈ f.storedKeys, SplitsCleanly key := by
  induction l generalizing tables s done with
  | nil => exact fun f hf => absurd hf not_mem_nil
  | cons f l ih =>
    rw [foldlM_cons, bind_eq_ok] at hok
    obtain ⟨tables₁, hinsert, hrun⟩ := hok
    have hsplit := h.splits_of_insertFact hsha hl.head hinsert
    obtain ⟨_, s₁, hinsert', -, h₁⟩ := h.insertFact hsha hl.head hsplit
    cases hinsert.symm.trans hinsert'
    have hassoc : done ++ f :: l = (done ++ [f]) ++ l := by simp
    exact forall_mem_cons.mpr ⟨hsplit, ih (hassoc ▸ hl) h₁ hrun⟩

section Order

variable {g : SemanticFact}

def SemanticReducer.step (s : SemanticReducer) (f : SemanticFact) : SemanticReducer :=
  (s.setJournal f).enter f

theorem setJournal_eq : s.setJournal f = { s with
    journalId := if f.eventType = EventType.reviewInitialized.asStr ∨
        s.journalId = DEFAULT_JOURNAL_ID then f.journalId else s.journalId } := by
  unfold setJournal
  split <;> rfl

theorem SemanticReducer.step_comm (hne : f.eventId ≠ g.eventId)
    (hjournal : f.journalId = g.journalId) : (s.step f).step g = (s.step g).step f := by
  have hswap : ∀ (s : SemanticReducer) (f g : SemanticFact),
      (s.enter f).setJournal g = (s.setJournal g).enter f := by
    intro s f g
    rw [setJournal_eq, setJournal_eq]
    rfl
  have hset : (s.setJournal f).setJournal g = (s.setJournal g).setJournal f := by
    simp only [setJournal_eq, hjournal]
    by_cases hf : f.eventType = reviewInitialized.asStr <;>
      by_cases hg : g.eventType = reviewInitialized.asStr <;>
      by_cases hs : s.journalId = DEFAULT_JOURNAL_ID <;> simp [hf, hg, hs]
  simp only [SemanticReducer.step]
  rw [hswap, hswap, hset, enter_comm hne]

theorem foldlM_apply {facts : List SemanticFact} (h : ∀ f ∈ facts, f.Complete) :
    facts.foldlM SemanticReducer.apply s = .ok (facts.foldl SemanticReducer.step s) := by
  refine foldlM_eq_ok (fun s f hf => ?_) s
  rw [SemanticReducer.apply, applyKind_eq (h f hf)]
  rfl

end Order

def duplicateEntry (group : (SemanticFamily × Text) × BTreeSet Text) :
    Option MaterializedSemanticDuplicate :=
  (duplicateRow group.2).map fun row => (group.1, row)

variable {duplicates : BTreeMap (SemanticFamily × Text) DuplicateRow} {events : SemanticEvents}

theorem Listed.toList_eq (h : Listed duplicates events) :
    duplicates.toList = events.toList.filterMap duplicateEntry := by
  refine eq_of_ordered Prod.fst duplicates.ordered_keys_toList ?_ ?_
  · refine events.ordered_keys_toList.filterMap _ ?_
    intro x y hxy x' hx' y' hy'
    obtain ⟨_, -, rfl⟩ := Option.map_eq_some_iff.mp hx'
    obtain ⟨_, -, rfl⟩ := Option.map_eq_some_iff.mp hy'
    exact hxy
  · rintro ⟨key, row⟩
    rw [mem_toList_iff, h key, mem_filterMap, Option.bind_eq_some_iff]
    constructor
    · rintro ⟨ids, hids, hrow⟩
      exact ⟨(key, ids), mem_toList_iff.mpr hids, by rw [duplicateEntry, hrow]; rfl⟩
    · rintro ⟨⟨key', ids⟩, hids, hentry⟩
      obtain ⟨row', hrow, heq⟩ := Option.map_eq_some_iff.mp hentry
      cases heq
      exact ⟨ids, mem_toList_iff.mp hids, hrow⟩

theorem Listed.diagnostics (h : Listed duplicates events)
    (hfamilies : ∀ key ∈ events, duplicateFamily key.1 = true) :
    materializedDuplicateDiagnostics (duplicates.toList.filter fun d => 2 ≤ d.2.eventCount) =
      duplicateDiagnostics events := by
  have hrank : ∀ key ∈ events, key.1.duplicateRank < 5 := by
    intro key hkey
    have hfamily := hfamilies key hkey
    revert hfamily
    cases key.1 <;> decide
  have hfilter : duplicates.toList.filter (fun d => 2 ≤ d.2.eventCount) = duplicates.toList := by
    rw [filter_eq_self]
    rintro ⟨key, row⟩ hrow
    rw [mem_toList_iff, h key, Option.bind_eq_some_iff] at hrow
    obtain ⟨ids, -, hrow⟩ := hrow
    unfold duplicateRow at hrow
    split at hrow
    · cases hrow
    · cases hrow
      rw [decide_eq_true_eq]
      change 2 ≤ ids.size
      omega
  have hsort : duplicates.toList.insertionSort duplicateGroupLE =
      (events.toList.insertionSort duplicateGroupLE).filterMap duplicateEntry := by
    refine insertionSort_eq_of_perm duplicateGroupCmp (fun _ _ => Iff.rfl) ?_ ?_ ?_
    · rw [h.toList_eq]
      exact (events.toList.perm_insertionSort _).symm.filterMap _
    · rintro ⟨key, row⟩ hx y hy hcmp
      have hget := mem_toList_iff.mp hx
      rw [h key, Option.bind_eq_some_iff] at hget
      obtain ⟨ids, hids, -⟩ := hget
      exact eq_of_duplicateGroupCmp (hrank key (mem_iff.mpr ⟨ids, hids⟩)) hx hy hcmp
    · rw [sort_duplicateGroups hrank]
      refine pairwise_familyGroups.filterMap _ ?_
      intro x y hxy x' hx' y' hy'
      obtain ⟨_, -, rfl⟩ := Option.map_eq_some_iff.mp hx'
      obtain ⟨_, -, rfl⟩ := Option.map_eq_some_iff.mp hy'
      change (duplicateGroupCmp x y).isLE = true
      rw [hxy]
      rfl
  rw [materializedDuplicateDiagnostics, hfilter, hsort, filterMap_filterMap,
    duplicateDiagnostics]
  congr 1
  funext group
  unfold duplicateEntry duplicateRow duplicateDiagnostic
  by_cases hsize : group.2.size < 2
  · simp [hsize]
  · simp [hsize, materializedDuplicateDiagnostic, listedEventIds, DUPLICATE_EVENT_LIMIT]

theorem Materializes.query (h : Materializes sha K journalId tables s done) (hash : Text) :
    tables.queryMaterializedState = { s.finish done.length hash with eventSetHash := none } := by
  have hc := h.counted
  have hopen : (openRequests s).card = (s.requestModes.keys.filter (· ∉ s.responded)).length := by
    rw [openRequests, card_matching, ← ExtTreeMap.map_fst_toList_eq_keys, filter_map,
      length_map]
    rfl
  simp only [queryMaterializedState, fromMaterialized,
    SemanticReducer.finish, h.listed.diagnostics h.holds.families, hc.journalId, hc.revisionCount,
    hc.currentRevisionId, hc.currentObjectId, hc.observationCount, hc.assessmentCount,
    hc.validationCheckCount, hc.inputRequestCount, hc.openInputRequestCount,
    hc.openOperativeInputRequestCount, h.eventCount, hopen, operativeRequests,
    card_matching]
  rfl

end Rules

/-- Facts of one journal, with distinct event ids, are applied one at a time and in any order. The
materialised state is the one that a reduction of the list gives, exactly when the keys that are
stored of each fact can be cut before their last sixty-four bytes. -/
theorem materialized_eq_batch_iff {V : Type} {rt : Runtime V} {facts arrival : List SemanticFact}
    {journalId : Text} (hfacts : ∀ f ∈ facts, ∃ e, Yields rt e f)
    (hids : (facts.map SemanticFact.eventId).Nodup)
    (hjournal : ∀ f ∈ facts, f.journalId = journalId)
    (hsha : DistinctDigests rt.sha256 (· ∈ facts.flatMap SemanticFact.keys))
    (harrival : arrival.Perm facts) :
    (∃ snapshot tables, SemanticStateSnapshot.fromFacts rt.sha256 facts = .ok snapshot ∧
      arrival.foldlM (SemanticTables.insertFact rt.sha256) {} = .ok tables ∧
      tables.queryMaterializedState = { snapshot with eventSetHash := none }) ↔
    ∀ f ∈ facts, ∀ key ∈ f.storedKeys, SplitsCleanly key := by
  have hcomplete : ∀ f ∈ facts, f.Complete := by
    intro f hf
    obtain ⟨e, he⟩ := hfacts f hf
    exact he.factOf.complete
  have harrivals : Arrivals (· ∈ facts.flatMap SemanticFact.keys) journalId ([] ++ arrival) := by
    refine ⟨?_, ?_, (harrival.map _).nodup_iff.mpr hids, ?_⟩ <;>
      intro f hf <;> have hf := harrival.mem_iff.mp hf
    · exact hcomplete f hf
    · exact hjournal f hf
    · intro q hq
      exact mem_flatMap.mpr ⟨f, hf, hq⟩
  constructor
  · rintro ⟨snapshot, tables, -, hrun, -⟩ f hf
    exact Materializes.init.splits_of_run hsha arrival harrivals hrun f (harrival.mem_iff.mpr hf)
  · intro hsplit
    obtain ⟨tables, s, hrun, hreduce, h⟩ := Materializes.init.run hsha arrival harrivals <| by
      intro f hf
      exact hsplit f (harrival.mem_iff.mp hf)
    have hbatch : facts.foldlM SemanticReducer.apply {} = .ok s := by
      rw [← hreduce, foldlM_apply hcomplete,
        foldlM_apply fun f hf => hcomplete f (harrival.mem_iff.mp hf)]
      -- the order of facts with distinct event ids, all of one journal, does not matter
      refine congrArg Except.ok (harrival.symm.foldl_eq' (fun f hf g hg s => ?_) _)
      by_cases he : f.eventId = g.eventId
      · rw [inj_on_of_nodup_map hids hf hg he]
      · exact step_comm he ((hjournal f hf).trans (hjournal g hg).symm)
    refine ⟨_, tables, by simp only [fromFacts, hbatch]; rfl, hrun, ?_⟩
    rw [h.query, nil_append, harrival.length_eq]

section Instances

open Recorded
open StoreRecorded (checksum)

/-- An observation whose id is an accented letter and sixty-three others. -/
def accented : ShoreEvent WirePayload :=
  event 1 (.reviewObservationRecorded
    { observationId := ⟨text "é" ++ List.replicate 63 97⟩, target := .revision (rev 1) })

/-- The reduction counts the observation; the store panics at the second byte of the letter. -/
theorem accented_stops : ∃ f snapshot, Yields runtime accented f ∧
      SemanticStateSnapshot.fromFacts sha [f] = .ok snapshot ∧ snapshot.observationCount = 1 ∧
      [f].foldlM (SemanticTables.insertFact sha) {} =
        .error (.panicked (text "failed to slice string")) := by
  have hrun : ∃ f, readFact accented = .ok f ∧
      ∃ snapshot, fromFacts sha [f] = .ok snapshot ∧
        snapshot.observationCount = 1 ∧ ∃ error,
          [f].foldlM (SemanticTables.insertFact sha) {} = .error error ∧
            error = .panicked (text "failed to slice string") := by
    decide +kernel
  obtain ⟨f, hf, snapshot, hsnapshot, hcount, _, hinsert, rfl⟩ := hrun
  exact ⟨f, snapshot, ⟨_, _, hf⟩, hsnapshot, hcount, hinsert⟩

def checkedRuntime : Runtime WirePayload := WirePayload.runtime checksum

/-- The facts of `reopened`, last first. -/
theorem reopened_materialized :
    ∃ facts snapshot tables, List.Forall₂ (Yields checkedRuntime) reopened facts ∧
      SemanticStateSnapshot.fromFacts checksum facts = .ok snapshot ∧
      facts.reverse.foldlM (SemanticTables.insertFact checksum) {} = .ok tables ∧
      tables.queryMaterializedState = { snapshot with eventSetHash := none } ∧
      snapshot.openInputRequestCount = 1 ∧ snapshot.diagnostics.length = 1 := by
  have hread : ∃ facts, (reopened.mapM fun e => SemanticFact.fromEvent checkedRuntime e ⟨1, 1⟩
        (Text.hexOf 64 0 [])) = .ok facts ∧
      (facts.map SemanticFact.eventId).Nodup ∧ (∀ f ∈ facts, f.journalId = DEFAULT_JOURNAL_ID) ∧
      (∀ f ∈ facts, ∀ key ∈ f.storedKeys, SplitsCleanly key) ∧
      (∀ k ∈ facts.flatMap SemanticFact.keys, ∀ k' ∈ facts.flatMap SemanticFact.keys,
        checksum k = checksum k' → k = k') ∧
      ∃ snapshot, fromFacts checksum facts = .ok snapshot ∧
        snapshot.openInputRequestCount = 1 ∧ snapshot.diagnostics.length = 1 := by
    decide +kernel
  obtain ⟨facts, hfacts, hids, hjournal, hsplit, hdigests, snapshot', hsnapshot', hcounts⟩ := hread
  have hyields : List.Forall₂ (Yields checkedRuntime) reopened facts :=
    (forall₂_of_mapM hfacts).imp fun e f hf => ⟨⟨1, 1⟩, Text.hexOf 64 0 [], hf⟩
  have hof : ∀ f ∈ facts, ∃ e, Yields checkedRuntime e f := by
    intro f hf
    obtain ⟨e, -, he⟩ := (mapM_spec hfacts).2 f hf
    exact ⟨e, _, _, he⟩
  have hsha : DistinctDigests checkedRuntime.sha256 (· ∈ facts.flatMap SemanticFact.keys) :=
    fun k k' hk hk' => hdigests k hk k' hk'
  obtain ⟨snapshot, tables, hbatch, hrun, hquery⟩ :=
    (materialized_eq_batch_iff hof hids hjournal hsha facts.reverse_perm).mpr hsplit
  cases hbatch.symm.trans hsnapshot'
  exact ⟨facts, _, tables, hyields, hbatch, hrun, hquery, hcounts⟩

end Instances

end Pointbreak
