import Mathlib.Algebra.BigOperators.Fin
import Mathlib.Algebra.Order.BigOperators.Group.Finset
import Pointbreak.Projection.Supersession

/-!
# Projection.CycleSearch

The search for cycles ends. Each node is found once and each edge is followed once, so the turns
left can be counted. The fuel that a search gets is the number of all nodes and edges, and no search
uses it up.
-/

namespace Pointbreak

open BTreeSet List

namespace Tarjan

section Ends

variable {adjacency : List (List Nat)} {s : Tarjan} {node cursor : Nat} {frames : List (Nat × Nat)}

@[simp] theorem emit_index : (s.emit node).index = s.index := by
  unfold emit
  split <;> rfl

theorem turn_index : (s.turn adjacency node cursor frames).index =
    if cursor = 0 then s.index.set node (some s.nextIndex) else s.index := by
  rw [turn]
  generalize hentered : (if cursor = 0 then s.enter node else s) = entered
  have hindex : entered.index =
      if cursor = 0 then s.index.set node (some s.nextIndex) else s.index := by
    rw [← hentered]
    split <;> rfl
  rw [← hindex]
  split
  · split
    · rfl
    · split <;> rfl
  · split
    · exact emit_index
    · exact emit_index

theorem turn_callStack :
    (s.turn adjacency node cursor frames).callStack =
      match (adjacency[node]?.getD [])[cursor]? with
      | none => frames
      | some child =>
        match (s.turn adjacency node cursor frames).indexAt child with
        | none => (child, 0) :: (node, cursor + 1) :: frames
        | some _ => (node, cursor + 1) :: frames := by
  simp only [indexAt, turn_index]
  rw [turn]
  cases (adjacency[node]?.getD [])[cursor]? with
  | none => rfl
  | some child =>
    have hindex : (if cursor = 0 then s.enter node else s).indexAt child =
        (if cursor = 0 then s.index.set node (some s.nextIndex) else s.index)[child]?.join := by
      split <;> rfl
    simp only [← hindex]
    cases (if cursor = 0 then s.enter node else s).indexAt child <;> rfl

/-- The turns that a node takes once it is found: one for each edge, and one to leave. -/
def turnsAt (adjacency : List (List Nat)) (node : Nat) : Nat :=
  (adjacency[node]?.getD []).length + 1

/-- The turns left: those of the nodes not found yet, and what remains of the open frames. -/
def turnsLeft (adjacency : List (List Nat)) (s : Tarjan) : Nat :=
  (∑ node ∈ Finset.range adjacency.length,
    if s.indexAt node = none then turnsAt adjacency node else 0) +
  (s.callStack.map fun frame =>
    if frame.2 = 0 then 0 else turnsAt adjacency frame.1 - frame.2).sum

/-- Only the top frame is new, and then its node is; the others are behind one of their edges. -/
structure Searching (adjacency : List (List Nat)) (s : Tarjan) : Prop where
  length : s.index.length = adjacency.length
  top : ∀ node frames, s.callStack = (node, 0) :: frames →
    node < adjacency.length ∧ s.indexAt node = none
  cursors : ∀ frame ∈ s.callStack, frame.2 < turnsAt adjacency frame.1
  below : ∀ frame ∈ s.callStack.tail, frame.2 ≠ 0

theorem sum_enter (hlength : s.index.length = adjacency.length) (hnode : node < adjacency.length)
    (hnew : s.indexAt node = none) {s' : Tarjan} {i : Nat}
    (hindex : s'.index = s.index.set node (some i)) :
    (∑ other ∈ Finset.range adjacency.length,
      if s'.indexAt other = none then turnsAt adjacency other else 0) + turnsAt adjacency node =
    ∑ other ∈ Finset.range adjacency.length,
      if s.indexAt other = none then turnsAt adjacency other else 0 := by
  have hmem : node ∈ Finset.range adjacency.length := Finset.mem_range.mpr hnode
  have hset : ∀ other, s'.indexAt other = if node = other then some i else s.indexAt other := by
    intro other
    rw [indexAt, hindex, getElem?_set, indexAt]
    split
    · rw [if_pos (hlength ▸ hnode)]
      rfl
    · rfl
  have hrest : ∀ other ∈ (Finset.range adjacency.length).erase node,
      (if s'.indexAt other = none then turnsAt adjacency other else 0) =
        if s.indexAt other = none then turnsAt adjacency other else 0 := by
    intro other hother
    rw [hset, if_neg (Finset.ne_of_mem_erase hother).symm]
  rw [← Finset.sum_erase_add _ _ hmem, ← Finset.sum_erase_add _ _ hmem, Finset.sum_congr rfl hrest,
    hset, if_pos rfl, if_neg (Option.some_ne_none i), if_pos hnew, Nat.add_zero]

theorem sum_turnsAt (adjacency : List (List Nat)) :
    ∑ node ∈ Finset.range adjacency.length, turnsAt adjacency node =
      adjacency.length + adjacency.flatten.length := by
  have hdegrees : ∑ node ∈ Finset.range adjacency.length, (adjacency[node]?.getD []).length =
      adjacency.flatten.length := by
    rw [length_flatten, ← Fin.sum_univ_eq_sum_range fun node =>
      (adjacency[node]?.getD []).length, ← sum_ofFn]
    congr 1
    refine ext_getElem (by simp) fun i hi _ => ?_
    simp
  simp only [turnsAt, Finset.sum_add_distrib, hdegrees, Finset.sum_const, Finset.card_range,
    smul_eq_mul, Nat.mul_one]
  omega

/-- What the node has not used of its turns, with the sum over the nodes not found. -/
theorem Searching.sum_turn (h : Searching adjacency s)
    (hstack : s.callStack = (node, cursor) :: frames) :
    (∑ other ∈ Finset.range adjacency.length,
      if (s.turn adjacency node cursor frames).indexAt other = none then turnsAt adjacency other
      else 0) + (turnsAt adjacency node - cursor) =
    (∑ other ∈ Finset.range adjacency.length,
      if s.indexAt other = none then turnsAt adjacency other else 0) +
    if cursor = 0 then 0 else turnsAt adjacency node - cursor := by
  by_cases hnew : cursor = 0
  · subst hnew
    obtain ⟨hnode, hnone⟩ := h.top node frames hstack
    exact sum_enter h.length hnode hnone (turn_index.trans (if_pos rfl))
  · have hsame : ∀ other, (s.turn adjacency node cursor frames).indexAt other =
        s.indexAt other := by
      intro other
      rw [indexAt, turn_index, if_neg hnew, indexAt]
    simp only [hsame, if_neg hnew]

variable (hedges : ∀ targets ∈ adjacency, ∀ child ∈ targets, child < adjacency.length)
include hedges

theorem child_lt {child : Nat} (hchild : (adjacency[node]?.getD [])[cursor]? = some child) :
    child < adjacency.length := by
  have hmem := mem_of_getElem? hchild
  cases htargets : adjacency[node]? with
  | none => simp [htargets] at hmem
  | some targets =>
    rw [htargets] at hmem
    exact hedges targets (mem_of_getElem? htargets) child hmem

/-- A turn keeps the search in order and is one of the turns left. -/
theorem Searching.turn (h : Searching adjacency s)
    (hstack : s.callStack = (node, cursor) :: frames) :
    Searching adjacency (s.turn adjacency node cursor frames) ∧
      turnsLeft adjacency (s.turn adjacency node cursor frames) + 1 = turnsLeft adjacency s := by
  have hcursor : cursor < turnsAt adjacency node := h.cursors (node, cursor) (hstack ▸ .head _)
  have hcursors : ∀ frame ∈ frames, frame.2 < turnsAt adjacency frame.1 := fun frame hframe =>
    h.cursors frame (hstack ▸ .tail _ hframe)
  have hbelow : ∀ frame ∈ frames, frame.2 ≠ 0 := fun frame hframe =>
    h.below frame (by rw [hstack]; exact hframe)
  have hlength : (s.turn adjacency node cursor frames).index.length = adjacency.length := by
    rw [turn_index]
    split
    · rw [length_set, h.length]
    · exact h.length
  have hcall := @turn_callStack adjacency s node cursor frames
  rw [turnsLeft, turnsLeft, hstack, map_cons, sum_cons, ← Nat.add_assoc, ← h.sum_turn hstack]
  generalize s.turn adjacency node cursor frames = next at hlength hcall ⊢
  cases hchild : (adjacency[node]?.getD [])[cursor]? with
  | none =>
    have hlast : cursor + 1 = turnsAt adjacency node := by
      have := getElem?_eq_none_iff.mp hchild
      rw [turnsAt] at hcursor ⊢
      omega
    simp only [hchild] at hcall
    refine ⟨⟨hlength, ?_, ?_, ?_⟩, ?_⟩
    · rw [hcall]
      rintro other rest rfl
      exact absurd rfl (hbelow (other, 0) (.head _))
    · rw [hcall]
      exact hcursors
    · rw [hcall]
      exact fun frame hframe => hbelow frame (mem_of_mem_tail hframe)
    · rw [hcall]
      omega
  | some child =>
    have hmore : cursor + 1 < turnsAt adjacency node := by
      have := (List.getElem?_eq_some_iff.mp hchild).1
      rw [turnsAt]
      omega
    simp only [hchild] at hcall
    cases hfound : next.indexAt child with
    | none =>
      simp only [hfound] at hcall
      refine ⟨⟨hlength, ?_, ?_, ?_⟩, ?_⟩
      · rw [hcall]
        rintro _ _ ⟨⟩
        exact ⟨child_lt hedges hchild, hfound⟩
      · rw [hcall]
        simp only [mem_cons, forall_eq_or_imp]
        exact ⟨Nat.succ_pos _, hmore, hcursors⟩
      · rw [hcall]
        simp only [tail_cons, mem_cons, forall_eq_or_imp]
        exact ⟨Nat.succ_ne_zero _, hbelow⟩
      · rw [hcall]
        simp only [map_cons, sum_cons, if_true, Nat.succ_ne_zero, if_false]
        omega
    | some i =>
      simp only [hfound] at hcall
      refine ⟨⟨hlength, ?_, ?_, ?_⟩, ?_⟩
      · rw [hcall]
        rintro _ _ ⟨⟩
      · rw [hcall]
        simp only [mem_cons, forall_eq_or_imp]
        exact ⟨hmore, hcursors⟩
      · rw [hcall]
        exact hbelow
      · rw [hcall]
        simp only [map_cons, sum_cons, Nat.succ_ne_zero, if_false]
        omega

theorem drive_ends {fuel : Nat} (h : Searching adjacency s) (hfuel : turnsLeft adjacency s ≤ fuel) :
    (drive adjacency fuel s).callStack = [] ∧
      (drive adjacency fuel s).index.length = adjacency.length := by
  induction fuel generalizing s with
  | zero =>
    rw [drive]
    refine ⟨?_, h.length⟩
    cases hstack : s.callStack with
    | nil => rfl
    | cons frame frames =>
      have := (h.turn hedges hstack).2
      omega
  | succ fuel ih =>
    rw [drive]
    split
    · exact ⟨by assumption, h.length⟩
    · rename_i node cursor frames hstack
      obtain ⟨hnext, hturns⟩ := h.turn hedges hstack
      exact ih hnext (by omega)

theorem visits_end {nodes : List Nat} (hnodes : ∀ node ∈ nodes, node < adjacency.length)
    (hlength : s.index.length = adjacency.length) (hempty : s.callStack = []) :
    (nodes.foldl (visit adjacency) s).callStack = [] := by
  induction nodes generalizing s with
  | nil => exact hempty
  | cons node nodes ih =>
    rw [foldl_cons]
    obtain ⟨hnode, hnodes⟩ := forall_mem_cons.mp hnodes
    by_cases hfound : (s.indexAt node).isSome
    · rw [visit, if_pos hfound]
      exact ih hnodes hlength hempty
    · have hstart : Searching adjacency { s with callStack := [(node, 0)] } := by
        refine ⟨hlength, ?_, by simp [turnsAt], by simp⟩
        rintro _ _ ⟨⟩
        exact ⟨hnode, Option.not_isSome_iff_eq_none.mp hfound⟩
      have hfuel : turnsLeft adjacency { s with callStack := [(node, 0)] } ≤
          adjacency.length + adjacency.flatten.length := by
        rw [turnsLeft, ← sum_turnsAt]
        refine Nat.le_trans (Nat.le_of_eq (Nat.add_zero _)) (Finset.sum_le_sum fun other _ => ?_)
        split
        · exact Nat.le_refl _
        · exact Nat.zero_le _
      obtain ⟨hdone, hkept⟩ := drive_ends hedges hstart hfuel
      rw [visit, if_neg hfound]
      exact ih hnodes hkept hdone

end Ends

end Tarjan
/-- None of the searches for cycles runs out of fuel. -/
theorem cycle_search_ends (known : BTreeSet RevisionId) (declared : RevisionEdges) :
    ((List.range known.toList.length).foldl (Tarjan.visit (adjacencyOf known declared))
      (Tarjan.start known.toList.length)).callStack = [] := by
  have hlength : (adjacencyOf known declared).length = known.toList.length := length_map ..
  refine Tarjan.visits_end ?_ (by simp [hlength]) (by simp [Tarjan.start, hlength]) rfl
  intro targets htargets child hchild
  obtain ⟨revision, -, rfl⟩ := mem_map.mp htargets
  obtain ⟨target, -, hindex⟩ := mem_filterMap.mp hchild
  rw [hlength]
  exact (List.getElem?_eq_some_iff.mp ((get_indexOf nodup_toList).mp hindex)).1

end Pointbreak
