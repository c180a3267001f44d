import Pointbreak.Event.Recorded
import Pointbreak.Projection.Supersession

/-!
# Workflow.ChangeMigration

The Changes that the migration planner proposes are the components of the supersession graph. The
planner walks the graph, where the supersession view joins classes in a union-find. Both find the
same components (`threads_are_components`).
-/

namespace Pointbreak

open Std Relation BTreeSet ExtTreeSet UnionFind

/-- A Revision that is entered has edges left to walk, or puts nothing on the stack. -/
theorem walk_decreases {adjacency : RevisionEdges} {component : BTreeSet RevisionId}
    {node : RevisionId} (hnode : node ∉ component) (pending : List RevisionId) :
    Prod.Lex (· < ·) (· < ·)
      ((adjacency.keys.filter (· ∉ component.insert node)).length,
        ((adjacency.setAt node).toList.reverse ++ pending).length)
      ((adjacency.keys.filter (· ∉ component)).length, (node :: pending).length) := by
  have hfilter : adjacency.keys.filter (· ∉ component.insert node) =
      (adjacency.keys.filter (· ∉ component)).filter (· ≠ node) := by
    rw [List.filter_filter]
    refine List.filter_congr fun r _ => ?_
    simp
  rw [hfilter]
  by_cases hkey : node ∈ adjacency
  · refine Prod.Lex.left _ _ (List.length_filter_lt_length_iff_exists.mpr ⟨node, ?_, by simp⟩)
    simpa using ⟨hkey, hnode⟩
  · refine Prod.Lex.right' _ (List.length_filter_le _ _) ?_
    simp [BTreeMap.setAt, hkey]

/-- Walk from the pending Revisions. Gives the component and what remains of the others. -/
def walkComponent (adjacency : RevisionEdges) (remaining component : BTreeSet RevisionId) :
    List RevisionId → BTreeSet RevisionId × BTreeSet RevisionId
  | [] => (component, remaining)
  | node :: pending =>
    if node ∈ component then walkComponent adjacency remaining component pending
    else
      walkComponent adjacency (remaining.erase node) (component.insert node)
        ((adjacency.setAt node).toList.reverse ++ pending)
termination_by pending => ((adjacency.keys.filter (· ∉ component)).length, pending.length)
decreasing_by
  · exact Prod.Lex.right _ (Nat.lt_succ_self _)
  · exact walk_decreases ‹_› pending

def Adjacent (adjacency : RevisionEdges) (a b : RevisionId) : Prop := b ∈ adjacency.setAt a

/-- What a walk does: it enters what the pending Revisions lead to and takes it from the rest. -/
structure Walked (adjacency : RevisionEdges) (remaining component : BTreeSet RevisionId)
    (pending : List RevisionId) (out : BTreeSet RevisionId × BTreeSet RevisionId) : Prop where
  kept : ∀ x ∈ component, x ∈ out.1
  entered : ∀ x ∈ pending, x ∈ out.1
  sound : ∀ x ∈ out.1, x ∉ component → ∃ p ∈ pending, ReflTransGen (Adjacent adjacency) p x
  closed : ∀ x ∈ out.1, x ∉ component → ∀ y, Adjacent adjacency x y → y ∈ out.1
  taken : ∀ x, x ∈ out.2 ↔ x ∈ remaining ∧ (x ∈ out.1 → x ∈ component)

section Walk

variable {adjacency : RevisionEdges} {start x : RevisionId}

theorem walkComponent_walked (remaining component : BTreeSet RevisionId)
    (pending : List RevisionId) : Walked adjacency remaining component pending
      (walkComponent adjacency remaining component pending) := by
  fun_induction walkComponent adjacency remaining component pending with
  | case1 remaining component =>
    exact ⟨fun _ h => h, by simp, fun _ h h' => absurd h h', fun _ h h' => absurd h h', by simp⟩
  | case2 remaining component node pending hnode h =>
    refine ⟨h.kept, ?_, fun x hx hnew => ?_, h.closed, h.taken⟩
    · exact List.forall_mem_cons.mpr ⟨h.kept node hnode, h.entered⟩
    · obtain ⟨p, hp, hreach⟩ := h.sound x hx hnew
      exact ⟨p, .tail _ hp, hreach⟩
  | case3 remaining component node pending hnode h =>
    have hmem : ∀ x, x ∈ (adjacency.setAt node).toList.reverse ++ pending ↔
        Adjacent adjacency node x ∨ x ∈ pending := by
      simp [Adjacent]
    have hnew : ∀ {x}, x ≠ node → x ∉ component → x ∉ component.insert node := by
      intro x hne hx
      simp [hne, hx]
    have hfound := h.kept node (mem_insert_iff.mpr (.inl rfl))
    refine ⟨fun x hx => ?_, ?_, fun x hx hx' => ?_, fun x hx hx' y hy => ?_, fun x => ?_⟩
    · exact h.kept x (mem_insert_iff.mpr (.inr hx))
    · exact List.forall_mem_cons.mpr ⟨hfound, fun x hx => h.entered x ((hmem x).mpr (.inr hx))⟩
    · by_cases hxn : x = node
      · exact ⟨node, .head _, hxn ▸ .refl⟩
      · obtain ⟨p, hp, hreach⟩ := h.sound x hx (hnew hxn hx')
        cases (hmem p).mp hp with
        | inl hp => exact ⟨node, .head _, .head hp hreach⟩
        | inr hp => exact ⟨p, .tail _ hp, hreach⟩
    · by_cases hxn : x = node
      · exact h.entered y ((hmem y).mpr (.inl (hxn ▸ hy)))
      · exact h.closed x hx (hnew hxn hx') y hy
    · rw [h.taken, mem_erase_iff, mem_insert_iff]
      by_cases hxn : x = node
      · simp [hxn, hfound, hnode]
      · simp [hxn]

theorem mem_walkComponent (remaining : BTreeSet RevisionId) :
    x ∈ (walkComponent adjacency remaining ∅ [start]).1 ↔
      ReflTransGen (Adjacent adjacency) start x := by
  have h : Walked adjacency remaining ∅ [start] _ := walkComponent_walked remaining ∅ [start]
  constructor
  · intro hx
    obtain ⟨p, hp, hpath⟩ := h.sound x hx (by simp)
    exact List.mem_singleton.mp hp ▸ hpath
  · intro hpath
    induction hpath with
    | refl => exact h.entered start (.head _)
    | tail _ hbc ih => exact h.closed _ ih (by simp) _ hbc

theorem mem_walkComponent_rest {remaining : BTreeSet RevisionId} :
    x ∈ (walkComponent adjacency remaining ∅ [start]).2 ↔
      x ∈ remaining ∧ ¬ ReflTransGen (Adjacent adjacency) start x := by
  rw [(walkComponent_walked remaining ∅ [start]).taken, mem_walkComponent]
  simp

theorem size_walkComponent_lt {remaining : BTreeSet RevisionId} {others : List RevisionId}
    (h : remaining.toList = start :: others) :
    (walkComponent adjacency (remaining.erase start) ∅ [start]).2.size < remaining.size := by
  have hstart : start ∈ remaining := by simp [← mem_toList_iff, h]
  have hle := size_le_of_subset
    (s := (walkComponent adjacency (remaining.erase start) ∅ [start]).2)
    fun x hx => (mem_walkComponent_rest.mp hx).1
  have hlength := congrArg List.length h
  rw [length_toList, List.length_cons] at hlength
  rw [size_erase, if_pos (mem_iff_contains.mp hstart)] at hle
  omega

end Walk

/-- One component after another, each from the first Revision that remains. -/
def splitComponents (adjacency : RevisionEdges) (remaining : BTreeSet RevisionId) :
    List (BTreeSet RevisionId) :=
  match _h : remaining.toList with
  | [] => []
  | start :: _ =>
    let walk := walkComponent adjacency (remaining.erase start) ∅ [start]
    walk.1 :: splitComponents adjacency walk.2
termination_by remaining.size
decreasing_by exact size_walkComponent_lt _h

/-- The planner's `connected_components`. -/
def plannedComponents (adjacency : RevisionEdges) : List (BTreeSet RevisionId) :=
  splitComponents adjacency (BTreeSet.collect adjacency.keys)

section Planned

variable {known : BTreeSet RevisionId} {declared adjacency : RevisionEdges} {x y : RevisionId}
  (hedges : ∀ a b, Adjacent adjacency a b ↔ SymmGen (Joined known declared) a b)

theorem leader_known : leader known declared x ∈ known ↔ x ∈ known := by
  refine reps_mem_iff (p := (· ∈ known)) (fun pair hpair => ?_) x
  obtain ⟨hsource, htarget, -⟩ := mem_linkedPairs.mp hpair
  exact iff_of_true hsource htarget

include hedges

theorem reaches_iff : ReflTransGen (Adjacent adjacency) x y ↔
    leader known declared x = leader known declared y := by
  have hsymm : Adjacent adjacency = SymmGen (Joined known declared) := by
    funext a b
    exact propext (hedges a b)
  rw [hsymm, EqvGen.reflTransGen_symmGen, leader_eq_iff]

/-- What remains is a union of threads, and each of them becomes one component. -/
theorem splitComponents_spec (remaining : BTreeSet RevisionId) (hsub : ∀ x ∈ remaining, x ∈ known)
    (hclosed : ∀ x ∈ remaining, ∀ y ∈ known,
      leader known declared x = leader known declared y → y ∈ remaining) :
    (splitComponents adjacency remaining).Nodup ∧ ∀ C, C ∈ splitComponents adjacency remaining ↔
      ∃ x ∈ remaining, followers known declared (leader known declared x) = C := by
  fun_induction splitComponents adjacency remaining with
  | case1 remaining h => simp [← mem_toList_iff, h]
  | case2 remaining start others h walk ih =>
    have hstart : start ∈ remaining := by simp [← mem_toList_iff, h]
    have hfound : walk.1 = followers known declared (leader known declared start) := by
      refine ext_mem fun y => ?_
      rw [mem_walkComponent, reaches_iff hedges, mem_followers, eq_comm, iff_and_self]
      intro hy
      exact leader_known.mp (hy ▸ leader_known.mpr (hsub start hstart))
    have hrest : ∀ x, x ∈ walk.2 ↔ x ∈ remaining ∧
        leader known declared start ≠ leader known declared x := by
      intro x
      rw [mem_walkComponent_rest, reaches_iff hedges, mem_erase_iff]
      by_cases hx : x = start <;> simp [hx]
    obtain ⟨hnodup, hmem⟩ := ih (fun x hx => hsub x ((hrest x).mp hx).1) fun x hx y hy hxy => by
      obtain ⟨hx, hne⟩ := (hrest x).mp hx
      exact (hrest y).mpr ⟨hclosed x hx y hy hxy, hxy ▸ hne⟩
    rw [hfound]
    refine ⟨List.nodup_cons.mpr ⟨fun hin => ?_, hnodup⟩, fun C => ?_⟩
    · obtain ⟨x, hx, heq⟩ := (hmem _).mp hin
      obtain ⟨hx, hne⟩ := (hrest x).mp hx
      have hself : x ∈ followers known declared (leader known declared start) :=
        heq ▸ mem_followers.mpr ⟨hsub x hx, rfl⟩
      exact hne (mem_followers.mp hself).2.symm
    · rw [List.mem_cons, hmem]
      constructor
      · rintro (rfl | ⟨x, hx, rfl⟩)
        · exact ⟨start, hstart, rfl⟩
        · exact ⟨x, ((hrest x).mp hx).1, rfl⟩
      · rintro ⟨x, hx, rfl⟩
        by_cases hsame : leader known declared start = leader known declared x
        · exact .inl (by rw [hsame])
        · exact .inr ⟨x, (hrest x).mpr ⟨hx, hsame⟩, rfl⟩

end Planned

/-- The view's components are the classes of known Revisions that edges between known Revisions
connect, in whatever order the edges are joined. Every list of parents on the way is a forest, in
which `find` comes to a root and changes no root. The planner returns the same components. -/
theorem threads_are_components (known : BTreeSet RevisionId) (declared : RevisionEdges) :
    ((connectedComponents known declared).Pairwise (fun C D => ∀ x ∈ C, x ∉ D) ∧
      (∀ C ∈ connectedComponents known declared, ∃ x ∈ known, ∀ y,
        y ∈ C ↔ y ∈ known ∧ EqvGen (Joined known declared) x y) ∧
      ∀ x ∈ known, ∃ C ∈ connectedComponents known declared, x ∈ C) ∧
    (∀ pairs, pairs.Perm (joinedPairs (indexOf known.toList) declared) → ∀ i j x y,
      known.toList[i]? = some x → known.toList[j]? = some y →
        (UnionFind.root (UnionFind.unionAll (List.range known.toList.length) pairs) i =
            UnionFind.root (UnionFind.unionAll (List.range known.toList.length) pairs) j ↔
          EqvGen (Joined known declared) x y)) ∧
    (∀ pairs ⊆ joinedPairs (indexOf known.toList) declared,
      ∃ h, UnionFind.Forest (UnionFind.unionAll (List.range known.toList.length) pairs) h) ∧
    (∀ parent h, UnionFind.Forest parent h → ∀ node,
      let out := UnionFind.find parent.length parent node
      (∃ h', UnionFind.Forest out.1 h') ∧ UnionFind.parentOf out.1 out.2 = out.2 ∧
        ∀ i, UnionFind.root out.1 i = UnionFind.root parent i) ∧
    ∀ adjacency : RevisionEdges, (∀ r, r ∈ adjacency ↔ r ∈ known) →
      (∀ a b, Adjacent adjacency a b ↔ SymmGen (Joined known declared) a b) →
      (plannedComponents adjacency).Perm (connectedComponents known declared) := by
  have hnodup : (BTreeSet.collect (known.toList.map (leader known declared))).toList.Nodup :=
    nodup_toList
  have hdisjoint : (connectedComponents known declared).Pairwise fun C D => ∀ x ∈ C, x ∉ D := by
    rw [connectedComponents_eq_map, List.pairwise_map]
    refine hnodup.imp fun {r s} hne x hr hs => hne ?_
    exact (mem_followers.mp hr).2.symm.trans (mem_followers.mp hs).2
  refine ⟨⟨hdisjoint, fun C hC => mem_connectedComponents hC,
    fun x hx => exists_connectedComponent hx⟩, fun pairs hpairs i j x y hx hy => ?_,
    fun pairs hpairs => ?_, fun parent h hforest node => ?_, fun adjacency hkeys hedges => ?_⟩
  · rw [← root_joinedParents hx hy, joinedParents,
      root_unionAll_iff fun _ hpair => joinedPairs_lt (hpairs.mem_iff.mp hpair),
      root_unionAll_iff fun _ => joinedPairs_lt]
    simp only [hpairs.mem_iff]
  · refine ((forest_range known.toList.length).1.unionAll fun pair hpair => ?_).1
    rw [List.length_range]
    exact joinedPairs_lt (hpairs hpair)
  · obtain ⟨h', hout⟩ := hforest.find_length node
    refine ⟨⟨h', hout.forest⟩, ?_, hout.roots⟩
    rw [hout.found, ← hout.roots]
    exact hout.forest.parentOf_root node
  · have hknown : BTreeSet.collect adjacency.keys = known := by
      refine ext_mem fun r => ?_
      rw [mem_collect, ExtTreeMap.mem_keys, hkeys]
    rw [plannedComponents, hknown]
    obtain ⟨hparts, hmem⟩ := splitComponents_spec hedges known (fun _ hx => hx) fun _ _ y hy _ => hy
    refine (List.perm_ext_iff_of_nodup hparts (hdisjoint.imp_of_mem ?_)).mpr fun C => ?_
    · rintro C _ hC - hapart rfl
      obtain ⟨x, hx, hclass⟩ := mem_connectedComponents hC
      have hin := (hclass x).mpr ⟨hx, .refl x⟩
      exact hapart x hin hin
    · rw [hmem, connectedComponents_eq_map]
      simp

section Instance

open Recorded

def threeRevisions : BTreeSet RevisionId := BTreeSet.collect [rev 1, rev 2, rev 3]

def secondReplacesFirst : RevisionEdges := BTreeMap.addTo ∅ (rev 2) (rev 1)

def unlinkedThird : RevisionEdges := ExtTreeMap.insert ∅ (rev 3) ∅

def bothDirections : RevisionEdges := (unlinkedThird.addTo (rev 1) (rev 2)).addTo (rev 2) (rev 1)

theorem two_threads_planned :
    (plannedComponents bothDirections).Perm
        (connectedComponents threeRevisions secondReplacesFirst) ∧
      (connectedComponents threeRevisions secondReplacesFirst).map (·.toList) =
        [[rev 1, rev 2], [rev 3]] := by
  have hempty : ∀ {b a : RevisionId}, b ∉ (∅ : RevisionEdges).setAt a := by simp [BTreeMap.setAt]
  have hunlinked : ∀ {b a : RevisionId}, b ∉ unlinkedThird.setAt a := by
    intro b a
    rw [unlinkedThird, BTreeMap.setAt, BTreeMap.get_insert]
    split <;> simp
  refine ⟨(threads_are_components _ _).2.2.2.2 _ (fun r => ?_) fun a b => ?_, by decide +kernel⟩
  · rw [bothDirections, BTreeMap.mem_addTo, BTreeMap.mem_addTo, unlinkedThird, ExtTreeMap.mem_insert,
      threeRevisions, mem_collect, LawfulEqOrd.compare_eq_iff_eq]
    simp [eq_comm, or_left_comm]
  · change Adjacent _ a b ↔ Joined _ _ a b ∨ Joined _ _ b a
    simp only [Adjacent, Joined, bothDirections, secondReplacesFirst, threeRevisions,
      BTreeMap.mem_setAt_addTo, mem_collect, hunlinked, hempty, or_false, Prod.mk.injEq]
    grind

end Instance

end Pointbreak
