import Pointbreak.Lib.UnionFind
import Pointbreak.Projection.ChangeEvents
import Pointbreak.Projection.State

/-!
# Projection.Supersession

The supersession relation over a set of Revisions, read from edges `revision → targets`. The view
tags every known Revision as superseded or head, groups them into threads (by union-find) and
reports the cycles (by an iterative Tarjan search) and the targets nobody knows.
-/

namespace Pointbreak

open Std Relation BTreeSet UnionFind ExtTreeSet KeyedLog

def supersessionTargetMissingCode : Text := text "supersession_target_missing"

def supersessionCycleCode : Text := text "supersession_cycle"

abbrev RevisionEdges : Type := BTreeMap RevisionId (BTreeSet RevisionId)

structure SupersessionView where
  heads : BTreeSet RevisionId
  superseded : BTreeSet RevisionId
  supersedes : RevisionEdges
  supersededBy : RevisionEdges
  components : List (BTreeSet RevisionId)
  cycleRevisions : BTreeSet RevisionId
  diagnostics : List ProjectionDiagnostic

def indexOf (nodes : List RevisionId) : BTreeMap RevisionId Nat := BTreeMap.collect nodes.zipIdx

def joinTargets (index : BTreeMap RevisionId Nat) (parent : List Nat)
    (entry : RevisionId × BTreeSet RevisionId) : List Nat :=
  match index[entry.1]? with
  | none => parent
  | some a => entry.2.toList.foldl (fun parent target =>
      match index[target]? with
      | some b => UnionFind.union parent a b
      | none => parent) parent

def connectedComponents (known : BTreeSet RevisionId) (declared : RevisionEdges) :
    List (BTreeSet RevisionId) :=
  let nodes := known.toList
  let parent := declared.toList.foldl (joinTargets (indexOf nodes)) (List.range nodes.length)
  let (_, groups) := nodes.zipIdx.foldl (fun (state : List Nat × BTreeMap Nat (BTreeSet RevisionId))
      node =>
    let (parent, root) := UnionFind.find state.1.length state.1 node.2
    (parent, state.2.addTo root node.1)) (parent, ∅)
  groups.vals

/-- The state of the Tarjan search. A node without an index is unvisited; both stacks have their
top first, and a frame is a node with the position of its next child. -/
structure Tarjan where
  index : List (Option Nat)
  lowlink : List Nat
  onStack : List Bool
  stack : List Nat := []
  nextIndex : Nat := 0
  sccs : List (List Nat) := []
  callStack : List (Nat × Nat) := []

namespace Tarjan

def start (n : Nat) : Tarjan where
  index := List.replicate n none
  lowlink := List.replicate n 0
  onStack := List.replicate n false

def indexAt (s : Tarjan) (node : Nat) : Option Nat := s.index[node]?.join

def lowlinkAt (s : Tarjan) (node : Nat) : Nat := s.lowlink[node]?.getD 0

def enter (s : Tarjan) (node : Nat) : Tarjan :=
  { s with
    index := s.index.set node (some s.nextIndex),
    lowlink := s.lowlink.set node s.nextIndex,
    nextIndex := s.nextIndex + 1,
    stack := node :: s.stack,
    onStack := s.onStack.set node true }

def lower (s : Tarjan) (node bound : Nat) : Tarjan :=
  { s with lowlink := s.lowlink.set node (min (s.lowlinkAt node) bound) }

/-- Takes nodes off the stack up to and including `node`. -/
def popUntil (node : Nat) : List Nat → List Bool → List Nat → List Nat × List Nat × List Bool
  | [], onStack, scc => (scc, [], onStack)
  | popped :: stack, onStack, scc =>
    let onStack := onStack.set popped false
    let scc := scc ++ [popped]
    if popped = node then (scc, stack, onStack) else popUntil node stack onStack scc

def emit (s : Tarjan) (node : Nat) : Tarjan :=
  if s.indexAt node = some (s.lowlinkAt node) then
    let (scc, stack, onStack) := popUntil node s.stack s.onStack []
    { s with stack, onStack, sccs := s.sccs ++ [scc] }
  else s

/-- One turn of the loop over the frames, at the top frame `(node, cursor)`. -/
def turn (adjacency : List (List Nat)) (s : Tarjan) (node cursor : Nat)
    (frames : List (Nat × Nat)) : Tarjan :=
  let s := if cursor = 0 then s.enter node else s
  match (adjacency[node]?.getD [])[cursor]? with
  | some child =>
    let frames := (node, cursor + 1) :: frames
    match s.indexAt child with
    | none => { s with callStack := (child, 0) :: frames }
    | some i =>
      let s := if s.onStack[child]?.getD false then s.lower node i else s
      { s with callStack := frames }
  | none =>
    let s := s.emit node
    let s := match frames with
      | [] => s
      | (parent, _) :: _ => s.lower parent (s.lowlinkAt node)
    { s with callStack := frames }

def drive (adjacency : List (List Nat)) : Nat → Tarjan → Tarjan
  | 0, s => s
  | fuel + 1, s =>
    match s.callStack with
    | [] => s
    | (node, cursor) :: frames => drive adjacency fuel (s.turn adjacency node cursor frames)

/-- One turn of the loop over the start nodes. Each node and each edge takes one turn of the inner
loop in the whole search. -/
def visit (adjacency : List (List Nat)) (s : Tarjan) (node : Nat) : Tarjan :=
  if (s.indexAt node).isSome then s
  else drive adjacency (adjacency.length + adjacency.flatten.length)
    { s with callStack := [(node, 0)] }

end Tarjan

/-- For each known Revision, where its known targets stand. -/
def adjacencyOf (known : BTreeSet RevisionId) (declared : RevisionEdges) : List (List Nat) :=
  let nodes := known.toList
  let index := indexOf nodes
  nodes.map fun revision =>
    (declared.setAt revision).toList.filterMap fun target => index[target]?

def directedCycles (known : BTreeSet RevisionId) (declared : RevisionEdges) :
    List (BTreeSet RevisionId) :=
  let nodes := known.toList
  let adjacency := adjacencyOf known declared
  let sccs := ((List.range nodes.length).foldl (Tarjan.visit adjacency)
    (Tarjan.start nodes.length)).sccs
  let cyclic := sccs.filter fun scc => decide (1 < scc.length) ||
    match scc with
    | [i] => decide (i ∈ adjacency[i]?.getD [])
    | _ => false
  cyclic.map fun scc => BTreeSet.collect (scc.filterMap fun i => nodes[i]?)

structure EdgeTables where
  superseded : BTreeSet RevisionId := ∅
  supersedes : RevisionEdges := ∅
  supersededBy : RevisionEdges := ∅
  diagnostics : List ProjectionDiagnostic := []

def EdgeTables.enterTarget (known : BTreeSet RevisionId) (revision : RevisionId)
    (tables : EdgeTables) (target : RevisionId) : EdgeTables :=
  if target ∈ known then
    { tables with
      superseded := tables.superseded.insert target,
      supersededBy := tables.supersededBy.addTo target revision }
  else
    let missing : ProjectionDiagnostic :=
      { code := supersessionTargetMissingCode,
        message := text "revision " ++ revision.asStr ++ text " supersedes unknown revision " ++
          target.asStr }
    { tables with diagnostics := tables.diagnostics ++ [missing] }

def EdgeTables.enterRevision (known : BTreeSet RevisionId) (tables : EdgeTables)
    (entry : RevisionId × BTreeSet RevisionId) : EdgeTables :=
  let tables := if entry.2.isEmpty then tables else
    { tables with supersedes := tables.supersedes.insert entry.1 entry.2 }
  entry.2.toList.foldl (EdgeTables.enterTarget known entry.1) tables

/-- One entry per known Revision, its targets as a set. -/
def declaredEdges (edges : List (RevisionId × List RevisionId)) : RevisionEdges :=
  edges.foldl (fun declared edge =>
    declared.alter edge.1 fun targets => some ((targets.getD ∅).insertMany edge.2)) ∅

def cycleDiagnostic (cycle : BTreeSet RevisionId) : ProjectionDiagnostic where
  code := supersessionCycleCode
  message := text "revisions form a supersession cycle: " ++
    (text ", ").intercalate (cycle.toList.map Ident.asStr)

/-- The view of synthetic edges: the left-hand sides are the known Revisions. -/
def SupersessionView.fromEdges (edges : List (RevisionId × List RevisionId)) : SupersessionView :=
  let declared := declaredEdges edges
  let known := BTreeSet.collect declared.keys
  let tables := declared.toList.foldl (EdgeTables.enterRevision known) {}
  let cycles := directedCycles known declared
  { heads := known.filter fun revision => revision ∉ tables.superseded,
    superseded := tables.superseded,
    supersedes := tables.supersedes,
    supersededBy := tables.supersededBy,
    components := connectedComponents known declared,
    cycleRevisions := BTreeSet.collect (cycles.flatMap fun cycle => cycle.toList),
    diagnostics := tables.diagnostics ++ cycles.map cycleDiagnostic }

def proposalEdges {V : Type} (rt : Runtime V) :
    List (ShoreEvent V) → Result (List (RevisionId × List RevisionId))
  | [] => .ok []
  | event :: events =>
    if event.eventType = .workObjectProposed then do
      let payload ← fromValue rt.workObjectProposed event.payload
      let edges ← proposalEdges rt events
      match payload.workObject with
      | .revision revision _ supersedes => .ok ((revision.id, supersedes) :: edges)
      | .taskAttempt _ => .ok edges
    else proposalEdges rt events

def SupersessionView.fromEvents {V : Type} (rt : Runtime V) (events : List (ShoreEvent V)) :
    Result SupersessionView := do
  let edges ← proposalEdges rt events
  .ok (.fromEdges edges)

variable {x y : RevisionId}

section Components

variable {known : BTreeSet RevisionId} {declared : RevisionEdges}

theorem get_indexOf {nodes : List RevisionId} (hn : nodes.Nodup) {r : RevisionId} {i : Nat} :
    (indexOf nodes)[r]? = some i ↔ nodes[i]? = some r := by
  rw [indexOf, BTreeMap.get_collect (by rwa [List.zipIdx_map_fst]), List.mem_zipIdx_iff_getElem?]

/-- An edge between known Revisions. -/
def Joined (known : BTreeSet RevisionId) (declared : RevisionEdges) (a b : RevisionId) : Prop :=
  a ∈ known ∧ b ∈ known ∧ b ∈ declared.setAt a

def joinedPairs (index : BTreeMap RevisionId Nat) (declared : RevisionEdges) : List (Nat × Nat) :=
  declared.toList.flatMap fun entry =>
    index[entry.1]?.toList.flatMap fun a => entry.2.toList.filterMap fun target =>
      index[target]?.map fun b => (a, b)

theorem foldl_joinTargets (index : BTreeMap RevisionId Nat) (declared : RevisionEdges)
    (parent : List Nat) :
    declared.toList.foldl (joinTargets index) parent =
      UnionFind.unionAll parent (joinedPairs index declared) := by
  rw [unionAll, joinedPairs, List.foldl_flatMap]
  congr 1
  funext parent entry
  rw [joinTargets]
  cases index[entry.1]? with
  | none => rfl
  | some a =>
    simp only [Option.toList_some, List.flatMap_singleton, List.foldl_filterMap]
    congr 1
    funext parent target
    cases index[target]? <;> rfl

def position (known : BTreeSet RevisionId) (r : RevisionId) : Nat :=
  (indexOf known.toList)[r]?.getD 0

theorem position_eq {i : Nat} (h : known.toList[i]? = some x) : position known x = i := by
  rw [position, (get_indexOf nodup_toList).mpr h]
  rfl

theorem getElem?_position (hx : x ∈ known) : known.toList[position known x]? = some x := by
  obtain ⟨i, hi⟩ := List.mem_iff_getElem?.mp (mem_toList_iff.mpr hx)
  rw [position_eq hi, hi]

theorem get_indexOf_known (x : RevisionId) :
    (indexOf known.toList)[x]? = if x ∈ known then some (position known x) else none := by
  split
  · rename_i hx
    exact (get_indexOf nodup_toList).mpr (getElem?_position hx)
  · rename_i hx
    cases hi : (indexOf known.toList)[x]? with
    | none => rfl
    | some i =>
      have hmem := List.mem_of_getElem? ((get_indexOf nodup_toList).mp hi)
      exact absurd (mem_toList_iff.mp hmem) hx

theorem position_injOn : Set.InjOn (position known) {r | r ∈ known} := by
  intro a ha b hb hab
  have hb' := getElem?_position hb
  rw [← hab, getElem?_position ha] at hb'
  exact Option.some.inj hb'

theorem position_lt (hx : x ∈ known) (hy : y ∈ known) (hlt : compare x y = .lt) :
    position known x < position known y := by
  have hord : known.toList.Pairwise fun a b => compare a b = .lt := ordered_toList
  obtain ⟨hi, hxi⟩ := List.getElem?_eq_some_iff.mp (getElem?_position hx)
  obtain ⟨hj, hyj⟩ := List.getElem?_eq_some_iff.mp (getElem?_position hy)
  rcases Nat.lt_trichotomy (position known x) (position known y) with h | h | h
  · exact h
  · have heq := position_injOn hx hy h
    have hself : compare y y = .eq := ReflCmp.compare_self
    rw [heq, hself] at hlt
    cases hlt
  · have hgt := List.pairwise_iff_getElem.mp hord _ _ hj hi h
    have hswap : compare y x = (compare x y).swap := OrientedCmp.eq_swap
    rw [hxi, hyj, hswap, hlt] at hgt
    cases hgt

def linkedPairs (known : BTreeSet RevisionId) (declared : RevisionEdges) :
    List (RevisionId × RevisionId) :=
  declared.toList.flatMap fun entry =>
    if entry.1 ∈ known then
      (entry.2.toList.filter (· ∈ known)).map fun target => (entry.1, target)
    else []

theorem mem_linkedPairs : (x, y) ∈ linkedPairs known declared ↔ Joined known declared x y := by
  simp only [linkedPairs, List.mem_flatMap, Prod.exists, BTreeMap.mem_toList_iff, Joined,
    BTreeMap.mem_setAt_iff]
  constructor
  · rintro ⟨a, targets, hentry, hpair⟩
    split at hpair
    · rename_i ha
      obtain ⟨b, hb, heq⟩ := List.mem_map.mp hpair
      cases heq
      simp only [List.mem_filter, mem_toList_iff, decide_eq_true_eq] at hb
      exact ⟨ha, hb.2, targets, hentry, hb.1⟩
    · cases hpair
  · rintro ⟨ha, hb, targets, hentry, hin⟩
    exact ⟨x, targets, hentry, by simp [ha, hb, hin]⟩

theorem joinedPairs_eq : joinedPairs (indexOf known.toList) declared =
    (linkedPairs known declared).map (Prod.map (position known) (position known)) := by
  rw [joinedPairs, linkedPairs, List.map_flatMap]
  refine congrArg (fun f => declared.toList.flatMap f) (funext fun entry => ?_)
  rw [get_indexOf_known]
  split
  · rw [Option.toList_some, List.flatMap_singleton, List.map_map, ← List.filterMap_eq_map,
      List.filterMap_filter]
    refine List.filterMap_congr fun target _ => ?_
    rw [get_indexOf_known]
    by_cases ht : target ∈ known <;> simp [ht]
  · rfl

def joinedParents (known : BTreeSet RevisionId) (declared : RevisionEdges) : List Nat :=
  UnionFind.unionAll (List.range known.toList.length) (joinedPairs (indexOf known.toList) declared)

theorem joinedPairs_lt {pair : Nat × Nat}
    (h : pair ∈ joinedPairs (indexOf known.toList) declared) :
    pair.1 < known.toList.length ∧ pair.2 < known.toList.length := by
  rw [joinedPairs_eq, List.mem_map] at h
  obtain ⟨⟨a, b⟩, hpair, rfl⟩ := h
  obtain ⟨ha, hb, -⟩ := mem_linkedPairs.mp hpair
  exact ⟨(List.getElem?_eq_some_iff.mp (getElem?_position ha)).1,
    (List.getElem?_eq_some_iff.mp (getElem?_position hb)).1⟩

theorem forest_joinedParents (known : BTreeSet RevisionId) (declared : RevisionEdges) :
    ∃ h, UnionFind.Forest (joinedParents known declared) h := by
  refine ((forest_range known.toList.length).1.unionAll ?_).1
  intro pair hpair
  rw [List.length_range]
  exact joinedPairs_lt hpair

def leader (known : BTreeSet RevisionId) (declared : RevisionEdges) : RevisionId → RevisionId :=
  UnionFind.reps (linkedPairs known declared)

theorem leader_eq_iff :
    leader known declared x = leader known declared y ↔ EqvGen (Joined known declared) x y := by
  rw [leader, reps_eq_iff]
  simp only [mem_linkedPairs]

theorem root_position (hx : x ∈ known) :
    UnionFind.root (joinedParents known declared) (position known x) =
        position known (leader known declared x) ∧ leader known declared x ∈ known := by
  have hroots : UnionFind.root (unionAll (List.range known.toList.length)
      (joinedPairs (indexOf known.toList) declared)) =
        UnionFind.reps (joinedPairs (indexOf known.toList) declared) :=
    root_unionAll fun _ => joinedPairs_lt
  rw [joinedParents, hroots, joinedPairs_eq]
  refine reps_map position_injOn (fun pair hpair => ?_) hx
  obtain ⟨ha, hb, -⟩ := mem_linkedPairs.mp hpair
  exact ⟨ha, hb⟩

theorem root_joinedParents {i j : Nat} (hx : known.toList[i]? = some x)
    (hy : known.toList[j]? = some y) :
    UnionFind.root (joinedParents known declared) i =
        UnionFind.root (joinedParents known declared) j ↔
      EqvGen (Joined known declared) x y := by
  obtain ⟨hroot, hlead⟩ := root_position (mem_toList_iff.mp (List.mem_of_getElem? hx))
  obtain ⟨hroot', hlead'⟩ := root_position (mem_toList_iff.mp (List.mem_of_getElem? hy))
  rw [← position_eq hx, ← position_eq hy, hroot, hroot', position_injOn.eq_iff hlead hlead',
    leader_eq_iff]

def threads (known : BTreeSet RevisionId) (declared : RevisionEdges) :
    BTreeMap Nat (BTreeSet RevisionId) :=
  (known.toList.zipIdx.map fun (node : RevisionId × Nat) =>
    (UnionFind.root (joinedParents known declared) node.2, node.1)).foldl
      (fun groups x => groups.addTo x.1 x.2) ∅

theorem connectedComponents_eq (known : BTreeSet RevisionId) (declared : RevisionEdges) :
    connectedComponents known declared = (threads known declared).vals := by
  obtain ⟨h, hforest⟩ := forest_joinedParents known declared
  have hgroups := hforest.foldl_find Prod.snd
    (fun (groups : BTreeMap Nat (BTreeSet RevisionId)) root (node : RevisionId × Nat) =>
      groups.addTo root node.1) known.toList.zipIdx ∅
  simp only [connectedComponents, foldl_joinTargets, threads, List.foldl_map]
  exact congrArg BTreeMap.vals hgroups

theorem threads_eq (known : BTreeSet RevisionId) (declared : RevisionEdges) :
    threads known declared =
      (known.toList.map fun x => (position known (leader known declared x), x)).foldl
        (fun groups x => groups.addTo x.1 x.2) ∅ := by
  have hnodes : known.toList = known.toList.zipIdx.map Prod.fst := by simp
  rw [hnodes, List.map_map, threads]
  congr 1
  refine List.map_congr_left fun node hnode => ?_
  have hget := List.mem_zipIdx_iff_getElem?.mp hnode
  have hx := mem_toList_iff.mp (List.mem_of_getElem? hget)
  rw [Function.comp_apply, ← position_eq hget, (root_position hx).1]

def followers (known : BTreeSet RevisionId) (declared : RevisionEdges) (r : RevisionId) :
    BTreeSet RevisionId :=
  known.filter fun y => leader known declared y = r

theorem mem_followers {r : RevisionId} :
    y ∈ followers known declared r ↔ y ∈ known ∧ leader known declared y = r := by
  rw [followers, mem_filter_iff, decide_eq_true_eq]

theorem setAt_threads (hx : x ∈ known) :
    (threads known declared).setAt (position known (leader known declared x)) =
      followers known declared (leader known declared x) := by
  refine ext_mem fun y => ?_
  rw [threads_eq, BTreeMap.mem_setAt_foldl_addTo, mem_followers,
    or_iff_left (by simp [BTreeMap.setAt])]
  simp only [List.mem_map, mem_toList_iff, Prod.mk.injEq]
  constructor
  · rintro ⟨_, hy, hposition, rfl⟩
    exact ⟨hy, position_injOn (root_position hy).2 (root_position hx).2 hposition⟩
  · rintro ⟨hy, hlead⟩
    exact ⟨y, hy, by rw [hlead], rfl⟩

theorem mem_threads_iff {k : Nat} :
    k ∈ threads known declared ↔ ∃ x ∈ known, position known (leader known declared x) = k := by
  rw [threads_eq, BTreeMap.mem_foldl_addTo, or_iff_left ExtTreeMap.not_mem_empty]
  simp

theorem connectedComponents_eq_map (known : BTreeSet RevisionId) (declared : RevisionEdges) :
    connectedComponents known declared =
      (BTreeSet.collect (known.toList.map (leader known declared))).toList.map
        (followers known declared) := by
  have hleaders : ∀ r, r ∈ (BTreeSet.collect (known.toList.map (leader known declared))).toList ↔
      ∃ x ∈ known, leader known declared x = r := by
    intro r
    rw [mem_toList_iff, mem_collect, List.mem_map]
    simp only [mem_toList_iff]
  have hlist : (threads known declared).toList =
      (BTreeSet.collect (known.toList.map (leader known declared))).toList.map
        fun r => (position known r, followers known declared r) := by
    refine eq_of_ordered Prod.fst ExtTreeMap.ordered_keys_toList ?_ ?_
    · refine List.pairwise_map.mpr ?_
      have hord : (BTreeSet.collect (known.toList.map (leader known declared))).toList.Pairwise
          fun a b => compare a b = .lt := ordered_toList
      refine hord.imp_of_mem ?_
      intro a b ha hb hlt
      obtain ⟨x, hx, rfl⟩ := (hleaders a).mp ha
      obtain ⟨y, hy, rfl⟩ := (hleaders b).mp hb
      exact Nat.compare_eq_lt.mpr (position_lt (root_position hx).2 (root_position hy).2 hlt)
    · rintro ⟨k, C⟩
      rw [BTreeMap.mem_toList_iff, List.mem_map]
      constructor
      · intro hC
        obtain ⟨x, hx, rfl⟩ := mem_threads_iff.mp (BTreeMap.mem_iff.mpr ⟨C, hC⟩)
        refine ⟨leader known declared x, (hleaders _).mpr ⟨x, hx, rfl⟩, ?_⟩
        rw [← setAt_threads hx, BTreeMap.setAt, hC]
        rfl
      · rintro ⟨r, hr, heq⟩
        obtain ⟨x, hx, rfl⟩ := (hleaders r).mp hr
        cases heq
        obtain ⟨C, hC⟩ := BTreeMap.mem_iff.mp (mem_threads_iff.mpr ⟨x, hx, rfl⟩)
        rw [← setAt_threads hx, BTreeMap.setAt, hC]
        rfl
  rw [connectedComponents_eq, BTreeMap.vals, hlist, List.map_map]
  rfl

/-- The threads are the classes of known Revisions that edges between known Revisions connect. -/
theorem mem_connectedComponents {C : BTreeSet RevisionId}
    (hC : C ∈ connectedComponents known declared) :
    ∃ x ∈ known, ∀ y, y ∈ C ↔ y ∈ known ∧ EqvGen (Joined known declared) x y := by
  simp only [connectedComponents_eq_map, List.mem_map, mem_toList_iff,
    mem_collect] at hC
  obtain ⟨_, ⟨x, hx, rfl⟩, rfl⟩ := hC
  refine ⟨x, hx, fun y => ?_⟩
  rw [mem_followers, ← leader_eq_iff, eq_comm]

theorem exists_connectedComponent (hx : x ∈ known) :
    ∃ C ∈ connectedComponents known declared, x ∈ C := by
  simp only [connectedComponents_eq_map, List.mem_map, mem_toList_iff,
    mem_collect]
  exact ⟨_, ⟨_, ⟨x, hx, rfl⟩, rfl⟩, mem_followers.mpr ⟨hx, rfl⟩⟩

end Components

section View

variable {edges : List (RevisionId × List RevisionId)}

/-- The edges speak of the Revision. -/
def KnownIn (edges : List (RevisionId × List RevisionId)) (r : RevisionId) : Prop :=
  ∃ targets, (r, targets) ∈ edges

/-- The edges lead from `s` to `t`. -/
def Declares (edges : List (RevisionId × List RevisionId)) (s t : RevisionId) : Prop :=
  ∃ targets, (s, targets) ∈ edges ∧ t ∈ targets

variable {r : RevisionId}

theorem mem_declaredEdges : r ∈ declaredEdges edges ↔ KnownIn edges r := by
  refine (foldl_adds (fun (declared : RevisionEdges) r => r ∈ declared) _
    (fun edge r => edge.1 = r) ?_ edges ∅ r).trans ?_
  · intro declared edge r
    simp only [BTreeMap.mem_iff, BTreeMap.get_alter]
    by_cases hr : edge.1 = r <;> simp [hr]
  · simp [KnownIn]

theorem mem_setAt_declaredEdges {s t : RevisionId} :
    t ∈ (declaredEdges edges).setAt s ↔ Declares edges s t := by
  refine (foldl_adds (fun (declared : RevisionEdges) t => t ∈ declared.setAt s) _
    (fun edge t => edge.1 = s ∧ t ∈ edge.2) ?_ edges ∅ t).trans ?_
  · intro declared edge t
    simp only [BTreeMap.setAt, BTreeMap.get_alter]
    by_cases hs : edge.1 = s <;> simp [hs]
  · simp [Declares, BTreeMap.setAt]

theorem mem_collect_keys : r ∈ BTreeSet.collect (declaredEdges edges).keys ↔ KnownIn edges r := by
  rw [mem_collect, ExtTreeMap.mem_keys, mem_declaredEdges]

variable {known : BTreeSet RevisionId}

theorem superseded_foldl_enterTarget {revision : RevisionId}
    {targets : List RevisionId} {tables : EdgeTables} :
    x ∈ (targets.foldl (EdgeTables.enterTarget known revision) tables).superseded ↔
      (x ∈ targets ∧ x ∈ known) ∨ x ∈ tables.superseded := by
  refine (foldl_adds (fun (tables : EdgeTables) x => x ∈ tables.superseded) _
    (fun target x => x = target ∧ x ∈ known) ?_ targets tables x).trans ?_
  · intro tables target x
    rw [EdgeTables.enterTarget]
    split
    · rename_i hknown
      rw [mem_insert_iff, or_comm, and_iff_left_of_imp]
      rintro rfl
      exact hknown
    · rename_i hunknown
      refine (or_iff_left ?_).symm
      rintro ⟨rfl, hx⟩
      exact hunknown hx
  · simp [or_comm]

theorem superseded_foldl_enterRevision
    {entries : List (RevisionId × BTreeSet RevisionId)} {tables : EdgeTables} :
    x ∈ (entries.foldl (EdgeTables.enterRevision known) tables).superseded ↔
      (x ∈ known ∧ ∃ entry ∈ entries, x ∈ entry.2) ∨ x ∈ tables.superseded := by
  refine (foldl_adds (fun (tables : EdgeTables) x => x ∈ tables.superseded) _
    (fun entry x => x ∈ known ∧ x ∈ entry.2) ?_ entries tables x).trans ?_
  · intro tables entry x
    rw [EdgeTables.enterRevision, superseded_foldl_enterTarget, mem_toList_iff, or_comm,
      and_comm]
    split <;> rfl
  · simp only [and_left_comm, exists_and_left]
    exact or_comm

theorem mem_superseded_fromEdges {p : RevisionId} :
    p ∈ (SupersessionView.fromEdges edges).superseded ↔
      KnownIn edges p ∧ ∃ s, Declares edges s p := by
  simp only [SupersessionView.fromEdges]
  rw [superseded_foldl_enterRevision, mem_collect_keys, or_iff_left not_mem_empty]
  refine and_congr_right fun _ => ?_
  simp [← mem_setAt_declaredEdges, BTreeMap.mem_setAt_iff]

theorem mem_heads_fromEdges : r ∈ (SupersessionView.fromEdges edges).heads ↔
      KnownIn edges r ∧ r ∉ (SupersessionView.fromEdges edges).superseded := by
  simp only [SupersessionView.fromEdges, mem_filter_iff, mem_collect_keys,
    decide_not, Bool.not_eq_true', decide_eq_false_iff_not]

example : (SupersessionView.fromEdges [(⟨text "b"⟩, [⟨text "a"⟩]), (⟨text "a"⟩, [])]).heads.toList =
    [⟨text "b"⟩] := by
  decide +kernel

def Linked (edges : List (RevisionId × List RevisionId)) (a b : RevisionId) : Prop :=
  KnownIn edges a ∧ KnownIn edges b ∧ Declares edges a b

theorem mem_components_fromEdges {C : BTreeSet RevisionId}
    (hC : C ∈ (SupersessionView.fromEdges edges).components) :
    ∃ x, KnownIn edges x ∧ ∀ y, y ∈ C ↔ KnownIn edges y ∧ EqvGen (Linked edges) x y := by
  have hlinked : Joined (BTreeSet.collect (declaredEdges edges).keys) (declaredEdges edges) =
      Linked edges := by
    funext a b
    rw [Joined, Linked, mem_collect_keys, mem_collect_keys, mem_setAt_declaredEdges]
  obtain ⟨x, hx, hclass⟩ := mem_connectedComponents hC
  rw [mem_collect_keys] at hx
  simp only [mem_collect_keys, hlinked] at hclass
  exact ⟨x, hx, hclass⟩

theorem exists_component_fromEdges :
    (∃ C ∈ (SupersessionView.fromEdges edges).components, r ∈ C) ↔ KnownIn edges r := by
  constructor
  · rintro ⟨C, hC, hr⟩
    obtain ⟨x, -, hclass⟩ := mem_components_fromEdges hC
    exact ((hclass r).mp hr).1
  · intro hr
    exact exists_connectedComponent (mem_collect_keys.mpr hr)

end View

section Proposals

variable {V : Type} {rt : Runtime V} {E : List (ShoreEvent V)}

variable (rt) in
def proposalOf (e : ShoreEvent V) : Option (RevisionId × List RevisionId) :=
  if e.eventType = .workObjectProposed then
    match rt.workObjectProposed e.payload with
    | .ok ⟨_, .revision revision _ supersedes⟩ => some (revision.id, supersedes)
    | _ => none
  else none

variable {edges : List (RevisionId × List RevisionId)}

theorem proposalEdges_eq_ok : proposalEdges rt E = .ok edges ↔
      (∀ e ∈ E, e.eventType = .workObjectProposed → ∃ p, rt.workObjectProposed e.payload = .ok p) ∧
        E.filterMap (proposalOf rt) = edges := by
  induction E generalizing edges with
  | nil => simp [proposalEdges]
  | cons e E ih =>
    rw [proposalEdges, List.forall_mem_cons]
    by_cases ht : e.eventType = .workObjectProposed
    · simp only [ht, if_true, Result.bind_eq_ok, fromValue, ih, List.filterMap_cons, proposalOf]
      cases hp : rt.workObjectProposed e.payload with
      | error x => simp [Except.mapError]
      | ok payload =>
        obtain ⟨_, object⟩ := payload
        cases object <;> simp [Except.mapError]
    · have hnone : proposalOf rt e = none := if_neg ht
      rw [if_neg ht, ih, List.filterMap_cons_none hnone]
      simp [ht]

theorem proposalOf_eq_some {e : ShoreEvent V} {r : RevisionId} :
    (∃ supersedes, proposalOf rt e = some (r, supersedes)) ↔
      ∃ hash, Carries rt e (.revision r hash) := by
  unfold proposalOf Carries
  by_cases ht : e.eventType = .workObjectProposed
  · simp only [ht, if_true, true_and]
    cases rt.workObjectProposed e.payload with
    | error x => simp
    | ok payload =>
      obtain ⟨_, object⟩ := payload
      cases object <;> simp
  · simp [ht]

theorem knownIn_proposalEdges (h : proposalEdges rt E = .ok edges) {r : RevisionId} :
    KnownIn edges r ↔ Proposed (facts rt E) r := by
  obtain ⟨-, rfl⟩ := proposalEdges_eq_ok.mp h
  simp only [KnownIn, Proposed, List.mem_filterMap, mem_facts]
  rw [exists_comm, exists_comm (α := Text)]
  simp [proposalOf_eq_some]

end Proposals

end Pointbreak
