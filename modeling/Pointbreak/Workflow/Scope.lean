import Pointbreak.Projection.Threads
import Pointbreak.Workflow.Effective

/-!
# Workflow.Scope

Reading replacement for a few Revisions only. A scope depends on its closure under the relations of
usable Changes, taken either way, and under sharing an engagement. A view built from the proposals
of those Revisions alone, and narrowed to the threads of the scope, is the store-wide view narrowed
the same way (`scoped_replacement`): inside the closure the scoped view admits the same edges
(`admits_scoped`), and no edge leads out.
-/

namespace Pointbreak

open Std Relation SupersessionView BTreeMap ExtTreeSet Result

/-- The Revisions that some usable Change relates to each Revision. -/
def relationNeighbors (changes : ChangeProjection) : RevisionEdges :=
  (changes.changes.vals.filter ChangeView.isUsable).foldl (fun neighbors view =>
    view.supersedes.toList.foldl (fun neighbors relation =>
      (neighbors.addTo relation.1 relation.2).addTo relation.2 relation.1) neighbors) ∅

/-- The frontier is a stack, with its top first. -/
def changeConnectedRevisions (seed : BTreeSet RevisionId) (changes : ChangeProjection) :
    BTreeSet RevisionId :=
  let neighbors := relationNeighbors changes
  Search.close (fun r => (neighbors.setAt r).toList)
    (seed.size + (BTreeSet.collect neighbors.keys).size) seed seed.toList.reverse

section Events

variable {V : Type} (rt : Runtime V)

/-- The engagement of a proposed Revision; a later proposal of the same Revision overrides. -/
def enterEngagement (engagements : BTreeMap RevisionId EngagementId) (event : ShoreEvent V) :
    Result (BTreeMap RevisionId EngagementId) :=
  if event.eventType = .workObjectProposed then do
    let payload ← fromValue rt.workObjectProposed event.payload
    match payload.workObject with
    | .revision revision _ _ => .ok (engagements.insert revision.id payload.engagementId)
    | .taskAttempt _ => .ok engagements
  else .ok engagements

def proposedEngagements (events : List (ShoreEvent V)) :
    Result (BTreeMap RevisionId EngagementId) :=
  events.foldlM (enterEngagement rt) ∅

/-- The members with every Revision that shares an engagement with one of them. -/
def widenByEngagement (engagements : BTreeMap RevisionId EngagementId)
    (members : BTreeSet RevisionId) : BTreeSet RevisionId :=
  let selected := BTreeSet.collect (members.toList.filterMap fun r => engagements[r]?)
  members.insertMany ((engagements.toList.filter fun entry => entry.2 ∈ selected).map Prod.fst)

/-- One turn of the widening loop. -/
def widenDependencies (changes : ChangeProjection)
    (engagements : BTreeMap RevisionId EngagementId) (members : BTreeSet RevisionId) :
    BTreeSet RevisionId :=
  changeConnectedRevisions (widenByEngagement engagements members) changes

/-- The Revisions that the scope depends on. No turn adds a Revision without a relation and
without an engagement, which bounds the turns. -/
def attentionDependencyRevisions (events : List (ShoreEvent V)) (seed : BTreeSet RevisionId)
    (changes : ChangeProjection) : Result (BTreeSet RevisionId) := do
  let engagements ← proposedEngagements rt events
  .ok (Search.saturate (widenDependencies changes engagements)
    ((relationNeighbors changes).keys.length + engagements.keys.length + 1)
    (changeConnectedRevisions seed changes))

def proposesWithin (revisions : BTreeSet RevisionId) (event : ShoreEvent V) : Bool :=
  match proposalOf rt event with
  | some edge => revisions.contains edge.1
  | none => false

end Events

def meetsScope (scope : BTreeSet RevisionId) (component : BTreeSet RevisionId) : Bool :=
  component.toList.any fun r => scope.contains r

def keepMap (kept : BTreeSet RevisionId) (edges : RevisionEdges) : RevisionEdges :=
  BTreeMap.collect (edges.toList.filter fun entry => kept.contains entry.1)

/-- The whole threads that have a Revision of the scope. -/
def SupersessionView.threadsContaining (view : SupersessionView) (scope : BTreeSet RevisionId) :
    SupersessionView :=
  let components := view.components.filter (meetsScope scope)
  let kept := BTreeSet.collect (components.flatMap fun component => component.toList)
  { heads := view.heads.filter fun r => kept.contains r,
    superseded := view.superseded.filter fun r => kept.contains r,
    supersedes := keepMap kept view.supersedes,
    supersededBy := keepMap kept view.supersededBy,
    components := components,
    cycleRevisions := view.cycleRevisions.filter fun r => kept.contains r,
    diagnostics := view.diagnostics }

section Closure

variable {changes : ChangeProjection} {x y : RevisionId}

def Related (changes : ChangeProjection) (x y : RevisionId) : Prop :=
  ∃ view ∈ changes.changes.vals, view.isUsable = true ∧
    ((x, y) ∈ view.supersedes ∨ (y, x) ∈ view.supersedes)

theorem Related.symm (h : Related changes x y) : Related changes y x := by
  obtain ⟨view, hview, husable, hrel⟩ := h
  exact ⟨view, hview, husable, hrel.symm⟩

def relatedPairs (changes : ChangeProjection) : List (RevisionId × RevisionId) :=
  (changes.changes.vals.filter ChangeView.isUsable).flatMap fun view =>
    view.supersedes.toList.flatMap fun relation => [relation, (relation.2, relation.1)]

theorem relationNeighbors_eq : relationNeighbors changes =
    (relatedPairs changes).foldl (fun m pair => m.addTo pair.1 pair.2) ∅ := by
  simp [relationNeighbors, relatedPairs, List.foldl_flatMap]

theorem mem_relatedPairs : (x, y) ∈ relatedPairs changes ↔ Related changes x y := by
  have hpair : ∀ relation : RevisionId × RevisionId,
      (x, y) ∈ [relation, (relation.2, relation.1)] ↔ relation = (x, y) ∨ relation = (y, x) := by
    rintro ⟨s, p⟩
    simp only [List.mem_cons, Prod.mk.injEq, List.not_mem_nil, or_false]
    tauto
  simp [relatedPairs, Related, hpair, and_assoc, and_or_left, exists_or]

theorem mem_setAt_relationNeighbors :
    y ∈ (relationNeighbors changes).setAt x ↔ Related changes x y := by
  rw [relationNeighbors_eq, mem_setAt_foldl_addTo, mem_relatedPairs, or_iff_left]
  simp [setAt]

theorem mem_relationNeighbors :
    x ∈ relationNeighbors changes ↔ ∃ y, Related changes x y := by
  rw [relationNeighbors_eq, mem_foldl_addTo, or_iff_left ExtTreeMap.not_mem_empty]
  simp only [mem_relatedPairs]

theorem mem_changeConnectedRevisions {seed : BTreeSet RevisionId} :
    x ∈ changeConnectedRevisions seed changes ↔ ∃ s ∈ seed, ReflTransGen (Related changes) s x := by
  have hkeys : ∀ x, ∀ y ∈ ((relationNeighbors changes).setAt x).toList,
      y ∈ BTreeSet.collect (relationNeighbors changes).keys := by
    intro x y hy
    rw [BTreeSet.mem_toList_iff, mem_setAt_relationNeighbors] at hy
    rw [BTreeSet.mem_collect, ExtTreeMap.mem_keys, mem_relationNeighbors]
    exact ⟨x, hy.symm⟩
  have hedge : Search.Edge (fun r => ((relationNeighbors changes).setAt r).toList) =
      Related changes := by
    funext a b
    rw [Search.Edge, BTreeSet.mem_toList_iff, mem_setAt_relationNeighbors]
  rw [changeConnectedRevisions, Search.mem_close_seeds hkeys, hedge]

/-- No relation of a usable Change leads out of the set. -/
def RelationClosed (changes : ChangeProjection) (D : BTreeSet RevisionId) : Prop :=
  ∀ x y, Related changes x y → x ∈ D → y ∈ D

theorem relationClosed_connected (seed : BTreeSet RevisionId) :
    RelationClosed changes (changeConnectedRevisions seed changes) := by
  intro x y hxy hx
  obtain ⟨s, hs, hsx⟩ := mem_changeConnectedRevisions.mp hx
  exact mem_changeConnectedRevisions.mpr ⟨s, hs, hsx.tail hxy⟩

theorem mem_connected_of_mem {seed : BTreeSet RevisionId} (hx : x ∈ seed) :
    x ∈ changeConnectedRevisions seed changes :=
  mem_changeConnectedRevisions.mpr ⟨x, hx, .refl⟩

variable {engagements : BTreeMap RevisionId EngagementId} {members : BTreeSet RevisionId}

theorem mem_widenByEngagement : x ∈ widenByEngagement engagements members ↔
    x ∈ members ∨ ∃ m ∈ members, ∃ engagement, engagements[m]? = some engagement ∧
      engagements[x]? = some engagement := by
  rw [widenByEngagement, BTreeSet.mem_insertMany_iff]
  refine or_congr_right ?_
  simp only [List.mem_map, List.mem_filter, decide_eq_true_eq, BTreeSet.mem_collect,
    List.mem_filterMap, BTreeSet.mem_toList_iff, Prod.exists, mem_toList_iff]
  constructor
  · rintro ⟨_, engagement, ⟨hx, m, hm, he⟩, rfl⟩
    exact ⟨m, hm, engagement, he, hx⟩
  · rintro ⟨m, hm, engagement, he, hx⟩
    exact ⟨x, engagement, ⟨hx, m, hm, he⟩, rfl⟩

theorem mem_widenDependencies_of_mem (hx : x ∈ members) :
    x ∈ widenDependencies changes engagements members :=
  mem_connected_of_mem (mem_widenByEngagement.mpr (.inl hx))

theorem mem_widenDependencies (hx : x ∈ widenDependencies changes engagements members) :
    x ∈ members ∨ x ∈ relationNeighbors changes ∨ x ∈ engagements := by
  obtain ⟨s, hs, hsx⟩ := mem_changeConnectedRevisions.mp hx
  rcases hsx.cases_tail with rfl | ⟨m, -, hmx⟩
  · rcases mem_widenByEngagement.mp hs with hs | ⟨m, -, engagement, -, he⟩
    · exact .inl hs
    · exact .inr (.inr (mem_iff.mpr ⟨engagement, he⟩))
  · exact .inr (.inl (mem_relationNeighbors.mpr ⟨m, hmx.symm⟩))

variable {V : Type} {rt : Runtime V} {E : List (ShoreEvent V)} {S D : BTreeSet RevisionId}

/-- A set with the whole scope that no relation of a usable Change leads out of. -/
structure Covers (changes : ChangeProjection) (S D : BTreeSet RevisionId) : Prop where
  scope : ∀ x ∈ S, x ∈ D
  closed : RelationClosed changes D

/-- The dependencies cover the scope, and another turn of the loop adds nothing to them. -/
theorem attentionDependencyRevisions_spec (h : attentionDependencyRevisions rt E S changes = .ok D) :
    Covers changes S D ∧ ∃ engagements, proposedEngagements rt E = .ok engagements ∧
      widenDependencies changes engagements D = D := by
  simp only [attentionDependencyRevisions, bind_eq_ok, Except.ok.injEq] at h
  obtain ⟨engagements, hengagements, rfl⟩ := h
  refine ⟨Search.saturate_inv ?_ ?_, engagements, hengagements, ?_⟩
  · intro members hmembers
    exact ⟨fun x hx => mem_widenDependencies_of_mem (hmembers.scope x hx),
      relationClosed_connected _⟩
  · exact ⟨fun x hx => mem_connected_of_mem hx, relationClosed_connected _⟩
  let seeds := changeConnectedRevisions S changes
  let added := (relationNeighbors changes).keys ++ engagements.keys
  have hU : ∀ x, x ∈ seeds.insertMany added ↔
      x ∈ seeds ∨ x ∈ relationNeighbors changes ∨ x ∈ engagements := by
    intro x
    rw [BTreeSet.mem_insertMany_iff, List.mem_append, ExtTreeMap.mem_keys, ExtTreeMap.mem_keys]
  refine Search.saturate_fixed (U := seeds.insertMany added)
    (fun _ _ hx => mem_widenDependencies_of_mem hx) ?_ ?_ ?_
  · intro members hmembers x hx
    rcases mem_widenDependencies hx with hx | hx
    · exact hmembers x hx
    · exact (hU x).mpr (.inr hx)
  · intro x hx
    exact (hU x).mpr (.inl hx)
  · have hsize : (seeds.insertMany added).size ≤ seeds.size + added.length :=
      size_insertMany_list_le
    rw [List.length_append] at hsize
    show (seeds.insertMany added).size < seeds.size + _
    omega

end Closure

section Scoped

variable {changes : ChangeProjection} {known D : BTreeSet RevisionId} {x y r : RevisionId}

def knownWithin (known D : BTreeSet RevisionId) : BTreeSet RevisionId :=
  known.filter fun r => D.contains r

theorem mem_knownWithin : r ∈ knownWithin known D ↔ r ∈ known ∧ r ∈ D := by
  rw [knownWithin, BTreeSet.mem_filter_iff, contains_iff_mem]

theorem Admits.related (h : Admits changes known x y) : Related changes x y := by
  obtain ⟨view, hview, husable, hrel, -⟩ := h
  exact ⟨view, hview, husable, .inl hrel⟩

theorem Admits.mem_iff (hD : RelationClosed changes D) (h : Admits changes known x y) :
    x ∈ D ↔ y ∈ D :=
  ⟨hD x y h.related, hD y x h.related.symm⟩

theorem admits_scoped (hD : RelationClosed changes D) :
    Admits changes (knownWithin known D) x y ↔ Admits changes known x y ∧ x ∈ D := by
  constructor
  · rintro ⟨view, hview, husable, hrel, hxm, hym, hx, hy, hcur⟩
    rw [mem_knownWithin] at hx hy
    exact ⟨⟨view, hview, husable, hrel, hxm, hym, hx.1, hy.1, hcur⟩, hx.2⟩
  · rintro ⟨h, hx⟩
    have hy : y ∈ D := (h.mem_iff hD).mp hx
    obtain ⟨view, hview, husable, hrel, hxm, hym, hxk, hyk, hcur⟩ := h
    exact ⟨view, hview, husable, hrel, hxm, hym, mem_knownWithin.mpr ⟨hxk, hx⟩,
      mem_knownWithin.mpr ⟨hyk, hy⟩, hcur⟩

theorem get_admittedEdges_scoped (hD : RelationClosed changes D) (hr : r ∈ D) :
    (admittedEdges changes (knownWithin known D))[r]? = (admittedEdges changes known)[r]? := by
  refine get_eq_of_setAt ?_ ?_
  · rw [mem_admittedEdges, mem_admittedEdges, mem_knownWithin, and_iff_left hr]
  · refine ext_mem fun p => ?_
    rw [mem_setAt_admittedEdges, mem_setAt_admittedEdges, admits_scoped hD, and_iff_left hr]

theorem declaredEdges_replacementEdges :
    declaredEdges (replacementEdges changes known) = admittedEdges changes known := by
  refine ext_setAt (fun k => ?_) (fun k => ext_mem fun p => ?_)
  · rw [mem_declaredEdges, knownIn_replacementEdges, mem_admittedEdges]
  · rw [mem_setAt_declaredEdges, declares_replacementEdges, mem_setAt_admittedEdges]

theorem toList_admittedEdges_scoped (hD : RelationClosed changes D) :
    (admittedEdges changes (knownWithin known D)).toList =
      (admittedEdges changes known).toList.filter fun entry => entry.1 ∈ D := by
  refine eq_of_ordered Prod.fst ExtTreeMap.ordered_keys_toList
    (ExtTreeMap.ordered_keys_toList.filter _) ?_
  rintro ⟨r, targets⟩
  rw [List.mem_filter, mem_toList_iff, mem_toList_iff, decide_eq_true_eq]
  constructor
  · intro h
    have hr := mem_admittedEdges.mp (mem_iff.mpr ⟨targets, h⟩)
    rw [mem_knownWithin] at hr
    rw [get_admittedEdges_scoped hD hr.2] at h
    exact ⟨h, hr.2⟩
  · rintro ⟨h, hr⟩
    rwa [get_admittedEdges_scoped hD hr]

theorem linkedPairs_admittedEdges : linkedPairs known (admittedEdges changes known) =
    (admittedEdges changes known).toList.flatMap fun entry =>
      entry.2.toList.map fun target => (entry.1, target) := by
  refine List.flatMap_congr ?_
  rintro ⟨r, targets⟩ hentry
  rw [mem_toList_iff] at hentry
  rw [if_pos (mem_admittedEdges.mp (mem_iff.mpr ⟨targets, hentry⟩)),
    List.filter_eq_self.mpr]
  intro p hp
  have hset : p ∈ (admittedEdges changes known).setAt r :=
    mem_setAt_iff.mpr ⟨targets, hentry, BTreeSet.mem_toList_iff.mp hp⟩
  obtain ⟨_, _, _, _, _, _, _, hpk, _⟩ := mem_setAt_admittedEdges.mp hset
  exact decide_eq_true hpk

theorem mem_linkedPairs_admittedEdges {pair : RevisionId × RevisionId}
    (h : pair ∈ linkedPairs known (admittedEdges changes known)) :
    Admits changes known pair.1 pair.2 := by
  rw [linkedPairs_admittedEdges] at h
  obtain ⟨⟨r, targets⟩, hentry, h⟩ := List.mem_flatMap.mp h
  obtain ⟨p, hp, rfl⟩ := List.mem_map.mp h
  exact mem_setAt_admittedEdges.mp (mem_setAt_iff.mpr
    ⟨targets, mem_toList_iff.mp hentry, BTreeSet.mem_toList_iff.mp hp⟩)

section Closed

variable (hD : RelationClosed changes D)

include hD

theorem linkedPairs_scoped :
    linkedPairs (knownWithin known D) (admittedEdges changes (knownWithin known D)) =
      (linkedPairs known (admittedEdges changes known)).filter fun pair => pair.1 ∈ D := by
  rw [linkedPairs_admittedEdges, linkedPairs_admittedEdges, toList_admittedEdges_scoped hD,
    List.filter_flatMap]
  induction (admittedEdges changes known).toList with
  | nil => rfl
  | cons entry entries ih =>
    by_cases hr : entry.1 ∈ D <;> simp [hr, List.filter_map, Function.comp_def, ih]

/-- The thread of a Revision inside has the leader it has store-wide. -/
theorem leader_scoped (hx : x ∈ D) :
    leader (knownWithin known D) (admittedEdges changes (knownWithin known D)) x =
      leader known (admittedEdges changes known) x := by
  rw [leader, leader, linkedPairs_scoped hD]
  exact UnionFind.reps_filter (fun pair h => (mem_linkedPairs_admittedEdges h).mem_iff hD) hx

theorem leader_mem_iff :
    leader known (admittedEdges changes known) x ∈ D ↔ x ∈ D :=
  UnionFind.reps_mem_iff (fun _ h => (mem_linkedPairs_admittedEdges h).mem_iff hD) x

theorem followers_scoped (hr : r ∈ D) :
    followers (knownWithin known D) (admittedEdges changes (knownWithin known D)) r =
      followers known (admittedEdges changes known) r := by
  refine ext_mem fun y => ?_
  rw [mem_followers, mem_followers, mem_knownWithin]
  constructor
  · rintro ⟨⟨hy, hyD⟩, hlead⟩
    exact ⟨hy, by rw [← leader_scoped hD hyD, hlead]⟩
  · rintro ⟨hy, hlead⟩
    have hyD : y ∈ D := (leader_mem_iff hD).mp (hlead ▸ hr)
    exact ⟨⟨hy, hyD⟩, by rw [leader_scoped hD hyD, hlead]⟩

end Closed

theorem mem_meeting_leaders {S : BTreeSet RevisionId} {declared : RevisionEdges} :
    r ∈ (BTreeSet.collect (known.toList.map (leader known declared))).filter
        (fun r => meetsScope S (followers known declared r)) ↔
      ∃ y ∈ known, y ∈ S ∧ leader known declared y = r := by
  simp only [BTreeSet.mem_filter_iff, BTreeSet.mem_toList_iff, BTreeSet.mem_collect, List.mem_map,
    meetsScope, List.any_eq_true, contains_iff_mem, mem_followers]
  constructor
  · rintro ⟨-, y, ⟨hy, hlead⟩, hS⟩
    exact ⟨y, hy, hS, hlead⟩
  · rintro ⟨y, hy, hS, hlead⟩
    exact ⟨⟨y, hy, hlead⟩, y, ⟨hy, hlead⟩, hS⟩

/-- The threads that meet the scope are the same, in the same order. -/
theorem components_scoped {S : BTreeSet RevisionId} (hD : Covers changes S D) :
    (connectedComponents (knownWithin known D)
        (admittedEdges changes (knownWithin known D))).filter (meetsScope S) =
      (connectedComponents known (admittedEdges changes known)).filter (meetsScope S) := by
  rw [connectedComponents_eq_map, connectedComponents_eq_map, List.filter_map, List.filter_map,
    ← toList_filter, ← toList_filter]
  have hleaders : ∀ y ∈ S, leader (knownWithin known D)
      (admittedEdges changes (knownWithin known D)) y =
        leader known (admittedEdges changes known) y :=
    fun y hy => leader_scoped hD.closed (hD.scope y hy)
  have hset : (BTreeSet.collect ((knownWithin known D).toList.map (leader (knownWithin known D)
      (admittedEdges changes (knownWithin known D))))).filter
        (fun r => meetsScope S (followers (knownWithin known D)
          (admittedEdges changes (knownWithin known D)) r)) =
      (BTreeSet.collect (known.toList.map (leader known (admittedEdges changes known)))).filter
        (fun r => meetsScope S (followers known (admittedEdges changes known) r)) := by
    refine ext_mem fun r => ?_
    rw [mem_meeting_leaders, mem_meeting_leaders]
    constructor
    · rintro ⟨y, hy, hS, hlead⟩
      exact ⟨y, (mem_knownWithin.mp hy).1, hS, by rw [← hleaders y hS, hlead]⟩
    · rintro ⟨y, hy, hS, hlead⟩
      exact ⟨y, mem_knownWithin.mpr ⟨hy, hD.scope y hS⟩, hS, by rw [hleaders y hS, hlead]⟩
  rw [Function.comp_def, Function.comp_def, hset]
  refine List.map_congr_left fun r hr => followers_scoped hD.closed ?_
  obtain ⟨y, -, hS, rfl⟩ := mem_meeting_leaders.mp (BTreeSet.mem_toList_iff.mp hr)
  exact (leader_mem_iff hD.closed).mpr (hD.scope y hS)

end Scoped

section Narrowed

variable {changes : ChangeProjection} {known S D : BTreeSet RevisionId} {r : RevisionId}

theorem get_keepMap {kept : BTreeSet RevisionId} {edges : RevisionEdges}
    {targets : BTreeSet RevisionId} :
    (keepMap kept edges)[r]? = some targets ↔ edges[r]? = some targets ∧ r ∈ kept := by
  rw [keepMap, get_collect, List.mem_filter, mem_toList_iff,
    contains_iff_mem]
  exact (nodup_fst edges).sublist ((List.filter_sublist ..).map _)

theorem threadsContaining_congr {v w : SupersessionView}
    (hcomponents : v.components.filter (meetsScope S) = w.components.filter (meetsScope S))
    (hD : ∀ C ∈ w.components.filter (meetsScope S), ∀ r ∈ C, r ∈ D)
    (hheads : ∀ r ∈ D, r ∈ v.heads ↔ r ∈ w.heads)
    (hsuperseded : ∀ r ∈ D, r ∈ v.superseded ↔ r ∈ w.superseded)
    (hsupersedes : ∀ r ∈ D, v.supersedes[r]? = w.supersedes[r]?)
    (hsupersededBy : ∀ r ∈ D, v.supersededBy[r]? = w.supersededBy[r]?)
    (hcycles : v.cycleRevisions = w.cycleRevisions) (hdiagnostics : v.diagnostics = w.diagnostics) :
    v.threadsContaining S = w.threadsContaining S := by
  simp only [threadsContaining, hcomponents, hcycles, hdiagnostics]
  generalize hkeep : BTreeSet.collect ((w.components.filter (meetsScope S)).flatMap
    fun component => component.toList) = kept
  have hkept : ∀ r ∈ kept, r ∈ D := by
    intro r hr
    rw [← hkeep, BTreeSet.mem_collect, List.mem_flatMap] at hr
    obtain ⟨C, hC, hr⟩ := hr
    exact hD C hC r (BTreeSet.mem_toList_iff.mp hr)
  have hset : ∀ s t : BTreeSet RevisionId, (∀ r ∈ D, r ∈ s ↔ r ∈ t) →
      s.filter (fun r => kept.contains r) = t.filter (fun r => kept.contains r) := by
    intro s t hst
    refine ext_mem fun r => ?_
    rw [BTreeSet.mem_filter_iff, BTreeSet.mem_filter_iff, contains_iff_mem]
    exact and_congr_left fun hr => hst r (hkept r hr)
  have hmap : ∀ m n : RevisionEdges, (∀ r ∈ D, m[r]? = n[r]?) → keepMap kept m = keepMap kept n := by
    intro m n hmn
    refine ExtTreeMap.ext_getElem? fun r => Option.ext fun targets => ?_
    rw [get_keepMap, get_keepMap]
    exact and_congr_left fun hr => by rw [hmn r (hkept r hr)]
  rw [hset _ _ hheads, hset _ _ hsuperseded, hmap _ _ hsupersedes, hmap _ _ hsupersededBy]

def replacementView (changes : ChangeProjection) (known : BTreeSet RevisionId) : SupersessionView :=
  (SupersessionView.fromEdges (replacementEdges changes known)).clearCycles

theorem supersedes_replacementView : (replacementView changes known).supersedes =
    (SupersessionView.fromEdges (replacementEdges changes known)).supersedes := rfl

theorem supersededBy_replacementView : (replacementView changes known).supersededBy =
    (SupersessionView.fromEdges (replacementEdges changes known)).supersededBy := rfl

theorem cycleRevisions_replacementView : (replacementView changes known).cycleRevisions = ∅ := rfl

theorem components_replacementView : (replacementView changes known).components =
    connectedComponents known (admittedEdges changes known) := by
  simp only [replacementView, clearCycles, fromEdges]
  have hknown : BTreeSet.collect (declaredEdges (replacementEdges changes known)).keys = known :=
    ext_mem fun r => by rw [mem_collect_keys, knownIn_replacementEdges]
  rw [hknown, declaredEdges_replacementEdges]

theorem mem_superseded_replacementView {p : RevisionId} :
    p ∈ (replacementView changes known).superseded ↔ ∃ s, Admits changes known s p := by
  rw [replacementView, clearCycles_superseded, mem_superseded_fromEdges,
    knownIn_replacementEdges]
  simp only [declares_replacementEdges]
  refine and_iff_right_of_imp ?_
  rintro ⟨_, _, _, _, _, _, _, _, hp, _⟩
  exact hp

theorem diagnostics_replacementView : (replacementView changes known).diagnostics = [] := by
  have htargets : ∀ s t, Declares (replacementEdges changes known) s t →
      KnownIn (replacementEdges changes known) t := by
    intro s t hst
    obtain ⟨_, _, _, _, _, _, _, ht, _⟩ := declares_replacementEdges.mp hst
    exact knownIn_replacementEdges.mpr ht
  show (fromEdges (replacementEdges changes known)).diagnostics.filter _ = []
  rw [diagnostics_eq htargets, List.filter_map]
  simp [Function.comp_def, cycleDiagnostic]

theorem get_supersededBy_scoped (hD : RelationClosed changes D) (hr : r ∈ D) :
    (replacementView changes (knownWithin known D)).supersededBy[r]? =
      (replacementView changes known).supersededBy[r]? := by
  have hsource : ∀ s, Admits changes (knownWithin known D) s r ↔ Admits changes known s r := by
    intro s
    rw [admits_scoped hD]
    exact and_iff_left_of_imp fun h => (h.mem_iff hD).mpr hr
  rw [supersededBy_replacementView, supersededBy_replacementView]
  refine get_eq_of_setAt ?_ (ext_mem fun s => ?_)
  · simp [supersededBy_keys, knownIn_replacementEdges, declares_replacementEdges, hsource,
      mem_knownWithin, hr]
  · simp [mem_supersededBy, knownIn_replacementEdges, declares_replacementEdges, hsource,
      mem_knownWithin, hr]

theorem replacementView_scoped (hD : Covers changes S D) :
    (replacementView changes (knownWithin known D)).threadsContaining S =
      (replacementView changes known).threadsContaining S := by
  have hsuperseded : ∀ r ∈ D, r ∈ (replacementView changes (knownWithin known D)).superseded ↔
      r ∈ (replacementView changes known).superseded := by
    intro r hr
    rw [mem_superseded_replacementView, mem_superseded_replacementView]
    refine exists_congr fun s => ?_
    rw [admits_scoped hD.closed]
    exact and_iff_left_of_imp fun h => (h.mem_iff hD.closed).mpr hr
  have hcomponents : (replacementView changes (knownWithin known D)).components.filter
      (meetsScope S) = (replacementView changes known).components.filter (meetsScope S) := by
    rw [components_replacementView, components_replacementView, components_scoped hD]
  refine threadsContaining_congr (D := D) hcomponents ?_ ?_ hsuperseded
    ?_ (fun r => get_supersededBy_scoped hD.closed)
    (cycleRevisions_replacementView.trans cycleRevisions_replacementView.symm)
    (diagnostics_replacementView.trans diagnostics_replacementView.symm)
  rotate_left 2
  · intro r hr
    refine Option.ext fun targets => ?_
    rw [supersedes_replacementView, supersedes_replacementView, get_supersedes, get_supersedes,
      declaredEdges_replacementEdges, declaredEdges_replacementEdges,
      get_admittedEdges_scoped hD.closed hr]
  · intro C hC r hr
    rw [← hcomponents, replacementView, clearCycles_components] at hC
    have hknown : KnownIn (replacementEdges changes (knownWithin known D)) r :=
      exists_component_fromEdges.mp ⟨C, (List.mem_filter.mp hC).1, hr⟩
    exact (mem_knownWithin.mp (knownIn_replacementEdges.mp hknown)).2
  · intro r hr
    have hs := hsuperseded r hr
    rw [replacementView, replacementView, clearCycles_superseded,
      clearCycles_superseded] at hs
    rw [replacementView, replacementView, clearCycles_heads,
      clearCycles_heads, mem_heads_fromEdges, mem_heads_fromEdges, hs,
      knownIn_replacementEdges, knownIn_replacementEdges, mem_knownWithin, and_iff_left hr]

end Narrowed

section Store

variable {V : Type} {rt : Runtime V} {E : List (ShoreEvent V)} {D : BTreeSet RevisionId}

theorem proposalEdges_within {edges : List (RevisionId × List RevisionId)}
    (h : proposalEdges rt E = .ok edges) (D : BTreeSet RevisionId) :
    proposalEdges rt (E.filter (proposesWithin rt D)) =
      .ok (edges.filter fun edge => D.contains edge.1) := by
  obtain ⟨hdecodes, rfl⟩ := proposalEdges_eq_ok.mp h
  refine proposalEdges_eq_ok.mpr ⟨fun e he => hdecodes e (List.mem_filter.mp he).1, ?_⟩
  rw [List.filterMap_filter, List.filter_filterMap]
  refine List.filterMap_congr fun e _ => ?_
  rw [proposesWithin]
  cases proposalOf rt e with
  | none => simp
  | some edge => simp [Option.filter]

theorem fromEvents_within {legacy : SupersessionView}
    (h : SupersessionView.fromEvents rt E = .ok legacy) (D : BTreeSet RevisionId) :
    ∃ within, SupersessionView.fromEvents rt (E.filter (proposesWithin rt D)) = .ok within ∧
      within.known = knownWithin legacy.known D := by
  simp only [fromEvents, bind_eq_ok, Except.ok.injEq] at h ⊢
  obtain ⟨edges, hedges, rfl⟩ := h
  refine ⟨_, ⟨_, proposalEdges_within hedges D, rfl⟩, ext_mem fun r => ?_⟩
  rw [mem_known_fromEdges, mem_knownWithin, mem_known_fromEdges]
  simp [KnownIn]

theorem foldlM_enterEngagement (hdecodes : ∀ e ∈ E, e.eventType = .workObjectProposed →
    ∃ p, rt.workObjectProposed e.payload = .ok p) (engagements : BTreeMap RevisionId EngagementId) :
    ∃ engagements', E.foldlM (enterEngagement rt) engagements = .ok engagements' := by
  induction E generalizing engagements with
  | nil => exact ⟨engagements, rfl⟩
  | cons e E ih =>
    have hrest := fun m => ih (fun e he => hdecodes e (.tail _ he)) m
    have hstep : ∃ m, enterEngagement rt engagements e = .ok m := by
      rw [enterEngagement]
      split
      · rename_i ht
        obtain ⟨payload, hp⟩ := hdecodes e (.head _) ht
        simp only [bind_eq_ok, fromValue_eq_ok, hp]
        cases hobject : payload.workObject <;> exact ⟨_, payload, rfl, by rw [hobject]⟩
      · exact ⟨engagements, rfl⟩
    obtain ⟨m, hm⟩ := hstep
    rw [List.foldlM_cons, hm]
    exact hrest m

/-- Reading the scope alone: the dependencies exist, and the view of their proposals narrows to
what the store-wide view narrows to. -/
theorem scoped_replacement {P : ChangeProjection} {R : SupersessionView}
    (hP : projectChanges rt E = .ok P) (hne : P.changes.isEmpty = false)
    (hR : SupersessionView.replacementFromEvents rt E = .ok R) (S : BTreeSet RevisionId) :
    ∃ D within, attentionDependencyRevisions rt E S P = .ok D ∧
      SupersessionView.fromEvents rt (E.filter (proposesWithin rt D)) = .ok within ∧
      (within.changeAware P).threadsContaining S = R.threadsContaining S := by
  obtain ⟨legacy, P', hlegacy, hP', rfl⟩ := replacementFromEvents_eq_ok.mp hR
  rw [hP] at hP'
  cases hP'
  obtain ⟨D, hD⟩ : ∃ D, attentionDependencyRevisions rt E S P = .ok D := by
    obtain ⟨edges, hedges, -⟩ := bind_eq_ok.mp hlegacy
    obtain ⟨engagements, he⟩ := foldlM_enterEngagement (proposalEdges_eq_ok.mp hedges).1 ∅
    exact ⟨_, bind_eq_ok.mpr ⟨engagements, he, rfl⟩⟩
  obtain ⟨within, hwithin, hknown⟩ := fromEvents_within hlegacy D
  refine ⟨D, within, hD, hwithin, ?_⟩
  rw [changeAware_eq within hne, changeAware_eq legacy hne, hknown]
  exact replacementView_scoped (attentionDependencyRevisions_spec hD).1

end Store

section Elsewhere

open Recorded

def proposedElsewhere (r : Nat) : WirePayload :=
  .workObjectProposed
    { engagementId := ⟨text "engagement:02"⟩,
      workObject := .revision
        { id := rev r, objectId := ⟨text "obj:" ++ Text.hexOf 2 r []⟩, gitProvenance := none }
        (artifact r) [] }

/-- One Change replaces the first Revision by the second, and a third stands apart from both. -/
def apart : List (ShoreEvent WirePayload) :=
  journal 1 [declared 1, proposed 1, proposed 2, proposedElsewhere 3, member 1 1, member 1 2,
    supersedes 1 2 1]

theorem apart_scoped :
    ∃ P R D within, projectChanges runtime apart = .ok P ∧ P.changes.isEmpty = false ∧
      SupersessionView.replacementFromEvents runtime apart = .ok R ∧
      (rev 2 ∈ R.heads ∧ rev 3 ∈ R.heads) ∧
      attentionDependencyRevisions runtime apart (BTreeSet.collect [rev 1]) P = .ok D ∧
      (rev 2 ∈ D ∧ rev 3 ∉ D) ∧
      SupersessionView.fromEvents runtime (apart.filter (proposesWithin runtime D)) = .ok within ∧
      (within.changeAware P).threadsContaining (BTreeSet.collect [rev 1]) =
        R.threadsContaining (BTreeSet.collect [rev 1]) := by
  have hrun : (∃ P, projectChanges runtime apart = .ok P ∧ P.changes.isEmpty = false ∧
        ∃ D, attentionDependencyRevisions runtime apart (BTreeSet.collect [rev 1]) P = .ok D ∧
          rev 2 ∈ D ∧ rev 3 ∉ D) ∧
      ∃ R, replacementFromEvents runtime apart = .ok R ∧
        rev 2 ∈ R.heads ∧ rev 3 ∈ R.heads := by
    decide +kernel
  obtain ⟨⟨P, hP, hne, D, hD, hmembers⟩, R, hR, hheads⟩ := hrun
  obtain ⟨_, within, hD', hwithin, hsame⟩ :=
    scoped_replacement hP hne hR (BTreeSet.collect [rev 1])
  cases hD.symm.trans hD'
  exact ⟨P, R, D, within, hP, hne, hR, hheads, hD, hmembers, hwithin, hsame⟩

end Elsewhere

end Pointbreak
