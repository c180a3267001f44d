import Pointbreak.Projection.Supersession

/-!
# Projection.Threads

What the maps of the supersession view say: the forward map has the targets of every Revision that
has any, and the reverse map the sources of every known target.
-/

namespace Pointbreak

open Std Relation BTreeMap KeyedLog EdgeTables List

section Maps

variable {known : BTreeSet RevisionId} {edges : List (RevisionId × List RevisionId)}

theorem enterTarget_supersedes (revision : RevisionId) (tables : EdgeTables)
    (targets : List RevisionId) :
    (targets.foldl (EdgeTables.enterTarget known revision) tables).supersedes =
      tables.supersedes := by
  induction targets generalizing tables with
  | nil => rfl
  | cons target targets ih =>
    rw [foldl_cons, ih, enterTarget]
    split <;> rfl

theorem get_supersedes {r : RevisionId} {targets : BTreeSet RevisionId} :
    (SupersessionView.fromEdges edges).supersedes[r]? = some targets ↔
      (declaredEdges edges)[r]? = some targets ∧ targets.isEmpty = false := by
  let kept := fun targets : BTreeSet RevisionId => if targets.isEmpty then none else some targets
  have hget : (SupersessionView.fromEdges edges).supersedes[r]? =
      (declaredEdges edges)[r]?.bind kept := by
    refine get_foldl_toList EdgeTables.supersedes (fun _ => kept) ?_ _ {} r (by simp)
    intro tables entry
    rw [enterRevision, enterTarget_supersedes]
    cases he : entry.2.isEmpty <;> simp only [kept, he] <;> rfl
  simp [hget, kept, Option.bind_eq_some_iff, ← and_assoc]

def supersededPairs (known : BTreeSet RevisionId) (declared : RevisionEdges) :
    List (RevisionId × RevisionId) :=
  declared.toList.flatMap fun entry =>
    (entry.2.toList.filter (· ∈ known)).map fun target => (target, entry.1)

theorem enterTarget_supersededBy (revision : RevisionId) (tables : EdgeTables)
    (targets : List RevisionId) :
    (targets.foldl (EdgeTables.enterTarget known revision) tables).supersededBy =
      ((targets.filter (· ∈ known)).map fun target => (target, revision)).foldl
        (fun m pair => m.addTo pair.1 pair.2) tables.supersededBy := by
  rw [foldl_map, foldl_filter]
  refine (foldl_hom supersededBy fun tables target => ?_).symm
  simp only [enterTarget, decide_eq_true_eq]
  split <;> rfl

theorem supersededBy_eq : (SupersessionView.fromEdges edges).supersededBy =
    (supersededPairs (BTreeSet.collect (declaredEdges edges).keys) (declaredEdges edges)).foldl
      (fun m pair => m.addTo pair.1 pair.2) ∅ := by
  rw [supersededPairs, foldl_flatMap]
  refine (foldl_hom supersededBy fun tables entry => ?_).symm
  rw [enterRevision, enterTarget_supersededBy]
  split <;> rfl

theorem mem_supersededPairs {declared : RevisionEdges} {p s : RevisionId} :
    (p, s) ∈ supersededPairs known declared ↔ p ∈ known ∧ p ∈ declared.setAt s := by
  simp only [supersededPairs, mem_flatMap, mem_map, mem_filter, decide_eq_true_eq,
    BTreeSet.mem_toList_iff, Prod.mk.injEq, Prod.exists, mem_toList_iff, mem_setAt_iff]
  constructor
  · rintro ⟨_, targets, hget, _, ⟨hp, hknown⟩, rfl, rfl⟩
    exact ⟨hknown, targets, hget, hp⟩
  · rintro ⟨hknown, targets, hget, hp⟩
    exact ⟨s, targets, hget, p, ⟨hp, hknown⟩, rfl, rfl⟩

theorem mem_supersededBy {p s : RevisionId} :
    s ∈ (SupersessionView.fromEdges edges).supersededBy.setAt p ↔
      KnownIn edges p ∧ Declares edges s p := by
  rw [supersededBy_eq, mem_setAt_foldl_addTo, mem_supersededPairs, mem_collect_keys,
    mem_setAt_declaredEdges, or_iff_left]
  simp [setAt]

theorem supersededBy_keys {p : RevisionId} :
    p ∈ (SupersessionView.fromEdges edges).supersededBy ↔ KnownIn edges p ∧ ∃ s, Declares edges s p := by
  rw [supersededBy_eq, mem_foldl_addTo, or_iff_left ExtTreeMap.not_mem_empty]
  simp only [mem_supersededPairs, mem_collect_keys, mem_setAt_declaredEdges, exists_and_left]

theorem diagnostics_eq (h : ∀ s t, Declares edges s t → KnownIn edges t) :
    (SupersessionView.fromEdges edges).diagnostics =
      (directedCycles (BTreeSet.collect (declaredEdges edges).keys) (declaredEdges edges)).map
        cycleDiagnostic := by
  have htarget : ∀ (known : BTreeSet RevisionId) (revision : RevisionId)
      (targets : List RevisionId) (tables : EdgeTables), (∀ t ∈ targets, t ∈ known) →
        (targets.foldl (enterTarget known revision) tables).diagnostics =
          tables.diagnostics := by
    intro known revision targets tables hknown
    refine List.foldlRecOn (motive := fun (run : EdgeTables) => run.diagnostics =
      tables.diagnostics) targets _ rfl fun run hrun t ht => ?_
    rw [enterTarget, if_pos (hknown t ht)]
    exact hrun
  have hrun : ∀ (known : BTreeSet RevisionId) (log : List (RevisionId × BTreeSet RevisionId))
      (tables : EdgeTables), (∀ entry ∈ log, ∀ t ∈ entry.2, t ∈ known) →
        (log.foldl (enterRevision known) tables).diagnostics = tables.diagnostics := by
    intro known log tables hknown
    refine List.foldlRecOn (motive := fun (run : EdgeTables) => run.diagnostics =
      tables.diagnostics) log _ rfl fun run hrun entry hentry => ?_
    rw [enterRevision,
      htarget _ _ _ _ fun t ht => hknown entry hentry t (BTreeSet.mem_toList_iff.mp ht), ← hrun]
    split <;> rfl
  simp only [SupersessionView.fromEdges]
  rw [hrun]
  · rfl
  · rintro ⟨s, targets⟩ hentry t ht
    rw [mem_collect_keys]
    refine h s t (mem_setAt_declaredEdges.mp (mem_setAt_iff.mpr ⟨targets, ?_, ht⟩))
    exact mem_toList_iff.mp hentry

end Maps

end Pointbreak
