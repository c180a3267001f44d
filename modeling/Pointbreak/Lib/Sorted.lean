import Mathlib.Data.List.Perm.Basic
import Pointbreak.Lib.Rename

/-!
# Lib.Sorted

Lists in strict order, the canonical form of a list that stands for a set: two such lists are equal
when they have the same members. A stable sort does not see the order of a first part whose elements
it tells apart (`insertionSort_append_perm`).
-/

open Std

variable {α : Type} [Ord α]

def sortedUnique [TransOrd α] (values : List α) : List α :=
  (BTreeSet.collect values).toList

def isSortedUnique : List α → Bool
  | a :: b :: rest => compare a b == .lt && isSortedUnique (b :: rest)
  | _ => true

theorem mem_sortedUnique [TransOrd α] [LawfulEqOrd α] {values : List α} {a : α} :
    a ∈ sortedUnique values ↔ a ∈ values := by
  rw [sortedUnique, BTreeSet.mem_toList_iff, BTreeSet.mem_collect]

theorem isSortedUnique_iff_isChain {l : List α} :
    isSortedUnique l = true ↔ l.IsChain (fun a b => compare a b = .lt) := by
  induction l with
  | nil => simp [isSortedUnique]
  | cons a l ih =>
    cases l with
    | nil => simp [isSortedUnique]
    | cons b l => rw [isSortedUnique, Bool.and_eq_true, beq_iff_eq, ih, List.isChain_cons_cons]

theorem isSortedUnique_iff [TransOrd α] {l : List α} :
    isSortedUnique l = true ↔ l.Pairwise fun a b => compare a b = .lt := by
  have : Trans (fun a b : α => compare a b = .lt) (fun a b => compare a b = .lt)
      (fun a b => compare a b = .lt) := ⟨TransCmp.lt_trans⟩
  rw [isSortedUnique_iff_isChain, List.isChain_iff_pairwise]

theorem isSortedUnique_sortedUnique [TransOrd α] (l : List α) :
    isSortedUnique (sortedUnique l) = true :=
  isSortedUnique_iff.mpr (BTreeSet.collect l).ordered_toList

section Members

variable [TransOrd α] [LawfulEqOrd α]

theorem sortedUnique_eq_iff {l l' : List α} (h : isSortedUnique l' = true) :
    sortedUnique l = l' ↔ ∀ a, a ∈ l ↔ a ∈ l' := by
  constructor
  · rintro rfl a
    exact mem_sortedUnique.symm
  · intro hmem
    refine eq_of_ordered (fun a => a) (isSortedUnique_iff.mp (isSortedUnique_sortedUnique l))
      (isSortedUnique_iff.mp h) ?_
    intro a
    rw [mem_sortedUnique, hmem]

end Members

section Sorting

variable {β : Type} (cmp : β → β → Ordering) [TransCmp cmp] {r : β → β → Prop} [DecidableRel r]

section Compared

variable (hr : ∀ a b, r a b ↔ (cmp a b).isLE = true)

include hr

theorem orderedInsert_comm {a b : β}
    (hne : cmp a b = .eq → a = b) (l : List β) :
    (l.orderedInsert r a).orderedInsert r b = (l.orderedInsert r b).orderedInsert r a := by
  have htotal : ∀ {x y}, ¬ r x y → r y x := by
    intro x y hxy
    rw [hr] at hxy ⊢
    have hs : cmp y x = (cmp x y).swap := OrientedCmp.eq_swap
    rw [hs]
    cases hc : cmp x y <;> simp [hc] at hxy ⊢
  wlog h : r a b generalizing a b
  · exact (this (fun heq => (hne (OrientedCmp.eq_symm heq)).symm) (htotal h)).symm
  by_cases hba : r b a
  · rw [hr] at h hba
    rw [hne (OrientedCmp.isLE_antisymm h hba)]
  induction l with
  | nil => simp [h, hba]
  | cons c l ih =>
    by_cases hac : r a c <;> by_cases hbc : r b c
    · simp [hac, hbc, h, hba]
    · simp [hac, hbc, hba]
    · rw [hr] at h hbc hac
      exact absurd (TransCmp.isLE_trans h hbc) hac
    · simp [hac, hbc, ih]

theorem insertionSort_append_perm {l l' : List β}
    (hp : l.Perm l') (hne : ∀ a ∈ l, ∀ b ∈ l, cmp a b = .eq → a = b) (rest : List β) :
    (l ++ rest).insertionSort r = (l' ++ rest).insertionSort r := by
  have hfold : ∀ l : List β, (l ++ rest).insertionSort r =
      l.foldr (List.orderedInsert r) (rest.insertionSort r) := fun l => List.foldr_append
  rw [hfold, hfold]
  refine hp.foldr_eq' ?_ _
  intro a ha b hb sorted
  exact orderedInsert_comm cmp hr (hne a ha b hb) sorted

theorem insertionSort_congr {l l' : List β}
    (hp : l.Perm l') (hne : ∀ a ∈ l, ∀ b ∈ l, cmp a b = .eq → a = b) :
    l.insertionSort r = l'.insertionSort r := by
  have h := insertionSort_append_perm cmp hr hp hne []
  rwa [List.append_nil, List.append_nil] at h

theorem insertionSort_eq_of_perm {l l' : List β}
    (hp : l.Perm l') (hne : ∀ a ∈ l, ∀ b ∈ l, cmp a b = .eq → a = b) (hl' : l'.Pairwise r) :
    l.insertionSort r = l' :=
  (insertionSort_congr cmp hr hp hne).trans hl'.insertionSort_eq

end Compared

theorem insertionSort_inj {cmp : β → β → Ordering} [TransCmp cmp] [LawfulEqCmp cmp]
    (hr : ∀ a b, r a b ↔ (cmp a b).isLE = true) {l l' : List β} :
    l.insertionSort r = l'.insertionSort r ↔ l.Perm l' := by
  constructor
  · intro h
    have hl := List.perm_insertionSort r l
    rw [h] at hl
    exact hl.symm.trans (List.perm_insertionSort r l')
  · intro h
    exact insertionSort_congr cmp hr h fun _ _ _ _ => LawfulEqCmp.eq_of_compare

end Sorting
