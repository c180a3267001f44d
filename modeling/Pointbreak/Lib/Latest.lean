import Mathlib.Data.List.Induction
import Pointbreak.Lib.BTree

/-!
# Lib.Latest

The last of the greatest elements of a list, under any preorder given by a comparison: what
`Iterator::max_by` returns.
-/

open Std

variable {α : Type} {cmp : α → α → Ordering}

/-- Keep the greater; the later of two that compare equal. -/
def maxBy (cmp : α → α → Ordering) (l : List α) : Option α :=
  l.foldl (fun greatest a =>
    some (greatest.elim a fun b => if cmp b a = .gt then b else a)) none

theorem maxBy_append_singleton (l : List α) (a : α) :
    maxBy cmp (l ++ [a]) =
      some ((maxBy cmp l).elim a fun b => if cmp b a = .gt then b else a) := by
  rw [maxBy, List.foldl_append, List.foldl_cons, List.foldl_nil, ← maxBy]

variable {l : List α}

theorem maxBy_eq_none : maxBy cmp l = none ↔ l = [] := by
  induction l using List.reverseRecOn with
  | nil => simp [maxBy]
  | append_singleton l a _ => simp [maxBy_append_singleton]

theorem maxBy_spec [TransCmp cmp] {m : α} (h : maxBy cmp l = some m) :
    m ∈ l ∧ ∀ a ∈ l, cmp a m ≠ .gt := by
  induction l using List.reverseRecOn generalizing m with
  | nil => cases h
  | append_singleton l a ih =>
    rw [maxBy_append_singleton, Option.some.injEq] at h
    cases hl : maxBy cmp l with
    | none =>
      rw [hl, Option.elim_none] at h
      subst h
      rw [maxBy_eq_none] at hl
      subst hl
      simp [ReflCmp.compare_self]
    | some b =>
      obtain ⟨hb, hmax⟩ := ih hl
      rw [hl, Option.elim_some] at h
      split at h
      · rename_i hgt
        subst h
        refine ⟨List.mem_append_left _ hb, fun x hx => ?_⟩
        obtain hx | hx := List.mem_append.mp hx
        · exact hmax x hx
        · rw [List.mem_singleton.mp hx, OrientedCmp.gt_iff_lt.mp hgt]
          decide
      · rename_i hle
        subst h
        refine ⟨by simp, fun x hx => ?_⟩
        obtain hx | hx := List.mem_append.mp hx
        · have hxb : (cmp x b).isLE = true := Ordering.isLE_iff_ne_gt.mpr (hmax x hx)
          have hba : (cmp b a).isLE = true := Ordering.isLE_iff_ne_gt.mpr hle
          exact Ordering.isLE_iff_ne_gt.mp (TransCmp.isLE_trans hxb hba)
        · rw [List.mem_singleton.mp hx, @ReflCmp.compare_self _ cmp _ a]
          decide

theorem maxBy_isSome [TransCmp cmp] {a : α} (h : a ∈ l) : ∃ m, maxBy cmp l = some m := by
  cases hl : maxBy cmp l with
  | none => simp [maxBy_eq_none.mp hl] at h
  | some m => exact ⟨m, rfl⟩

theorem maxBy_eq_some_iff [TransCmp cmp] [LawfulEqCmp cmp] {m : α} (hm : m ∈ l) :
    maxBy cmp l = some m ↔ ∀ a ∈ l, cmp a m ≠ .gt := by
  constructor
  · exact fun h => (maxBy_spec h).2
  · intro h
    obtain ⟨m', hm'⟩ := @maxBy_isSome _ cmp _ _ _ hm
    obtain ⟨hmem, hmax⟩ := maxBy_spec hm'
    have heq : cmp m' m = .eq := OrientedCmp.isLE_antisymm
      (Ordering.isLE_iff_ne_gt.mpr (h m' hmem)) (Ordering.isLE_iff_ne_gt.mpr (hmax m hm))
    rw [hm', LawfulEqCmp.eq_of_compare heq]
