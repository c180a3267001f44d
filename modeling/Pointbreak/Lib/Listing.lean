import Mathlib.Data.List.Perm.Basic
import Pointbreak.Lib.Rename

/-!
# Lib.Listing

Lists made out of ordered maps. A list assembled key by key does not depend on keys that contribute
nothing, so two maps with different empty entries can make the same list (`flatMap_toList_eq`).
-/

open Std

variable {α β γ κ : Type}

namespace BTreeMap

variable [Ord κ] [TransOrd κ] [LawfulEqOrd κ]

theorem toList_eq_filterMap {m : BTreeMap κ α} {keys : List κ}
    (hord : keys.Pairwise fun a b => compare a b = .lt) (hkeys : ∀ k ∈ m, k ∈ keys) :
    m.toList = keys.filterMap fun k => m[k]?.map fun v => (k, v) := by
  refine eq_of_ordered Prod.fst m.ordered_keys_toList ?_ ?_
  · refine List.pairwise_filterMap.mpr (hord.imp ?_)
    intro k k' hlt x hx y hy
    obtain ⟨v, -, rfl⟩ := Option.map_eq_some_iff.mp hx
    obtain ⟨w, -, rfl⟩ := Option.map_eq_some_iff.mp hy
    exact hlt
  · rintro ⟨k, v⟩
    rw [mem_toList_iff, List.mem_filterMap]
    constructor
    · intro hv
      exact ⟨k, hkeys k (mem_iff.mpr ⟨v, hv⟩), by rw [hv]; rfl⟩
    · rintro ⟨k', -, hk'⟩
      obtain ⟨w, hw, heq⟩ := Option.map_eq_some_iff.mp hk'
      cases heq
      exact hw

theorem flatMap_toList {m : BTreeMap κ (List α)} {g : κ → List α → List γ} (hg : ∀ k, g k [] = [])
    {keys : List κ} (hord : keys.Pairwise fun a b => compare a b = .lt)
    (hkeys : ∀ k ∈ m, k ∈ keys) :
    (m.toList.flatMap fun x => g x.1 x.2) = keys.flatMap fun k => g k (m[k]?.getD []) := by
  rw [toList_eq_filterMap hord hkeys, List.filterMap_eq_flatMap_toList, List.flatMap_assoc]
  refine congrArg (fun f => keys.flatMap f) (funext fun k => ?_)
  cases m[k]? with
  | none => simp [hg]
  | some v => simp

theorem exists_keys (m : BTreeMap κ α) (m' : BTreeMap κ β) :
    ∃ keys : List κ, keys.Pairwise (fun a b => compare a b = .lt) ∧
      (∀ k ∈ m, k ∈ keys) ∧ ∀ k ∈ m', k ∈ keys := by
  refine ⟨(BTreeSet.collect (m.keys ++ m'.keys)).toList, ExtTreeSet.ordered_toList, ?_, ?_⟩ <;>
    intro k hk <;> rw [BTreeSet.mem_toList_iff, BTreeSet.mem_collect, List.mem_append,
      ExtTreeMap.mem_keys, ExtTreeMap.mem_keys]
  · exact .inl hk
  · exact .inr hk

variable {m : BTreeMap κ (List α)} {m' : BTreeMap κ (List β)} (g : κ → List α → List γ)
  (g' : κ → List β → List γ)

theorem flatMap_toList_eq (hg : ∀ k, g k [] = []) (hg' : ∀ k, g' k [] = [])
    (h : ∀ k, g k (m[k]?.getD []) = g' k (m'[k]?.getD [])) :
    (m.toList.flatMap fun x => g x.1 x.2) = m'.toList.flatMap fun x => g' x.1 x.2 := by
  obtain ⟨keys, hord, hm, hm'⟩ := exists_keys m m'
  rw [flatMap_toList hg hord hm, flatMap_toList hg' hord hm']
  exact congrArg (fun f => keys.flatMap f) (funext h)

theorem flatMap_toList_perm (hg : ∀ k, g k [] = []) (hg' : ∀ k, g' k [] = [])
    (h : ∀ k, (g k (m[k]?.getD [])).Perm (g' k (m'[k]?.getD []))) :
    (m.toList.flatMap fun x => g x.1 x.2).Perm (m'.toList.flatMap fun x => g' x.1 x.2) := by
  obtain ⟨keys, hord, hm, hm'⟩ := exists_keys m m'
  rw [flatMap_toList hg hord hm, flatMap_toList hg' hord hm']
  exact List.Perm.flatMap_left keys fun k _ => h k

end BTreeMap
