import Mathlib.Data.Finset.Card
import Mathlib.Data.List.Sort

/-!
# Lib.BTree

Ordered sets and maps with extensional equality, and their membership lemmas stated with `=`
rather than with the key comparison. Two containers with the same members are equal, so an
equality proved about them is an equality of the values a program observes.
-/

open Std

theorem filter_eq_singleton {α : Type} {l : List α} (hn : l.Nodup) {p : α → Bool} {x : α} :
    l.filter p = [x] ↔ x ∈ l ∧ p x = true ∧ ∀ y ∈ l, p y = true → y = x := by
  rw [← List.perm_singleton, List.perm_ext_iff_of_nodup (hn.filter p) (List.nodup_singleton x)]
  simp only [List.mem_filter, List.mem_singleton]
  constructor
  · intro h
    exact ⟨((h x).mpr rfl).1, ((h x).mpr rfl).2, fun y hy hp => (h y).mp ⟨hy, hp⟩⟩
  · rintro ⟨hx, hp, hall⟩ y
    refine ⟨fun hy => hall y hy.1 hy.2, ?_⟩
    rintro rfl
    exact ⟨hx, hp⟩

/-- Rust's `BTreeSet`. -/
abbrev BTreeSet (α : Type) [Ord α] : Type := ExtTreeSet α

/-- Rust's `BTreeMap`. -/
abbrev BTreeMap (κ α : Type) [Ord κ] : Type := ExtTreeMap κ α

namespace BTreeSet

open ExtTreeSet

variable {α β : Type} [Ord α] [TransOrd α] [LawfulEqOrd α] {a : α}

@[simp high] theorem mem_insert_iff {s : BTreeSet α} {b : α} : a ∈ s.insert b ↔ a = b ∨ a ∈ s := by
  rw [mem_insert, LawfulEqOrd.compare_eq_iff_eq]
  exact or_congr_left eq_comm

@[simp high] theorem mem_erase_iff {s : BTreeSet α} {b : α} : a ∈ s.erase b ↔ a ≠ b ∧ a ∈ s := by
  rw [mem_erase, ne_eq, ne_eq, LawfulEqOrd.compare_eq_iff_eq]
  exact and_congr_left' (not_congr eq_comm)

variable {s t : BTreeSet α}

theorem erase_insert (h : a ∉ s) : (s.insert a).erase a = s := by
  apply ext_mem
  intro b
  rw [mem_erase_iff, mem_insert_iff]
  constructor
  · rintro ⟨hne, rfl | hb⟩
    · exact absurd rfl hne
    · exact hb
  · intro hb
    exact ⟨fun e => h (e ▸ hb), .inr hb⟩

theorem insert_comm (s : BTreeSet α) (a b : α) : (s.insert a).insert b = (s.insert b).insert a := by
  apply ext_mem
  intro c
  simp only [mem_insert_iff]
  exact or_left_comm

def collect (l : List α) : BTreeSet α := ExtTreeSet.ofList l

@[simp] theorem mem_collect {l : List α} : a ∈ collect l ↔ a ∈ l := by
  classical
  rw [collect, mem_ofList, List.contains_iff_mem]

theorem mem_insertMany_iff {l : List α} : a ∈ s.insertMany l ↔ a ∈ s ∨ a ∈ l := by
  classical
  rw [mem_insertMany_list, List.contains_iff_mem]

@[simp] theorem mem_toList_iff : a ∈ s.toList ↔ a ∈ s :=
  mem_toList

@[simp] theorem mem_filter_iff {p : α → Bool} :
    a ∈ s.filter p ↔ a ∈ s ∧ p a = true := by
  rw [← mem_toList_iff, toList_filter, List.mem_filter, mem_toList_iff]

theorem nodup_toList : s.toList.Nodup := by
  refine s.distinct_toList.imp ?_
  intro a b h e
  exact h (LawfulEqOrd.compare_eq_iff_eq.mpr e)

theorem subperm_of_subset (h : ∀ a ∈ s, a ∈ t) :
    s.toList.Subperm t.toList := by
  refine List.subperm_of_subset nodup_toList ?_
  intro a ha
  exact mem_toList_iff.mpr (h a (mem_toList_iff.mp ha))

theorem size_le_of_subset (h : ∀ a ∈ s, a ∈ t) : s.size ≤ t.size := by
  rw [← length_toList, ← length_toList]
  exact (subperm_of_subset h).length_le

theorem size_eq_iff_of_subset (h : ∀ a ∈ s, a ∈ t) :
    s.size = t.size ↔ ∀ a ∈ t, a ∈ s := by
  constructor
  · intro hsize a ha
    have hperm := (subperm_of_subset h).perm_of_length_le (by
      rw [length_toList, length_toList, hsize])
    exact mem_toList_iff.mp (hperm.mem_iff.mpr (mem_toList_iff.mpr ha))
  · intro hback
    exact Nat.le_antisymm (size_le_of_subset h) (size_le_of_subset hback)

theorem one_lt_size_iff : 1 < s.size ↔ ∃ a ∈ s, ∃ b ∈ s, a ≠ b := by
  classical
  rw [← length_toList, ← List.toFinset_card_of_nodup nodup_toList, Finset.one_lt_card]
  simp

theorem size_eq_one_iff : s.size = 1 ∧ a ∈ s ↔ ∀ b, b ∈ s ↔ b = a := by
  rw [← length_toList, List.length_eq_one_iff]
  simp only [← mem_toList_iff]
  constructor
  · rintro ⟨⟨c, hc⟩, ha⟩ b
    rw [hc, List.mem_singleton] at ha
    rw [hc, List.mem_singleton, ha]
  · intro h
    have hperm : s.toList.Perm [a] := by
      rw [List.perm_ext_iff_of_nodup nodup_toList (List.nodup_singleton a)]
      simpa only [List.mem_singleton] using h
    exact ⟨⟨a, List.perm_singleton.mp hperm⟩, (h a).mpr rfl⟩

end BTreeSet

namespace BTreeMap

variable {κ α : Type} [Ord κ] [TransOrd κ] [LawfulEqOrd κ] {v : α} {m : BTreeMap κ α} {k : κ}

theorem get_insert {a : κ} [DecidableEq κ] :
    (m.insert k v)[a]? = if k = a then some v else m[a]? := by
  rw [ExtTreeMap.getElem?_insert]
  simp

theorem get_alter {a : κ} {f : Option α → Option α} [DecidableEq κ] :
    (m.alter k f)[a]? = if k = a then f m[k]? else m[a]? := by
  rw [ExtTreeMap.getElem?_alter]
  simp

theorem get_erase {a : κ} [DecidableEq κ] : (m.erase k)[a]? = if k = a then none else m[a]? := by
  rw [ExtTreeMap.getElem?_erase]
  simp only [Std.compare_eq_iff_eq]

theorem mem_toList_iff :
    (k, v) ∈ m.toList ↔ m[k]? = some v := ExtTreeMap.mem_toList_iff_getElem?_eq_some

omit [LawfulEqOrd κ] in
theorem nodup_fst (m : BTreeMap κ α) : (m.toList.map Prod.fst).Nodup := by
  rw [ExtTreeMap.map_fst_toList_eq_keys]
  exact ExtTreeMap.nodup_keys

/-- The values in key order. -/
def vals (m : BTreeMap κ α) : List α := m.toList.map Prod.snd

theorem mem_vals_iff : v ∈ m.vals ↔ ∃ k : κ, m[k]? = some v := by
  rw [vals, List.mem_map]
  constructor
  · rintro ⟨⟨k, w⟩, h, rfl⟩
    exact ⟨k, mem_toList_iff.mp h⟩
  · rintro ⟨k, h⟩
    exact ⟨(k, v), mem_toList_iff.mpr h, rfl⟩

omit [LawfulEqOrd κ] in
theorem mem_iff : k ∈ m ↔ ∃ v, m[k]? = some v := by
  rw [ExtTreeMap.mem_iff_isSome_getElem?, Option.isSome_iff_exists]

variable {p : α → Bool}

theorem filter_vals_eq_singleton : m.vals.filter p = [v] ↔ ∃ k : κ, m[k]? = some v ∧ p v = true ∧
      ∀ (k' : κ) v', m[k']? = some v' → p v' = true → k' = k := by
  have hnodup : m.toList.Nodup := .of_map Prod.fst (nodup_fst m)
  rw [vals, List.filter_map, List.map_eq_singleton_iff]
  simp only [filter_eq_singleton hnodup, Function.comp_apply]
  constructor
  · rintro ⟨⟨k, w⟩, ⟨hm, hp, hall⟩, hw⟩
    subst hw
    refine ⟨k, mem_toList_iff.mp hm, hp, ?_⟩
    intro k' v' hk' hp'
    exact congrArg Prod.fst (hall (k', v') (mem_toList_iff.mpr hk') hp')
  · rintro ⟨k, hk, hp, hall⟩
    refine ⟨(k, v), ⟨mem_toList_iff.mpr hk, hp, ?_⟩, rfl⟩
    rintro ⟨k', v'⟩ hm hp'
    have hkk := hall k' v' (mem_toList_iff.mp hm) hp'
    subst hkk
    rw [mem_toList_iff, hk] at hm
    cases hm
    rfl

theorem mem_keys_iff : k ∈ m.keys ↔ ∃ v, m[k]? = some v := by
  rw [ExtTreeMap.mem_keys, mem_iff]

def collect (l : List (κ × α)) : BTreeMap κ α := ExtTreeMap.ofList l

theorem get_collect {l : List (κ × α)} (hn : (l.map Prod.fst).Nodup) :
    (collect l)[k]? = some v ↔ (k, v) ∈ l := by
  have hdistinct : l.Pairwise fun a b => ¬ compare a.1 b.1 = .eq := by
    refine (List.pairwise_map.mp hn).imp ?_
    intro a b hab he
    exact hab (LawfulEqOrd.compare_eq_iff_eq.mp he)
  have hmem : ∀ w, (k, w) ∈ l → (collect l)[k]? = some w := fun w hw =>
    ExtTreeMap.getElem?_ofList_of_mem ReflOrd.compare_self hdistinct hw
  constructor
  · intro hv
    classical
    have hk : k ∈ collect l := mem_iff.mpr ⟨v, hv⟩
    rw [collect, ExtTreeMap.mem_ofList, List.contains_iff_mem, List.mem_map] at hk
    obtain ⟨⟨_, w⟩, hw, rfl⟩ := hk
    rw [hmem w hw] at hv
    cases hv
    exact hw
  · exact hmem v

section Sets

variable [Ord α] [TransOrd α] [LawfulEqOrd α]

/-- The set under a key, empty when the key is absent. -/
def setAt (m : BTreeMap κ (BTreeSet α)) (k : κ) : BTreeSet α := m[k]?.getD ∅

def addTo (m : BTreeMap κ (BTreeSet α)) (k : κ) (a : α) : BTreeMap κ (BTreeSet α) :=
  m.alter k fun s => some ((s.getD ∅).insert a)

variable {m : BTreeMap κ (BTreeSet α)} {a : α}

omit [LawfulEqOrd κ] [LawfulEqOrd α] in
theorem mem_setAt_iff : a ∈ m.setAt k ↔ ∃ s, m[k]? = some s ∧ a ∈ s := by
  rw [setAt]
  cases m[k]? <;> simp

omit [LawfulEqOrd κ] [TransOrd α] [LawfulEqOrd α] in
theorem get_eq_of_setAt {m m' : BTreeMap κ (BTreeSet α)} (hkey : k ∈ m ↔ k ∈ m')
    (hset : m.setAt k = m'.setAt k) : m[k]? = m'[k]? := by
  rw [setAt, setAt] at hset
  rw [mem_iff, mem_iff] at hkey
  cases hm : m[k]? with
  | none =>
    cases hm' : m'[k]? with
    | none => rfl
    | some s =>
      obtain ⟨v, hv⟩ := hkey.mpr ⟨s, hm'⟩
      rw [hm] at hv
      cases hv
  | some s =>
    obtain ⟨s', hs'⟩ := hkey.mp ⟨s, hm⟩
    rw [hm, hs'] at hset
    rw [hs']
    exact congrArg some hset

omit [TransOrd α] [LawfulEqOrd α] in
theorem ext_setAt {m m' : BTreeMap κ (BTreeSet α)} (hkeys : ∀ k, k ∈ m ↔ k ∈ m')
    (hsets : ∀ k, m.setAt k = m'.setAt k) : m = m' :=
  ExtTreeMap.ext_getElem? fun k => get_eq_of_setAt (hkeys k) (hsets k)

variable [DecidableEq κ] {j : κ}

omit [LawfulEqOrd α] in
theorem get_addTo : (m.addTo k a)[j]? = if k = j then some ((m.setAt j).insert a) else m[j]? := by
  rw [addTo, get_alter]
  split
  · rename_i hk
    rw [hk]
    rfl
  · rfl

theorem mem_setAt_addTo {b : α} :
    b ∈ (m.addTo k a).setAt j ↔ (k, a) = (j, b) ∨ b ∈ m.setAt j := by
  rw [setAt, get_addTo]
  split
  · rename_i hk
    simp [hk, eq_comm]
  · rename_i hk
    simp [hk, setAt]

omit [LawfulEqOrd α] [DecidableEq κ] in
theorem mem_addTo : j ∈ m.addTo k a ↔ k = j ∨ j ∈ m := by
  rw [addTo, ExtTreeMap.mem_alter]
  split
  · rename_i hk
    simp [LawfulEqOrd.compare_eq_iff_eq.mp hk]
  · rename_i hk
    have hne : k ≠ j := fun he => hk (LawfulEqOrd.compare_eq_iff_eq.mpr he)
    simp [hne]

theorem addTo_comm (m : BTreeMap κ (BTreeSet α)) (k k' : κ) (a a' : α) :
    (m.addTo k a).addTo k' a' = (m.addTo k' a').addTo k a := by
  apply ExtTreeMap.ext_getElem?
  intro j
  simp only [get_addTo, setAt]
  by_cases hk : k = j <;> by_cases hk' : k' = j <;>
    simp [hk, hk', BTreeSet.insert_comm _ a a']

variable {l : List (κ × α)}

theorem mem_setAt_foldl_addTo {b : α} :
    b ∈ (l.foldl (fun m x => m.addTo x.1 x.2) m).setAt j ↔ (j, b) ∈ l ∨ b ∈ m.setAt j := by
  induction l generalizing m with
  | nil => simp
  | cons x l ih =>
    rw [List.foldl_cons, ih, mem_setAt_addTo, List.mem_cons, eq_comm (a := (j, b)), or_assoc,
      or_left_comm]

omit [LawfulEqOrd α] [DecidableEq κ] in
theorem mem_foldl_addTo :
    j ∈ l.foldl (fun m x => m.addTo x.1 x.2) m ↔ (∃ b, (j, b) ∈ l) ∨ j ∈ m := by
  induction l generalizing m with
  | nil => simp
  | cons x l ih =>
    have hx : (∃ b, (j, b) = x) ↔ x.1 = j := by
      constructor
      · rintro ⟨b, rfl⟩
        rfl
      · rintro rfl
        exact ⟨x.2, rfl⟩
    rw [List.foldl_cons, ih, mem_addTo]
    simp [exists_or, hx, or_assoc, or_left_comm]

end Sets

end BTreeMap
