import Pointbreak.Lib.Sorted

/-!
# Lib.Tally

Totals kept one update at a time. A store that counts the keys with a property, or that lists the
least members of a set, need not look at the rest when one key changes (`card_of_agree`,
`take_toList_insert`).
-/

open Std

theorem card_of_agree {κ : Type} [DecidableEq κ] {s t : Finset κ} {k : κ}
    (h : ∀ j, j ≠ k → (j ∈ s ↔ j ∈ t)) :
    t.card + (if k ∈ s then 1 else 0) = s.card + (if k ∈ t then 1 else 0) := by
  have herase : s.erase k = t.erase k := by
    ext j
    simp only [Finset.mem_erase]
    exact and_congr_right (h j)
  have hcard : ∀ u : Finset κ, u.card = (u.erase k).card + if k ∈ u then 1 else 0 := by
    intro u
    by_cases hk : k ∈ u
    · rw [if_pos hk, Finset.card_erase_add_one hk]
    · rw [if_neg hk, Finset.erase_eq_of_notMem hk, Nat.add_zero]
  rw [hcard s, hcard t, herase]
  omega

namespace BTreeMap

open List

variable {κ α : Type} [Ord κ] [TransOrd κ] [LawfulEqOrd κ] [DecidableEq κ]

def matching (m : BTreeMap κ α) (p : κ → α → Bool) : Finset κ :=
  ((m.toList.filter fun x => p x.1 x.2).map Prod.fst).toFinset

variable {m : BTreeMap κ α} {p : κ → α → Bool} {k : κ}

theorem mem_matching : k ∈ m.matching p ↔ ∃ v, m[k]? = some v ∧ p k v = true := by
  rw [matching, mem_toFinset, mem_map]
  simp only [mem_filter]
  constructor
  · rintro ⟨⟨_, v⟩, ⟨hx, hp⟩, rfl⟩
    exact ⟨v, mem_toList_iff.mp hx, hp⟩
  · rintro ⟨v, hv, hp⟩
    exact ⟨(k, v), ⟨mem_toList_iff.mpr hv, hp⟩, rfl⟩

omit [LawfulEqOrd κ] in
theorem card_matching : (m.matching p).card = (m.toList.filter fun x => p x.1 x.2).length := by
  have hnodup : ((m.toList.filter fun x => p x.1 x.2).map Prod.fst).Nodup :=
    (filter_sublist.map _).nodup (nodup_fst m)
  rw [matching, toFinset_card_of_nodup hnodup, length_map]

omit [DecidableEq κ] in
theorem toList_of_size_one {v : α} (h : m.size = 1) (hk : m[k]? = some v) : m.toList = [(k, v)] := by
  rw [← ExtTreeMap.length_toList] at h
  obtain ⟨x, hx⟩ := length_eq_one_iff.mp h
  have hmem := mem_toList_iff.mpr hk
  rw [hx, mem_singleton] at hmem
  rw [hx, hmem]

end BTreeMap

theorem take_orderedInsert_take {α : Type} (r : α → α → Prop) [DecidableRel r] (a : α)
    (l : List α) (n : Nat) :
    ((l.take n).orderedInsert r a).take n = (l.orderedInsert r a).take n := by
  induction l generalizing n with
  | nil => simp
  | cons b l ih =>
    cases n with
    | zero => simp
    | succ n =>
      rw [List.take_succ_cons, List.orderedInsert_cons, List.orderedInsert_cons]
      by_cases hab : r a b
      · rw [if_pos hab, if_pos hab, List.take_succ_cons, List.take_succ_cons]
        cases n <;> simp [List.take_take]
      · rw [if_neg hab, if_neg hab, List.take_succ_cons, List.take_succ_cons, ih]

namespace BTreeSet

variable {α : Type} [Ord α] [TransOrd α] [LawfulEqOrd α] {s : BTreeSet α} {a : α}

def orderLE (a b : α) : Prop := (compare a b).isLE = true

instance : DecidableRel (orderLE (α := α)) := fun _ _ => inferInstanceAs (Decidable (_ = true))

theorem toList_collect {l : List α} (h : l.Pairwise fun a b => compare a b = .lt) :
    (collect l).toList = l :=
  eq_of_ordered id (collect l).ordered_toList h (by simp)

theorem toList_insert (h : a ∉ s) : (s.insert a).toList = s.toList.orderedInsert orderLE a := by
  have hle : ∀ t : BTreeSet α, t.toList.Pairwise orderLE := by
    intro t
    refine t.ordered_toList.imp ?_
    intro x y hxy
    rw [orderLE, hxy]
    rfl
  have hperm : (a :: s.toList).Perm (s.insert a).toList := by
    refine (List.perm_ext_iff_of_nodup ?_ nodup_toList).mpr ?_
    · rw [List.nodup_cons, mem_toList_iff]
      exact ⟨h, nodup_toList⟩
    · intro b
      rw [List.mem_cons, mem_toList_iff, mem_toList_iff, mem_insert_iff]
  have hsort : (a :: s.toList).insertionSort orderLE = (s.insert a).toList :=
    insertionSort_eq_of_perm compare (fun _ _ => Iff.rfl) hperm
      (fun _ _ _ _ => LawfulEqOrd.eq_of_compare) (hle _)
  rw [← hsort, List.insertionSort_cons, (hle s).insertionSort_eq]

theorem head_toList_insert {b : α} (h : a ∉ s) (hb : s.toList.head? = some b) :
    (s.insert a).toList.head? = some (if compare a b = .lt then a else b) := by
  obtain ⟨l, hl⟩ := List.head?_eq_some_iff.mp hb
  have hne : compare a b ≠ .eq := by
    intro he
    rw [LawfulEqOrd.eq_of_compare he, ← mem_toList_iff, hl] at h
    exact h (.head _)
  rw [toList_insert h, hl, List.orderedInsert_cons]
  by_cases hlt : compare a b = .lt
  · rw [if_pos (by rw [orderLE, hlt]; rfl), if_pos hlt]
    rfl
  · have hgt : ¬ orderLE a b := by
      rw [orderLE, Ordering.isLE_iff_eq_lt_or_eq_eq]
      exact not_or.mpr ⟨hlt, hne⟩
    rw [if_neg hgt, if_neg hlt]
    rfl

theorem take_toList_insert (h : a ∉ s) (n : Nat) :
    (collect (s.toList.take n ++ [a])).toList.take n = (s.insert a).toList.take n := by
  have hordered := s.ordered_toList.sublist (List.take_sublist n s.toList)
  have hsplit : collect (s.toList.take n ++ [a]) = (collect (s.toList.take n)).insert a := by
    apply ExtTreeSet.ext_mem
    intro b
    simp [or_comm]
  have hnot : a ∉ collect (s.toList.take n) := by
    rw [mem_collect]
    intro ha
    exact h (mem_toList_iff.mp (List.mem_of_mem_take ha))
  rw [hsplit, toList_insert hnot, toList_collect hordered, take_orderedInsert_take,
    ← toList_insert h]

end BTreeSet

namespace KeyedLog

variable {κ α τ : Type} [Ord κ] [TransOrd κ] [LawfulEqOrd κ] {cmp : τ → τ → Ordering}
  [TransCmp cmp] {stamp : α → τ} {m : BTreeMap κ α} {k : κ} {v : α}

omit [LawfulEqOrd κ] [TransCmp cmp] in
theorem size_insertLeast :
    (insertLeast cmp stamp m k v).size = if k ∈ m then m.size else m.size + 1 := by
  rw [insertLeast]
  split
  · exact ExtTreeMap.size_insert
  · rename_i h
    rw [if_pos]
    by_contra hk
    rw [ExtTreeMap.getElem?_eq_none hk] at h
    exact h rfl

theorem least_comm [LawfulEqCmp cmp] {x y : τ × α} (hne : x.1 ≠ y.1) (o : Option (τ × α)) :
    least cmp (some (least cmp o x)) y = least cmp (some (least cmp o y)) x := by
  have hswap : ∀ a b : τ, cmp a b = .lt → cmp b a ≠ .lt := by
    intro a b hab hba
    have hflip : cmp a b = (cmp b a).swap := OrientedCmp.eq_swap
    rw [hab, hba] at hflip
    cases hflip
  have hxy : cmp x.1 y.1 = .lt ∨ cmp y.1 x.1 = .lt := by
    rw [← OrientedCmp.gt_iff_lt (a := x.1)]
    cases h : cmp x.1 y.1 with
    | lt => exact .inl rfl
    | gt => exact .inr rfl
    | eq => exact absurd (LawfulEqCmp.eq_of_compare h) hne
  cases o with
  | none =>
    obtain h | h := hxy <;> simp [least, h, hswap _ _ h]
  | some w =>
    by_cases hx : cmp x.1 w.1 = .lt <;> by_cases hy : cmp y.1 w.1 = .lt
    · obtain h | h := hxy <;> simp [least, hx, hy, h, hswap _ _ h]
    · have hyx : cmp y.1 x.1 ≠ .lt := fun h => hy (TransCmp.lt_trans h hx)
      simp [least, hx, hy, hyx]
    · have hxy' : cmp x.1 y.1 ≠ .lt := fun h => hx (TransCmp.lt_trans h hy)
      simp [least, hx, hy, hxy']
    · simp [least, hx, hy]

theorem insertLeast_comm [DecidableEq κ] [LawfulEqCmp cmp] {k' : κ} {v' : α}
    (hne : stamp v ≠ stamp v') :
    insertLeast cmp stamp (insertLeast cmp stamp m k v) k' v' =
      insertLeast cmp stamp (insertLeast cmp stamp m k' v') k v := by
  apply ExtTreeMap.ext_getElem?
  intro a
  have hinj : Function.Injective fun w : α => (stamp w, w) := fun _ _ h => congrArg Prod.snd h
  apply Option.map_injective hinj
  simp only [get_insertLeast]
  by_cases hk : k = a <;> by_cases hk' : k' = a <;> simp only [hk, hk', if_true, if_false]
  exact congrArg some (least_comm hne _)

end KeyedLog
