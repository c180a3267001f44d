import Pointbreak.Lib.KeyedLog

/-!
# Lib.Rename

Ordered containers seen through a renaming of their elements. A map with renamed keys has the old
entries under the new keys (`Renames`); when the renaming keeps the order, the entries also come in
the old order (`Renames.toList_filter`).
-/

open Std

variable {α β κ κ' : Type}

theorem eq_of_ordered [Ord κ] [TransOrd κ] (key : α → κ) {l l' : List α}
    (h : l.Pairwise fun a b => compare (key a) (key b) = .lt)
    (h' : l'.Pairwise fun a b => compare (key a) (key b) = .lt)
    (hmem : ∀ a, a ∈ l ↔ a ∈ l') : l = l' := by
  have hirrefl : Std.Irrefl fun a b : α => compare (key a) (key b) = .lt :=
    ⟨fun a => by rw [ReflOrd.compare_self]; exact Ordering.noConfusion⟩
  have hantisymm : Std.Antisymm fun a b : α => compare (key a) (key b) = .lt := by
    refine ⟨fun a b hab hba => ?_⟩
    rw [OrientedOrd.eq_swap, hba] at hab
    cases hab
  exact h.eq_of_mem_iff h' hmem

/-- A renaming that keeps the order of the names. -/
def KeepsOrder [Ord κ] [Ord κ'] (f : κ → κ') : Prop :=
  ∀ a b, compare (f a) (f b) = compare a b

theorem KeepsOrder.injective [Ord κ] [LawfulEqOrd κ] [Ord κ'] [ReflOrd κ'] {f : κ → κ'}
    (hf : KeepsOrder f) : Function.Injective f := by
  intro a b hab
  have hc := hf a b
  rw [hab, ReflOrd.compare_self] at hc
  exact LawfulEqOrd.eq_of_compare hc.symm

namespace BTreeSet

variable [Ord α] [TransOrd α] [LawfulEqOrd α] [Ord β] [TransOrd β] [LawfulEqOrd β]

def image (f : α → β) (s : BTreeSet α) : BTreeSet β := collect (s.toList.map f)

variable {f : α → β} {s : BTreeSet α}

@[simp] theorem mem_image {b : β} : b ∈ image f s ↔ ∃ a ∈ s, f a = b := by
  simp [image]

theorem image_empty : image f ∅ = ∅ := by
  apply ExtTreeSet.ext_mem
  intro b
  simp

theorem image_insert {a : α} : image f (s.insert a) = (image f s).insert (f a) := by
  apply ExtTreeSet.ext_mem
  intro b
  rw [mem_insert_iff, mem_image, mem_image]
  constructor
  · rintro ⟨x, hx, hb⟩
    cases mem_insert_iff.mp hx with
    | inl hx => exact .inl (by rw [← hb, hx])
    | inr hx => exact .inr ⟨x, hx, hb⟩
  · intro h
    obtain rfl | ⟨x, hx, hb⟩ := h
    · exact ⟨a, mem_insert_iff.mpr (.inl rfl), rfl⟩
    · exact ⟨x, mem_insert_iff.mpr (.inr hx), hb⟩

theorem toList_image (hf : KeepsOrder f) : (image f s).toList = s.toList.map f := by
  refine eq_of_ordered (fun b => b) (image f s).ordered_toList ?_ ?_
  · refine List.pairwise_map.mpr (s.ordered_toList.imp ?_)
    intro a b hab
    exact (hf a b).trans hab
  · intro b
    simp

theorem size_image (hf : KeepsOrder f) : (image f s).size = s.size := by
  rw [← ExtTreeSet.length_toList, toList_image hf, List.length_map, ExtTreeSet.length_toList]

end BTreeSet

namespace BTreeMap

variable [Ord κ] [TransOrd κ] [LawfulEqOrd κ] [Ord κ'] [TransOrd κ'] [LawfulEqOrd κ']

/-- The second map has the entries of the first under the new names of their keys. -/
def Renames (f : κ → κ') (g : α → β) (m : BTreeMap κ α) (m' : BTreeMap κ' β) : Prop :=
  ∀ k, m'[f k]? = m[k]?.map g

namespace Renames

variable {f : κ → κ'} {g : α → β} {m : BTreeMap κ α} {m' : BTreeMap κ' β}

omit [LawfulEqOrd κ] [LawfulEqOrd κ'] in
theorem empty : Renames f g ∅ ∅ := by
  intro k
  simp

theorem insert (hf : Function.Injective f) (h : Renames f g m m') (k : κ) (v : α) :
    Renames f g (m.insert k v) (m'.insert (f k) (g v)) := by
  classical
  intro j
  rw [get_insert, get_insert, h j]
  simp [hf.eq_iff, apply_ite (Option.map g)]

theorem insertLeast {τ τ' : Type} {cmp : τ → τ → Ordering} {cmp' : τ' → τ' → Ordering}
    {stamp : α → τ} {stamp' : β → τ'} (hf : Function.Injective f) (h : Renames f g m m') (k : κ)
    (v : α) (hg : ∀ w, m[k]? = some w →
      cmp' (stamp' (g v)) (stamp' (g w)) = cmp (stamp v) (stamp w)) :
    Renames f g (KeyedLog.insertLeast cmp stamp m k v)
      (KeyedLog.insertLeast cmp' stamp' m' (f k) (g v)) := by
  have hcond : m'[f k]?.all (fun w => cmp' (stamp' (g v)) (stamp' w) = .lt) =
      m[k]?.all fun w => cmp (stamp v) (stamp w) = .lt := by
    rw [h k]
    cases hk : m[k]? with
    | none => rfl
    | some w => simp [hg w hk]
  unfold KeyedLog.insertLeast
  rw [hcond]
  split
  · exact h.insert hf k v
  · exact h

omit [LawfulEqOrd κ] [LawfulEqOrd κ'] in
theorem of_agree {m'' : BTreeMap κ' β} (h : Renames f g m m')
    (hagree : ∀ k, m''[f k]? = m'[f k]?) : Renames f g m m'' := by
  intro k
  rw [hagree, h k]

theorem toList_filter (hf : KeepsOrder f) (h : Renames f g m m') (named : κ' → Bool)
    (hnamed : ∀ k', named k' = true ↔ ∃ k, f k = k') :
    m'.toList.filter (fun x => named x.1) = m.toList.map fun x => (f x.1, g x.2) := by
  refine eq_of_ordered Prod.fst (m'.ordered_keys_toList.sublist List.filter_sublist) ?_ ?_
  · refine List.pairwise_map.mpr (m.ordered_keys_toList.imp ?_)
    intro x y hxy
    exact (hf x.1 y.1).trans hxy
  · rintro ⟨k', w⟩
    simp only [List.mem_filter, hnamed, mem_toList_iff, List.mem_map, Prod.exists, Prod.mk.injEq]
    constructor
    · rintro ⟨hw, k, rfl⟩
      rw [h k, Option.map_eq_some_iff] at hw
      obtain ⟨v, hv, hgv⟩ := hw
      exact ⟨k, v, hv, rfl, hgv⟩
    · rintro ⟨k, v, hv, rfl, rfl⟩
      exact ⟨by rw [h k, hv]; rfl, k, rfl⟩

theorem toList_eq (hf : KeepsOrder f) (hs : Function.Surjective f) (h : Renames f g m m') :
    m'.toList = m.toList.map fun x => (f x.1, g x.2) := by
  rw [← h.toList_filter hf (fun _ => true) fun k' => by simp [hs k']]
  simp

theorem vals_eq (hf : KeepsOrder f) (hs : Function.Surjective f) (h : Renames f g m m') :
    m'.vals = m.vals.map g := by
  rw [vals, h.toList_eq hf hs, List.map_map, vals, List.map_map]
  rfl

theorem size_eq (hf : KeepsOrder f) (hs : Function.Surjective f) (h : Renames f g m m') :
    m'.size = m.size := by
  rw [← ExtTreeMap.length_toList, h.toList_eq hf hs, List.length_map, ExtTreeMap.length_toList]

end Renames

variable [Ord α] [TransOrd α] [LawfulEqOrd α] [Ord β] [TransOrd β] [LawfulEqOrd β]

theorem Renames.addTo {f : κ → κ'} {r : α → β} {m : BTreeMap κ (BTreeSet α)}
    {m' : BTreeMap κ' (BTreeSet β)} (hf : Function.Injective f)
    (h : Renames f (BTreeSet.image r) m m') (k : κ) (a : α) :
    Renames f (BTreeSet.image r) (m.addTo k a) (m'.addTo (f k) (r a)) := by
  classical
  intro j
  rw [get_addTo, get_addTo, h j]
  by_cases hj : k = j
  · rw [if_pos hj, if_pos (congrArg f hj), Option.map_some, BTreeSet.image_insert, setAt, setAt,
      h j]
    cases m[j]? <;> simp [BTreeSet.image_empty]
  · rw [if_neg hj, if_neg fun e => hj (hf e)]

end BTreeMap
