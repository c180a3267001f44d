import Mathlib.Data.Finset.Card
import Mathlib.Data.List.Induction
import Mathlib.Logic.Function.Iterate
import Mathlib.Logic.Relation

/-!
# Lib.UnionFind

Union-find on a list of parents: `find` walks up and halves the path behind it, `union` hangs one
root under the other. Nothing is ranked, so a tree may be as deep as it has nodes; that depth is the
fuel of `find`. After a list of unions two nodes have one root exactly when the pairs connect them
(`root_unionAll_iff`). Which node of a class is its root follows from the order of the pairs alone
(`root_unionAll`), also in any part that no pair leaves (`reps_filter`).
-/

namespace UnionFind

open List

open Relation

def parentOf (p : List Nat) (i : Nat) : Nat := p[i]?.getD i

def find : Nat → List Nat → Nat → List Nat × Nat
  | 0, p, node => (p, node)
  | fuel + 1, p, node =>
    if parentOf p node = node then (p, node)
    else
      let halved := p.set node (parentOf p (parentOf p node))
      find fuel halved (parentOf halved node)

def union (p : List Nat) (a b : Nat) : List Nat :=
  let (p, ra) := find p.length p a
  let (p, rb) := find p.length p b
  if ra ≠ rb then p.set ra rb else p

def unionAll (p : List Nat) (pairs : List (Nat × Nat)) : List Nat :=
  pairs.foldl (fun p pair => union p pair.1 pair.2) p

def root (p : List Nat) (i : Nat) : Nat := (parentOf p)^[p.length] i

/-- Parents are in the list, and `h` falls along them. -/
structure Forest (p : List Nat) (h : Nat → Nat) : Prop where
  inRange : ∀ i < p.length, parentOf p i < p.length
  falls : ∀ i, parentOf p i ≠ i → h (parentOf p i) < h i

section Root

variable {p : List Nat} {h : Nat → Nat} {i : Nat}

theorem parentOf_set (p : List Nat) (i x j : Nat) :
    parentOf (p.set i x) j = if i = j ∧ i < p.length then x else parentOf p j := by
  unfold parentOf
  rw [getElem?_set]
  by_cases hij : i = j
  · subst hij
    by_cases hi : i < p.length
    · simp [hi]
    · simp [hi]
  · simp [hij]

theorem parentOf_of_length_le (hi : p.length ≤ i) : parentOf p i = i := by
  simp [parentOf, hi]

theorem lt_length_of_ne (hi : parentOf p i ≠ i) : i < p.length := by
  by_contra hle
  exact hi (parentOf_of_length_le (by omega))

theorem root_of_parentOf_eq (hi : parentOf p i = i) : root p i = i :=
  Function.iterate_fixed hi _

variable (hp : Forest p h)
include hp

theorem Forest.compress : ∃ h', Forest p h' ∧ ∀ i, h' i ≤ p.length := by
  refine ⟨fun i => ((Finset.range p.length).filter fun j => h j < h i).card, ⟨hp.inRange, ?_⟩, ?_⟩
  · intro i hi
    have hlt := hp.falls i hi
    refine Finset.card_lt_card ((Finset.ssubset_iff_of_subset ?_).mpr ⟨parentOf p i, ?_, ?_⟩)
    · intro j hj
      rw [Finset.mem_filter] at hj ⊢
      exact ⟨hj.1, hj.2.trans hlt⟩
    · rw [Finset.mem_filter, Finset.mem_range]
      exact ⟨hp.inRange i (lt_length_of_ne hi), hlt⟩
    · simp
  · intro i
    exact (Finset.card_filter_le _ _).trans (by simp)

theorem Forest.eq_of_height_zero (hi : h i = 0) : parentOf p i = i := by
  by_contra hne
  have := hp.falls i hne
  omega

theorem Forest.grandparent_lt (hi : parentOf p i ≠ i) :
    h (parentOf p (parentOf p i)) < h i := by
  have hfall := hp.falls i hi
  by_cases hpar : parentOf p (parentOf p i) = parentOf p i
  · rw [hpar]
    exact hfall
  · exact (hp.falls _ hpar).trans hfall

theorem Forest.iterate {k : Nat} (hk : h i ≤ k) :
    parentOf p ((parentOf p)^[k] i) = (parentOf p)^[k] i := by
  induction k generalizing i with
  | zero => exact hp.eq_of_height_zero (Nat.le_zero.mp hk)
  | succ k ih =>
    by_cases hi : parentOf p i = i
    · rw [Function.iterate_fixed hi, hi]
    · have := hp.falls i hi
      exact ih (i := parentOf p i) (by omega)

theorem Forest.parentOf_root (i : Nat) : parentOf p (root p i) = root p i := by
  obtain ⟨h', hp', hbound⟩ := hp.compress
  exact hp'.iterate (hbound i)

theorem Forest.root_parentOf (i : Nat) : root p (parentOf p i) = root p i := by
  rw [root, ← Function.iterate_succ_apply, Function.iterate_succ_apply']
  exact hp.parentOf_root i

/-- The root is the one map that fixes the roots and does not tell a node from its parent. -/
theorem Forest.root_eq {g : Nat → Nat} (hroot : ∀ i, parentOf p i = i → g i = i)
    (hparent : ∀ i, g (parentOf p i) = g i) (i : Nat) : root p i = g i := by
  have hwalk : ∀ k, g ((parentOf p)^[k] i) = g i := by
    intro k
    induction k with
    | zero => rfl
    | succ k ih => rw [Function.iterate_succ_apply', hparent, ih]
  exact (hroot _ (hp.parentOf_root i)).symm.trans (hwalk _)

theorem Forest.root_lt (hi : i < p.length) : root p i < p.length :=
  Set.MapsTo.iterate (s := Set.Iio p.length) (fun j hj => hp.inRange j hj) p.length hi

theorem Forest.halve (i : Nat) :
    Forest (p.set i (parentOf p (parentOf p i))) h ∧
      ∀ j, root (p.set i (parentOf p (parentOf p i))) j = root p j := by
  have hfix : parentOf p (parentOf p i) = i → parentOf p i = i := by
    intro hgrand
    by_contra hne
    have hlt := hp.grandparent_lt hne
    rw [hgrand] at hlt
    exact hlt.false
  have hforest : Forest (p.set i (parentOf p (parentOf p i))) h := by
    constructor
    · intro j hj
      rw [length_set] at hj ⊢
      rw [parentOf_set]
      split
      · exact hp.inRange _ (hp.inRange i (by omega))
      · exact hp.inRange j hj
    · intro j hj
      rw [parentOf_set] at hj ⊢
      split at hj
      · rename_i hij
        obtain ⟨rfl, hlen⟩ := hij
        rw [if_pos ⟨rfl, hlen⟩]
        refine hp.grandparent_lt ?_
        intro hi
        exact hj (by rw [hi, hi])
      · rename_i hij
        rw [if_neg hij]
        exact hp.falls j hj
  refine ⟨hforest, hforest.root_eq ?_ ?_⟩
  · intro j hj
    rw [parentOf_set] at hj
    split at hj
    · rename_i hij
      obtain ⟨rfl, -⟩ := hij
      exact root_of_parentOf_eq (hfix hj)
    · exact root_of_parentOf_eq hj
  · intro j
    rw [parentOf_set]
    split
    · rename_i hij
      obtain ⟨rfl, -⟩ := hij
      rw [hp.root_parentOf, hp.root_parentOf]
    · exact hp.root_parentOf j

/-- What a walk up does: it comes to the root and changes no root. -/
structure Found (p : List Nat) (h : Nat → Nat) (node : Nat) (out : List Nat × Nat) : Prop where
  length : out.1.length = p.length
  forest : Forest out.1 h
  roots : ∀ j, root out.1 j = root p j
  found : out.2 = root p node

theorem Forest.find {fuel node : Nat} (hfuel : h node ≤ fuel) :
    Found p h node (find fuel p node) := by
  induction fuel generalizing p node with
  | zero =>
    have hnode := hp.eq_of_height_zero (Nat.le_zero.mp hfuel)
    exact ⟨rfl, hp, fun _ => rfl, (root_of_parentOf_eq hnode).symm⟩
  | succ fuel ih =>
    rw [UnionFind.find]
    split
    · rename_i hnode
      exact ⟨rfl, hp, fun _ => rfl, (root_of_parentOf_eq hnode).symm⟩
    · rename_i hnode
      obtain ⟨hforest, hroots⟩ := hp.halve node
      have hnext : h (parentOf (p.set node (parentOf p (parentOf p node))) node) < h node := by
        rw [parentOf_set, if_pos ⟨rfl, lt_length_of_ne hnode⟩]
        exact hp.grandparent_lt hnode
      have hout := ih hforest (Nat.le_of_lt_succ (hnext.trans_le hfuel))
      refine ⟨hout.length.trans (length_set ..), hout.forest,
        fun j => (hout.roots j).trans (hroots j), hout.found.trans ?_⟩
      rw [hforest.root_parentOf, hroots]

theorem Forest.find_length (node : Nat) :
    ∃ h', Found p h' node (UnionFind.find p.length p node) := by
  obtain ⟨h', hp', hbound⟩ := hp.compress
  exact ⟨h', hp'.find (hbound node)⟩

theorem Forest.link {a b : Nat} (ha : parentOf p a = a) (hb : parentOf p b = b)
    (hab : a ≠ b) (halen : a < p.length) (hblen : b < p.length) :
    (∃ h', Forest (p.set a b) h') ∧
      ∀ j, root (p.set a b) j = if root p j = a then b else root p j := by
  have hra : root p a = a := root_of_parentOf_eq ha
  have hrb : root p b = b := root_of_parentOf_eq hb
  have hforest : Forest (p.set a b) fun j => if root p j = a then h j + h b + 1 else h j := by
    constructor
    · intro j hj
      rw [length_set] at hj ⊢
      rw [parentOf_set]
      split
      · exact hblen
      · exact hp.inRange j hj
    · intro j hj
      rw [parentOf_set] at hj ⊢
      split at hj
      · rename_i haj
        obtain ⟨rfl, -⟩ := haj
        simp only [and_self, halen, if_true, hra, hrb, if_neg hab.symm]
        omega
      · rename_i haj
        have hfall := hp.falls j hj
        simp only [if_neg haj, hp.root_parentOf]
        split <;> omega
  refine ⟨⟨_, hforest⟩, hforest.root_eq ?_ ?_⟩
  · intro j hj
    rw [parentOf_set] at hj
    split at hj
    · rename_i haj
      exact absurd (haj.1.trans hj.symm) hab
    · rename_i haj
      rw [root_of_parentOf_eq hj]
      exact if_neg fun hja => haj ⟨hja.symm, halen⟩
  · intro j
    rw [parentOf_set]
    split
    · rename_i haj
      obtain ⟨rfl, -⟩ := haj
      rw [hra, hrb, if_pos rfl, if_neg hab.symm]
    · rw [hp.root_parentOf]

theorem Forest.union {a b : Nat} (ha : a < p.length) (hb : b < p.length) :
    (∃ h', Forest (union p a b) h') ∧ (UnionFind.union p a b).length = p.length ∧
      ∀ j, root (UnionFind.union p a b) j = if root p j = root p a then root p b else root p j := by
  obtain ⟨h₁, hfa⟩ := hp.find_length a
  obtain ⟨h₂, hfb⟩ := hfa.forest.find_length b
  simp only [UnionFind.union]
  obtain ⟨⟨p₁, ra⟩, hpa⟩ : ∃ out, UnionFind.find p.length p a = out := ⟨_, rfl⟩
  rw [hpa] at hfa hfb ⊢
  obtain ⟨⟨p₂, rb⟩, hpb⟩ : ∃ out, UnionFind.find p₁.length p₁ b = out := ⟨_, rfl⟩
  simp only [hpb] at hfb ⊢
  have hlen : p₂.length = p.length := hfb.length.trans hfa.length
  have hroots : ∀ j, root p₂ j = root p j := fun j => (hfb.roots j).trans (hfa.roots j)
  obtain rfl : ra = root p a := hfa.found
  obtain rfl : rb = root p b := hfb.found.trans (hfa.roots b)
  have hroot : ∀ j, parentOf p₂ (root p j) = root p j := by
    intro j
    rw [← hroots]
    exact hfb.forest.parentOf_root j
  by_cases hab : root p a = root p b
  · rw [if_neg (not_not.mpr hab)]
    refine ⟨⟨_, hfb.forest⟩, hlen, fun j => ?_⟩
    rw [hroots, ← hab]
    split
    · assumption
    · rfl
  · rw [if_pos hab]
    obtain ⟨hforest, hlinked⟩ := hfb.forest.link (hroot a) (hroot b) hab
      (hlen ▸ hp.root_lt ha) (hlen ▸ hp.root_lt hb)
    refine ⟨hforest, (length_set ..).trans hlen, fun j => ?_⟩
    rw [hlinked, hroots]

theorem Forest.foldl_find {β σ : Type} (key : β → Nat) (f : σ → Nat → β → σ)
    (xs : List β) (s : σ) :
    (xs.foldl (fun (state : List Nat × σ) x =>
        ((UnionFind.find state.1.length state.1 (key x)).1,
          f state.2 (UnionFind.find state.1.length state.1 (key x)).2 x)) (p, s)).2 =
      xs.foldl (fun s x => f s (root p (key x)) x) s := by
  induction xs generalizing p h s with
  | nil => rfl
  | cons x xs ih =>
    obtain ⟨h', hout⟩ := hp.find_length (key x)
    rw [foldl_cons, foldl_cons, ih hout.forest, hout.found]
    simp only [hout.roots]

end Root

theorem forest_range (n : Nat) : Forest (List.range n) id ∧ ∀ i, root (List.range n) i = i := by
  have hself : ∀ i, parentOf (List.range n) i = i := by
    intro i
    by_cases hi : i < n
    · simp [parentOf, hi]
    · exact parentOf_of_length_le (by simpa using hi)
  refine ⟨⟨?_, ?_⟩, fun i => root_of_parentOf_eq (hself i)⟩
  · intro i hi
    rwa [hself]
  · intro i hi
    exact absurd (hself i) hi

section Representatives

variable {α β : Type} [DecidableEq α] [DecidableEq β]

/-- Who stands for each element after a pair is joined: the class of the first takes the
representative of the second. -/
def join (rep : α → α) (pair : α × α) (x : α) : α :=
  if rep x = rep pair.1 then rep pair.2 else rep x

/-- Who stands for each element after the pairs are joined one after another. -/
def reps (pairs : List (α × α)) : α → α := pairs.foldl join id

theorem Forest.unionAll {p : List Nat} {h : Nat → Nat} (hp : Forest p h) {pairs : List (Nat × Nat)}
    (hin : ∀ pair ∈ pairs, pair.1 < p.length ∧ pair.2 < p.length) :
    (∃ h', Forest (unionAll p pairs) h') ∧
      root (UnionFind.unionAll p pairs) = pairs.foldl join (root p) := by
  induction pairs generalizing p h with
  | nil => exact ⟨⟨h, hp⟩, rfl⟩
  | cons pair pairs ih =>
    obtain ⟨hpair, hin⟩ := forall_mem_cons.mp hin
    obtain ⟨⟨h', hp'⟩, hlen, hroots⟩ := hp.union hpair.1 hpair.2
    have hjoin : root (UnionFind.union p pair.1 pair.2) = join (root p) pair := funext hroots
    rw [foldl_cons, ← hjoin]
    exact ih hp' (by rwa [hlen])

theorem root_unionAll {n : Nat} {pairs : List (Nat × Nat)}
    (hin : ∀ pair ∈ pairs, pair.1 < n ∧ pair.2 < n) :
    root (unionAll (List.range n) pairs) = reps pairs := by
  obtain ⟨hforest, hself⟩ := forest_range n
  rw [(hforest.unionAll (by rwa [length_range])).2, funext hself]
  rfl

theorem reps_append_singleton (pairs : List (α × α)) (pair : α × α) :
    reps (pairs ++ [pair]) = join (reps pairs) pair := by
  rw [reps, foldl_append]
  rfl

theorem reps_eq_of_mem {pairs : List (α × α)} {a b : α} (h : (a, b) ∈ pairs) :
    reps pairs a = reps pairs b := by
  induction pairs using List.reverseRecOn with
  | nil => cases h
  | append_singleton pairs pair ih =>
    rw [reps_append_singleton, join, join]
    cases mem_append.mp h with
    | inl h => rw [ih h]
    | inr h =>
      cases mem_singleton.mp h
      rw [if_pos rfl, ite_self]

/-- Two elements have one representative exactly when the pairs connect them. -/
theorem reps_eq_iff {pairs : List (α × α)} {x y : α} :
    reps pairs x = reps pairs y ↔ EqvGen (fun a b => (a, b) ∈ pairs) x y := by
  constructor
  · intro h
    induction pairs using List.reverseRecOn generalizing x y with
    | nil => exact (show x = y from h) ▸ .refl x
    | append_singleton pairs pair ih =>
      have hold : ∀ {u v}, reps pairs u = reps pairs v →
          EqvGen (fun a b => (a, b) ∈ pairs ++ [pair]) u v := fun huv =>
        EqvGen.eqvGen_mono (fun _ _ hab => mem_append_left _ hab) _ _ (ih huv)
      have hnew : EqvGen (fun a b => (a, b) ∈ pairs ++ [pair]) pair.1 pair.2 := .rel _ _ (by simp)
      rw [reps_append_singleton, join, join] at h
      split at h <;> split at h <;> rename_i hx hy
      · exact hold (hx.trans hy.symm)
      · exact .trans _ _ _ (hold hx) (.trans _ _ _ hnew (hold h))
      · exact .trans _ _ _ (hold h) (.trans _ _ _ (.symm _ _ hnew) (.symm _ _ (hold hy)))
      · exact hold h
  · intro h
    induction h with
    | rel a b hab => exact reps_eq_of_mem hab
    | refl a => rfl
    | symm a b _ ih => exact ih.symm
    | trans a b c _ _ ihab ihbc => exact ihab.trans ihbc

theorem root_unionAll_iff {n : Nat} {pairs : List (Nat × Nat)}
    (hin : ∀ pair ∈ pairs, pair.1 < n ∧ pair.2 < n) (i j : Nat) :
    root (unionAll (List.range n) pairs) i = root (unionAll (List.range n) pairs) j ↔
      EqvGen (fun a b => (a, b) ∈ pairs) i j := by
  rw [root_unionAll hin, reps_eq_iff]

/-- Representatives can be taken before or after a renaming that keeps the elements of `s`
apart. -/
theorem reps_map {f : α → β} {s : Set α} (hf : Set.InjOn f s) {pairs : List (α × α)}
    (hin : ∀ pair ∈ pairs, pair.1 ∈ s ∧ pair.2 ∈ s) {x : α} (hx : x ∈ s) :
    reps (pairs.map (Prod.map f f)) (f x) = f (reps pairs x) ∧ reps pairs x ∈ s := by
  induction pairs using List.reverseRecOn generalizing x with
  | nil => exact ⟨rfl, hx⟩
  | append_singleton pairs pair ih =>
    have hrep : ∀ {y}, y ∈ s → reps (pairs.map (Prod.map f f)) (f y) = f (reps pairs y) ∧
        reps pairs y ∈ s := ih fun q hq => hin q (mem_append_left _ hq)
    obtain ⟨ha, hb⟩ := hin pair (by simp)
    have heq : f (reps pairs x) = f (reps pairs pair.1) ↔ reps pairs x = reps pairs pair.1 :=
      hf.eq_iff (hrep hx).2 (hrep ha).2
    rw [map_append, map_singleton, reps_append_singleton, reps_append_singleton]
    simp only [join, Prod.map_fst, Prod.map_snd, (hrep hx).1, (hrep ha).1, (hrep hb).1, heq]
    split
    · exact ⟨rfl, (hrep hb).2⟩
    · exact ⟨rfl, (hrep hx).2⟩

section Parts

variable {p : α → Prop} {pairs : List (α × α)}

theorem join_mem_iff {rep : α → α} {pair : α × α} (hpart : ∀ x, p (rep x) ↔ p x)
    (hpair : p pair.1 ↔ p pair.2) (x : α) : p (join rep pair x) ↔ p x := by
  unfold join
  split
  · rename_i heq
    rw [hpart, ← hpair, ← hpart pair.1, ← heq, hpart]
  · exact hpart x

theorem reps_mem_iff (hclosed : ∀ pair ∈ pairs, (p pair.1 ↔ p pair.2)) (x : α) :
    p (reps pairs x) ↔ p x := by
  induction pairs using List.reverseRecOn generalizing x with
  | nil => exact Iff.rfl
  | append_singleton pairs pair ih =>
    rw [reps_append_singleton]
    exact join_mem_iff (ih fun q hq => hclosed q (mem_append_left _ hq))
      (hclosed pair (by simp)) x

theorem reps_filter [DecidablePred p] (hclosed : ∀ pair ∈ pairs, (p pair.1 ↔ p pair.2)) {x : α}
    (hx : p x) : reps (pairs.filter fun pair => p pair.1) x = reps pairs x := by
  induction pairs using List.reverseRecOn generalizing x with
  | nil => rfl
  | append_singleton pairs pair ih =>
    have hrest : ∀ q ∈ pairs, (p q.1 ↔ p q.2) := fun q hq => hclosed q (mem_append_left _ hq)
    have hpair := hclosed pair (by simp)
    rw [filter_append, reps_append_singleton, join]
    by_cases hin : p pair.1
    · rw [filter_cons_of_pos (by simpa using hin), filter_nil, reps_append_singleton,
        join, ih hrest hx, ih hrest hin, ih hrest (hpair.mp hin)]
    · rw [filter_cons_of_neg (by simpa using hin), filter_nil, append_nil,
        ih hrest hx, if_neg]
      -- the representative of `x` is in the part, that of the pair is not
      intro heq
      exact hin ((reps_mem_iff hrest _).mp (heq ▸ (reps_mem_iff hrest x).mpr hx))

end Parts

end Representatives

end UnionFind
