import Pointbreak.Lib.Rename

/-!
# Lib.Currency

Records that name the ids they replace. Each id is stood for by its record with the least stamp, and
is current when no standing record names it. This can be read group by group, or over the whole log;
`agree_iff` says when the two readings come to the same.
-/

open Std KeyedLog

variable {ρ γ κ τ : Type}

namespace KeyedLog

open List

theorem leastOf_filter {α : Type} {cmp : τ → τ → Ordering} [TransCmp cmp] {l : List (τ × α)}
    {v : τ × α} {p : τ × α → Bool} (h : leastOf cmp l = some v) (hv : p v = true) :
    leastOf cmp (l.filter p) = some v := by
  induction l using List.reverseRecOn generalizing v with
  | nil => cases h
  | append_singleton l w ih =>
    rw [leastOf_append_singleton, Option.some.injEq] at h
    rw [filter_append]
    cases hl : leastOf cmp l with
    | none =>
      rw [leastOf_eq_none] at hl
      subst hl
      rw [leastOf, foldl_nil, least] at h
      subst h
      simp [hv, leastOf, least]
    | some u =>
      rw [hl, least] at h
      split at h
      · rename_i hlt
        subst h
        rw [filter_cons_of_pos hv, filter_nil, leastOf_append_singleton]
        cases hf : leastOf cmp (l.filter p) with
        | none => rfl
        | some x =>
          -- what the filter keeps of the earlier values is above the new one
          have hx := (leastOf_spec hl).2 x (mem_of_mem_filter (leastOf_spec hf).1)
          rw [least, if_pos (TransCmp.lt_of_lt_of_isLE hlt hx)]
      · rename_i hlt
        subst h
        have hkept := ih hl hv
        cases hw : p w with
        | false => simp [hw, hkept]
        | true =>
          rw [filter_cons_of_pos hw, filter_nil, leastOf_append_singleton, hkept, least,
            if_neg hlt]

end KeyedLog

namespace Currency

/-- How a record is read. -/
structure Reading (ρ γ κ τ : Type) where
  group : ρ → γ
  id : ρ → κ
  stamp : ρ → τ
  names : ρ → List κ

section Readings

variable [DecidableEq γ] [DecidableEq κ] (cmp : τ → τ → Ordering) (view : Reading ρ γ κ τ)
  (log : List ρ)

def first (a : κ) : Option (τ × ρ) :=
  leastOf cmp (entries (fun x => some (view.id x, (view.stamp x, x))) a log)

def firstIn (g : γ) (a : κ) : Option (τ × ρ) :=
  first cmp view (log.filter fun x => view.group x = g) a

/-- One of the standing records names the id. -/
def Named (standing : κ → Option (τ × ρ)) (a : κ) : Prop :=
  ∃ b x, standing b = some x ∧ a ∈ view.names x.2

def CurrentIn (g : γ) (a : κ) : Prop :=
  (∃ x, firstIn cmp view log g a = some x) ∧ ¬ Named view (firstIn cmp view log g) a

def CurrentFrom (g : γ) (a : κ) : Prop :=
  (∃ x, first cmp view log a = some x ∧ view.group x.2 = g) ∧ ¬ Named view (first cmp view log) a

/-- An id in its own group is named there exactly when it is named anywhere, and in every other
group that carries it, it is named there. -/
structure Settled : Prop where
  own : ∀ ⦃a x⦄, first cmp view log a = some x →
    (Named view (firstIn cmp view log (view.group x.2)) a ↔ Named view (first cmp view log) a)
  other : ∀ ⦃g a x y⦄, firstIn cmp view log g a = some x → first cmp view log a = some y →
    view.group y.2 ≠ g → Named view (firstIn cmp view log g) a

variable {cmp view log} [TransCmp cmp] {x : τ × ρ}

omit [DecidableEq γ] in
theorem first_spec {a : κ} (h : first cmp view log a = some x) :
    x.2 ∈ log ∧ view.id x.2 = a ∧ x.1 = view.stamp x.2 := by
  obtain ⟨y, hy, heq⟩ := mem_entries.mp (leastOf_spec h).1
  simp only [Option.some.injEq, Prod.mk.injEq] at heq
  obtain ⟨hid, hx⟩ := heq
  subst hx
  exact ⟨hy, hid, rfl⟩

theorem firstIn_spec {g : γ} {a : κ} (h : firstIn cmp view log g a = some x) :
    x.2 ∈ log ∧ view.group x.2 = g ∧ view.id x.2 = a ∧ x.1 = view.stamp x.2 := by
  obtain ⟨hmem, hid, hstamp⟩ := first_spec h
  rw [List.mem_filter, decide_eq_true_eq] at hmem
  exact ⟨hmem.1, hmem.2, hid, hstamp⟩

omit [DecidableEq γ] [TransCmp cmp] in
theorem first_isSome {x : ρ} (h : x ∈ log) : ∃ y, first cmp view log (view.id x) = some y := by
  cases hf : first cmp view log (view.id x) with
  | some y => exact ⟨y, rfl⟩
  | none =>
    have hmem : (view.stamp x, x) ∈
        entries (fun x => some (view.id x, (view.stamp x, x))) (view.id x) log :=
      mem_entries.mpr ⟨x, h, rfl⟩
    rw [first, leastOf_eq_none] at hf
    rw [hf] at hmem
    cases hmem

theorem firstIn_of_first {a : κ} (h : first cmp view log a = some x) :
    firstIn cmp view log (view.group x.2) a = some x := by
  have hfilter : entries (fun x => some (view.id x, (view.stamp x, x))) a
      (log.filter fun y => view.group y = view.group x.2) =
      (entries (fun x => some (view.id x, (view.stamp x, x))) a log).filter
        fun y => view.group y.2 = view.group x.2 := by
    refine (filter_entries ?_ log).symm
    rintro e kv hkv
    cases hkv
    rfl
  rw [firstIn, first, hfilter]
  exact leastOf_filter h (decide_eq_true rfl)

theorem agree_iff :
    (∀ g a, CurrentIn cmp view log g a ↔ CurrentFrom cmp view log g a) ↔
      Settled cmp view log := by
  constructor
  · intro h
    constructor
    · intro a x hx
      have hown := h (view.group x.2) a
      have hin : ∃ y, firstIn cmp view log (view.group x.2) a = some y := ⟨x, firstIn_of_first hx⟩
      have hfrom : ∃ y, first cmp view log a = some y ∧ view.group y.2 = view.group x.2 :=
        ⟨x, hx, rfl⟩
      rw [CurrentIn, CurrentFrom, and_iff_right hin, and_iff_right hfrom] at hown
      exact not_iff_not.mp hown
    · intro g a x y hx hy hne
      by_contra hnamed
      obtain ⟨⟨z, hz, hg⟩, -⟩ := (h g a).mp ⟨⟨x, hx⟩, hnamed⟩
      rw [hy, Option.some.injEq] at hz
      subst hz
      exact hne hg
  · intro h g a
    constructor
    · rintro ⟨⟨x, hx⟩, hnamed⟩
      obtain ⟨hmem, -, hid, -⟩ := firstIn_spec hx
      obtain ⟨y, hy⟩ : ∃ y, first cmp view log (view.id x.2) = some y := first_isSome hmem
      rw [hid] at hy
      have hg : view.group y.2 = g := by
        by_contra hne
        exact hnamed (h.other hx hy hne)
      subst hg
      exact ⟨⟨y, hy, rfl⟩, fun hn => hnamed ((h.own hy).mpr hn)⟩
    · rintro ⟨⟨x, hx, rfl⟩, hnamed⟩
      exact ⟨⟨x, firstIn_of_first hx⟩, fun hn => hnamed ((h.own hx).mp hn)⟩

theorem settled_of_local (hgroup : ∀ x ∈ log, ∀ y ∈ log, view.id x = view.id y →
      view.group x = view.group y)
    (hnames : ∀ x ∈ log, ∀ y ∈ log, view.id y ∈ view.names x → view.group x = view.group y) :
    Settled cmp view log := by
  constructor
  · intro a x hx
    obtain ⟨hxmem, hid, -⟩ := first_spec hx
    constructor
    · rintro ⟨b, z, hz, hin⟩
      obtain ⟨hzmem, hzg, hzid, -⟩ := firstIn_spec hz
      obtain ⟨u, hu⟩ : ∃ u, first cmp view log (view.id z.2) = some u := first_isSome hzmem
      obtain ⟨humem, huid, -⟩ := first_spec hu
      -- the record of `b` in the log is of the same group, so it is the one found there
      have hug : view.group u.2 = view.group x.2 := (hgroup _ humem _ hzmem huid).trans hzg
      have huz := firstIn_of_first hu
      rw [hug, hzid, hz, Option.some.injEq] at huz
      subst huz
      exact ⟨_, _, hu, hin⟩
    · rintro ⟨b, z, hz, hin⟩
      have hzg : view.group z.2 = view.group x.2 :=
        hnames _ (first_spec hz).1 _ hxmem (hid.symm ▸ hin)
      exact ⟨b, z, hzg ▸ firstIn_of_first hz, hin⟩
  · intro g a x y hx hy hne
    obtain ⟨hxmem, hxg, hxid, -⟩ := firstIn_spec hx
    obtain ⟨hymem, hyid, -⟩ := first_spec hy
    exact absurd ((hgroup _ hymem _ hxmem (hyid.trans hxid.symm)).trans hxg) hne

end Readings

section Listings

variable [DecidableEq γ] [Ord κ] [DecidableEq κ] (cmp : τ → τ → Ordering)
  (view : Reading ρ γ κ τ) (log : List ρ)

/-- The current records of each group, in the order of their ids, by either reading. -/
structure Listings (within whole : γ → List ρ) : Prop where
  mem_within : ∀ g x, x ∈ within g ↔
    firstIn cmp view log g (view.id x) = some (view.stamp x, x) ∧
      ¬ Named view (firstIn cmp view log g) (view.id x)
  mem_whole : ∀ g x, x ∈ whole g ↔
    (first cmp view log (view.id x) = some (view.stamp x, x) ∧
      ¬ Named view (first cmp view log) (view.id x)) ∧ view.group x = g
  within_ordered : ∀ g, (within g).Pairwise fun x y => compare (view.id x) (view.id y) = .lt
  whole_ordered : ∀ g, (whole g).Pairwise fun x y => compare (view.id x) (view.id y) = .lt

namespace Listings

variable {cmp view log} [TransCmp cmp] {within whole : γ → List ρ} {g : γ} {a : κ}
  (h : Listings cmp view log within whole)

include h

theorem currentIn_iff :
    CurrentIn cmp view log g a ↔ ∃ x ∈ within g, view.id x = a := by
  constructor
  · rintro ⟨⟨x, hx⟩, hnamed⟩
    obtain ⟨-, -, rfl, hstamp⟩ := firstIn_spec hx
    refine ⟨x.2, (h.mem_within g x.2).mpr ⟨?_, hnamed⟩, rfl⟩
    rw [hx, ← hstamp]
  · rintro ⟨x, hx, rfl⟩
    obtain ⟨hfirst, hnamed⟩ := (h.mem_within g x).mp hx
    exact ⟨⟨_, hfirst⟩, hnamed⟩

theorem currentFrom_iff :
    CurrentFrom cmp view log g a ↔ ∃ x ∈ whole g, view.id x = a := by
  constructor
  · rintro ⟨⟨x, hx, hg⟩, hnamed⟩
    obtain ⟨-, rfl, hstamp⟩ := first_spec hx
    refine ⟨x.2, (h.mem_whole g x.2).mpr ⟨⟨?_, hnamed⟩, hg⟩, rfl⟩
    rw [hx, ← hstamp]
  · rintro ⟨x, hx, rfl⟩
    obtain ⟨⟨hfirst, hnamed⟩, hg⟩ := (h.mem_whole g x).mp hx
    exact ⟨⟨_, hfirst, hg⟩, hnamed⟩

theorem eq_of_id {x y : ρ} (hx : x ∈ within g)
    (hy : y ∈ whole g) (hid : view.id x = view.id y) : x = y := by
  obtain ⟨⟨hfirst, -⟩, rfl⟩ := (h.mem_whole g y).mp hy
  have hin := firstIn_of_first hfirst
  rw [← hid, ((h.mem_within _ x).mp hx).1, Option.some.injEq, Prod.mk.injEq] at hin
  exact hin.2

theorem eq_of_settled [TransOrd κ]
    (hs : Settled cmp view log) : within g = whole g := by
  have hagree := agree_iff.mpr hs
  refine eq_of_ordered view.id (h.within_ordered g) (h.whole_ordered g) ?_
  intro x
  constructor
  · intro hx
    obtain ⟨y, hy, hid⟩ := h.currentFrom_iff.mp ((hagree g _).mp (h.currentIn_iff.mpr ⟨x, hx, rfl⟩))
    rw [h.eq_of_id hx hy hid.symm]
    exact hy
  · intro hx
    obtain ⟨y, hy, hid⟩ := h.currentIn_iff.mp ((hagree g _).mpr (h.currentFrom_iff.mpr ⟨x, hx, rfl⟩))
    rw [← h.eq_of_id hy hx hid]
    exact hy

end Listings

end Listings

end Currency
