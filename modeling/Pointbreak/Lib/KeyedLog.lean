import Mathlib.Data.List.Induction
import Pointbreak.Lib.BTree

/-!
# Lib.KeyedLog

Folding a log into keyed state. A *log* is a list of records; a *selector* reads the key and the
value of the records it is about. If one step changes only the value under the record's key, then
the value under `k` after the whole log is the fold of the records under `k` (`get_foldl`). The
collision rules are folds over `entries`: the last value wins, the first or the one with the least
stamp stays, or the values are collected, listed or counted.
-/

namespace KeyedLog

open List

open Std

variable {ε κ α β σ τ : Type}

section Entries

variable [DecidableEq κ]

/-- What the log says under key `k`, in log order. -/
def entries (sel : ε → Option (κ × α)) (k : κ) (log : List ε) : List α :=
  log.filterMap fun e => (sel e).bind fun kv => if kv.1 = k then some kv.2 else none

variable {sel : ε → Option (κ × α)} {k : κ}

@[simp] theorem entries_nil : entries sel k [] = [] := rfl

@[simp] theorem entries_append (log log' : List ε) :
    entries sel k (log ++ log') = entries sel k log ++ entries sel k log' := by
  simp [entries]

theorem entries_cons_none {e : ε} (h : sel e = none) (log : List ε) :
    entries sel k (e :: log) = entries sel k log := by
  simp [entries, h]

theorem entries_cons_some {e : ε} {k' : κ} {v : α} (h : sel e = some (k', v)) (log : List ε) :
    entries sel k (e :: log) =
      if k' = k then v :: entries sel k log else entries sel k log := by
  by_cases hk : k' = k <;> simp [entries, h, hk]

variable {log : List ε}

theorem said_eq_some {said : Option (κ × α)} {v : α} :
    (said.bind fun kv => if kv.1 = k then some kv.2 else none) = some v ↔ said = some (k, v) := by
  rw [Option.bind_eq_some_iff]
  constructor
  · rintro ⟨⟨k', v'⟩, hs, hv⟩
    obtain ⟨rfl, ⟨⟩⟩ := Option.ite_none_right_eq_some.mp hv
    exact hs
  · intro hs
    exact ⟨(k, v), hs, if_pos rfl⟩

theorem mem_entries {v : α} : v ∈ entries sel k log ↔ ∃ e ∈ log, sel e = some (k, v) := by
  simp only [entries, mem_filterMap, said_eq_some]

theorem entries_perm {log log' : List ε} (h : log.Perm log') :
    (entries sel k log).Perm (entries sel k log') :=
  h.filterMap _

theorem entries_eq_nil (h : ∀ e ∈ log, sel e = none) : entries sel k log = [] := by
  refine eq_nil_iff_forall_not_mem.mpr fun v hv => ?_
  obtain ⟨e, he, hs⟩ := mem_entries.mp hv
  rw [h e he] at hs
  cases hs

theorem entries_some (key : ε → κ) (log : List ε) :
    entries (fun e => some (key e, e)) k log = log.filter fun e => key e = k := by
  induction log with
  | nil => rfl
  | cons e log ih =>
    rw [filter_cons, ← ih]
    by_cases h : key e = k <;> simp [entries, h]

theorem entries_filterMap {δ : Type} (f : δ → Option ε) (log : List δ) :
    entries sel k (log.filterMap f) = entries (fun e => (f e).bind sel) k log := by
  simp [entries, filterMap_filterMap, Option.bind_assoc]

theorem entries_map {sel' : ε → Option (κ × β)} {g : α → β}
    (h : ∀ e ∈ log, sel' e = (sel e).map fun kv => (kv.1, g kv.2)) :
    entries sel' k log = (entries sel k log).map g := by
  rw [entries, entries, map_filterMap]
  refine filterMap_congr fun e he => ?_
  rw [h e he]
  cases sel e with
  | none => rfl
  | some kv =>
    simp only [Option.map_some, Option.bind_some]
    split <;> rfl

theorem filter_entries {p : α → Bool} {p' : ε → Bool} (h : ∀ e kv, sel e = some kv → p' e = p kv.2)
    (log : List ε) : (entries sel k log).filter p = entries sel k (log.filter p') := by
  rw [entries, entries, filter_filterMap, filterMap_filter]
  refine filterMap_congr fun e _ => ?_
  cases hs : sel e with
  | none => simp
  | some kv =>
    rw [h e kv hs, Option.bind_some]
    by_cases hk : kv.1 = k <;> simp [hk, Option.filter]

theorem entries_filter {p : ε → Bool} (h : ∀ e ∈ log, ∀ v, sel e = some (k, v) → p e = true) :
    entries sel k (log.filter p) = entries sel k log := by
  rw [entries, entries, filterMap_filter]
  refine filterMap_congr fun e he => ?_
  split
  · rfl
  · rename_i hp
    cases hs : sel e with
    | none => rfl
    | some kv =>
      rw [Option.bind_some, if_neg]
      rintro rfl
      exact hp (h e he kv.2 hs)

/-- The step rule: if every step changes only the value under the key of its record, then a key's
value after the log is the fold of the key's own records. -/
theorem get_foldl (get : σ → κ → Option β) (step : σ → ε → σ) (op : Option β → α → β)
    (hstep : ∀ s e k, get (step s e) k =
      match sel e with
      | none => get s k
      | some (k', v) => if k' = k then some (op (get s k) v) else get s k)
    (log : List ε) (s : σ) (k : κ) :
    get (log.foldl step s) k =
      (entries sel k log).foldl (fun old v => some (op old v)) (get s k) := by
  induction log generalizing s with
  | nil => rfl
  | cons e log ih =>
    rw [foldl_cons, ih, hstep]
    cases hs : sel e with
    | none => rw [entries_cons_none hs]
    | some kv =>
      obtain ⟨k', v⟩ := kv
      rw [entries_cons_some hs]
      by_cases hk : k' = k <;> simp [hk]

section Tables

variable [Ord κ] [TransOrd κ] [LawfulEqOrd κ] (table : σ → BTreeMap κ β) {step : σ → ε → σ}

theorem get_foldl_alter (op : Option β → α → β)
    (hstep : ∀ s e, table (step s e) = (sel e).elim (table s) fun kv =>
      (table s).alter kv.1 fun old => some (op old kv.2)) (log : List ε) (s : σ) (k : κ) :
    (table (log.foldl step s))[k]? =
      (entries sel k log).foldl (fun old v => some (op old v)) (table s)[k]? := by
  refine get_foldl (fun s k => (table s)[k]?) step op ?_ log s k
  intro s e k
  rw [hstep]
  cases sel e with
  | none => rfl
  | some kv =>
    rw [Option.elim_some, BTreeMap.get_alter]
    split
    · rename_i hk
      subst hk
      simp
    · rename_i hk
      simp [hk]

theorem get_foldl_put {sel : ε → Option (κ × β)} (hstep : ∀ s e, table (step s e) =
      (sel e).elim (table s) fun kv => (table s).insert kv.1 kv.2)
    (log : List ε) (s : σ) (k : κ) :
    (table (log.foldl step s))[k]? =
      (entries sel k log).foldl (fun _ v => some v) (table s)[k]? := by
  refine get_foldl (fun s k => (table s)[k]?) step (fun _ v => v) ?_ log s k
  intro s e k
  rw [hstep]
  cases sel e with
  | none => rfl
  | some kv => exact BTreeMap.get_insert

variable (sel) in
/-- When the records under a key commute, their order cannot be seen from the table. -/
theorem foldl_alter_perm (op : Option β → α → β)
    (hstep : ∀ s e, table (step s e) = (sel e).elim (table s) fun kv =>
      (table s).alter kv.1 fun old => some (op old kv.2)) {log log' : List ε}
    (hp : log.Perm log') (s : σ)
    (hcomm : ∀ k, ∀ v ∈ entries sel k log, ∀ w ∈ entries sel k log, ∀ old,
      op (some (op old v)) w = op (some (op old w)) v) :
    table (log.foldl step s) = table (log'.foldl step s) := by
  refine ExtTreeMap.ext_getElem? fun k => ?_
  rw [get_foldl_alter table op hstep, get_foldl_alter table op hstep]
  refine (entries_perm hp).foldl_eq' ?_ _
  intro v hv w hw old
  rw [hcomm k v hv w hw old]

end Tables

/-- No key is used for two values. -/
def Functional (sel : ε → Option (κ × α)) (log : List ε) : Prop :=
  ∀ k, ∀ v ∈ entries sel k log, ∀ w ∈ entries sel k log, v = w

theorem functional_iff :
    Functional sel log ↔ ∀ e ∈ log, ∀ kv ∈ sel e, ∀ e' ∈ log, ∀ kv' ∈ sel e',
      kv.1 = kv'.1 → kv.2 = kv'.2 := by
  constructor
  · intro h e he kv hkv e' he' kv' hkv' hk
    refine h kv.1 _ (mem_entries.mpr ⟨e, he, hkv⟩) _ (mem_entries.mpr ⟨e', he', ?_⟩)
    rw [hk]
    exact hkv'
  · intro h k v hv w hw
    obtain ⟨e, he, hv⟩ := mem_entries.mp hv
    obtain ⟨e', he', hw⟩ := mem_entries.mp hw
    exact h e he _ hv e' he' _ hw rfl

instance [DecidableEq α] (log : List ε) : Decidable (Functional sel log) :=
  decidable_of_iff _ functional_iff.symm

theorem Functional.subset {log log' : List ε} (h : Functional sel log) (hs : log' ⊆ log) :
    Functional sel log' := by
  rw [functional_iff] at h ⊢
  intro e he kv hkv e' he'
  exact h e (hs he) kv hkv e' (hs he')

theorem Functional.labelled {δ : Type} {g : δ → ε} {label : δ → β} {log : List δ}
    (h : Functional sel (log.map g)) {v w : α × β}
    (hv : v ∈ entries (fun e => (sel (g e)).map fun kv => (kv.1, kv.2, label e)) k log)
    (hw : w ∈ entries (fun e => (sel (g e)).map fun kv => (kv.1, kv.2, label e)) k log) :
    v.1 = w.1 := by
  have hmem : ∀ u ∈ entries (fun e => (sel (g e)).map fun kv => (kv.1, kv.2, label e)) k log,
      u.1 ∈ entries sel k (log.map g) := by
    intro u hu
    rw [mem_entries] at hu ⊢
    obtain ⟨e, he, hu⟩ := hu
    obtain ⟨⟨k', x⟩, hx, hu⟩ := Option.map_eq_some_iff.mp hu
    cases hu
    exact ⟨g e, mem_map_of_mem he, hx⟩
  exact h k _ (hmem v hv) _ (hmem w hw)

theorem Functional.getLast?_eq_some (h : Functional sel log) {v : α} :
    (entries sel k log).getLast? = some v ↔ v ∈ entries sel k log := by
  constructor
  · exact mem_of_getLast?
  · intro hv
    have hne := ne_nil_of_mem hv
    rw [getLast?_eq_some_getLast hne, h k _ (getLast_mem hne) v hv]

theorem Functional.head?_eq_some (h : Functional sel log) {v : α} :
    (entries sel k log).head? = some v ↔ v ∈ entries sel k log := by
  constructor
  · exact mem_of_head?
  · intro hv
    have hne := ne_nil_of_mem hv
    rw [head?_eq_some_head hne, h k _ (head_mem hne) v hv]

end Entries

/-- The step rule for a set: a step adds the record's own elements. -/
theorem foldl_adds (mem : σ → κ → Prop) (step : σ → ε → σ) (adds : ε → κ → Prop)
    (hstep : ∀ s e k, mem (step s e) k ↔ mem s k ∨ adds e k) (log : List ε) (s : σ) (k : κ) :
    mem (log.foldl step s) k ↔ mem s k ∨ ∃ e ∈ log, adds e k := by
  induction log generalizing s with
  | nil => simp
  | cons e log ih =>
    rw [foldl_cons, ih, hstep]
    simp [or_assoc]

theorem mem_foldl (mem : σ → κ → Prop) (step : σ → ε → σ) (sel : ε → Option κ)
    (hstep : ∀ s e k, mem (step s e) k ↔ mem s k ∨ sel e = some k)
    (log : List ε) (s : σ) (k : κ) :
    mem (log.foldl step s) k ↔ mem s k ∨ ∃ e ∈ log, sel e = some k :=
  foldl_adds mem step (fun e k => sel e = some k) hstep log s k

/-- The step rule for a list: a step appends at most the record's own element. -/
theorem list_foldl (list : σ → List α) (step : σ → ε → σ) (sel : ε → Option α)
    (hstep : ∀ s e, list (step s e) = list s ++ (sel e).toList)
    (log : List ε) (s : σ) :
    list (log.foldl step s) = list s ++ log.filterMap sel := by
  induction log generalizing s with
  | nil => simp
  | cons e log ih =>
    rw [foldl_cons, ih, hstep, append_assoc, filterMap_cons]
    cases sel e <;> simp

/-! ## Collision rules -/

theorem foldl_some_last (l : List α) (old : Option α) :
    l.foldl (fun _ v => some v) old = l.getLast?.or old := by
  induction l generalizing old with
  | nil => simp
  | cons v l ih =>
    rw [foldl_cons, ih, getLast?_cons]
    cases l.getLast? <;> simp

theorem foldl_last (l : List α) : l.foldl (fun _ v => some v) none = l.getLast? := by
  rw [foldl_some_last]; simp

theorem foldl_some_first (l : List α) (v : α) :
    l.foldl (fun (old : Option α) v => some (old.getD v)) (some v) = some v := by
  induction l with
  | nil => rfl
  | cons w l ih => simpa using ih

theorem foldl_first (l : List α) :
    l.foldl (fun (old : Option α) v => some (old.getD v)) none = l.head? := by
  cases l with
  | nil => rfl
  | cons v l => exact foldl_some_first l v

theorem foldl_accumulate (op : β → α → β) (init : β) (l : List α) :
    l.foldl (fun (old : Option β) v => some (op (old.getD init) v)) none =
      if l = [] then none else some (l.foldl op init) := by
  have hsome : ∀ (l : List α) (acc : β), l.foldl (fun (old : Option β) v =>
      some (op (old.getD init) v)) (some acc) = some (l.foldl op acc) := by
    intro l
    induction l with
    | nil => exact fun _ => rfl
    | cons v l ih => exact fun acc => ih (op acc v)
  cases l with
  | nil => rfl
  | cons v l => exact hsome l (op init v)

theorem foldl_push (l : List α) :
    l.foldl (fun (old : Option (List α)) v => some (old.getD [] ++ [v])) none =
      if l = [] then none else some l := by
  have hlist := list_foldl id (fun acc v => acc ++ [v]) some (fun _ _ => rfl) l []
  rw [filterMap_some] at hlist
  rw [foldl_accumulate (fun acc v => acc ++ [v])]
  exact congrArg (fun listed => if l = [] then none else some listed) hlist

theorem foldl_count (l : List α) :
    l.foldl (fun (old : Option Nat) _ => some (old.getD 0 + 1)) none =
      if l = [] then none else some l.length := by
  rw [foldl_accumulate (fun n _ => n + 1), foldl_add_const, Nat.zero_add, Nat.one_mul]

theorem foldl_collect [Ord α] [TransOrd α] [LawfulEqOrd α] (l : List α) :
    l.foldl (fun (old : Option (BTreeSet α)) v => some ((old.getD ∅).insert v)) none =
      if l = [] then none else some (BTreeSet.collect l) := by
  have hcollect : l.foldl (fun (acc : BTreeSet α) v => acc.insert v) ∅ = BTreeSet.collect l := by
    refine ExtTreeSet.ext_mem fun v => ?_
    rw [mem_foldl (fun (s : BTreeSet α) v => v ∈ s) _ some]
    · simp
    · simp [or_comm, eq_comm]
  rw [foldl_accumulate (fun (acc : BTreeSet α) v => acc.insert v), hcollect]

/-! ## Fallible folds -/

/-- A fold that may fail in reading a record, but not in entering what it read, is a plain fold
once every record can be read. -/
theorem foldlM_read {err : Type} {step : σ → ε → Except err σ} {read : ε → Except err β}
    {put : σ → β → σ} (h : ∀ s e, step s e = (read e).map (put s)) {log : List ε} {s s' : σ} :
    log.foldlM step s = .ok s' ↔ (∀ e ∈ log, ∃ x, read e = .ok x) ∧
      log.foldl (fun s e => (read e).toOption.elim s (put s)) s = s' := by
  induction log generalizing s with
  | nil => simp [pure, Except.pure]
  | cons e log ih =>
    rw [foldlM_cons, h, foldl_cons, forall_mem_cons]
    cases hr : read e with
    | error x => simp [bind, Except.bind, Except.map]
    | ok x =>
      have hstep : (Except.map (put s) (.ok x) >>= fun s => log.foldlM step s) =
          log.foldlM step (put s x) := rfl
      rw [hstep, ih]
      have hread : ∃ y, Except.ok x = (Except.ok y : Except err β) := ⟨x, rfl⟩
      simp only [hread, true_and]
      rfl

theorem foldlM_read_eq {err : Type} {read : ε → Except err β} {put : σ → β → σ} {next : σ → ε → σ}
    (h : ∀ {e x}, read e = .ok x → ∀ s, put s x = next s e) {log : List ε} {s s' : σ} :
    log.foldlM (fun s e => (read e).map (put s)) s = .ok s' ↔
      (∀ e ∈ log, ∃ x, read e = .ok x) ∧ log.foldl next s = s' := by
  rw [foldlM_read fun _ _ => rfl]
  refine and_congr_right fun hread => Eq.congr_left ?_
  refine foldl_ext _ _ _ fun s e he => ?_
  obtain ⟨x, hx⟩ := hread e he
  rw [hx]
  exact h hx s

theorem foldlM_eq_ok {err : Type} {step : σ → ε → Except err σ} {put : σ → ε → σ} {log : List ε}
    (h : ∀ s, ∀ e ∈ log, step s e = .ok (put s e)) (s : σ) :
    log.foldlM step s = .ok (log.foldl put s) := by
  induction log generalizing s with
  | nil => rfl
  | cons e log ih =>
    rw [foldlM_cons, h s e (.head _)]
    exact ih (fun s e' he' => h s e' (.tail _ he')) _

section Least

variable (cmp : τ → τ → Ordering)

/-- Keep the value whose stamp is less; the earlier one on equal stamps. -/
def least : Option (τ × α) → τ × α → τ × α
  | none, v => v
  | some w, v => if cmp v.1 w.1 = .lt then v else w

/-- The value with the least stamp, the first of them on equal stamps. -/
def leastOf (l : List (τ × α)) : Option (τ × α) :=
  l.foldl (fun old v => some (least cmp old v)) none

variable {cmp} {l l' : List (τ × α)}

theorem leastOf_append_singleton (l : List (τ × α)) (v : τ × α) :
    leastOf cmp (l ++ [v]) = some (least cmp (leastOf cmp l) v) := by
  simp [leastOf]

theorem leastOf_map (g : α → β) (l : List (τ × α)) :
    leastOf cmp (l.map fun v => (v.1, g v.2)) = (leastOf cmp l).map fun v => (v.1, g v.2) := by
  induction l using List.reverseRecOn with
  | nil => rfl
  | append_singleton l v ih =>
    rw [map_append, map_singleton, leastOf_append_singleton, leastOf_append_singleton,
      ih, Option.map_some, Option.some.injEq]
    cases leastOf cmp l with
    | none => rfl
    | some w =>
      simp only [Option.map_some, least]
      split <;> rfl

theorem leastOf_eq_none : leastOf cmp l = none ↔ l = [] := by
  cases l using List.reverseRecOn with
  | nil => simp [leastOf]
  | append_singleton l v => simp [leastOf_append_singleton]

/-- Insert unless the key holds a value with no greater stamp. -/
def insertLeast [Ord κ] [TransOrd κ] (cmp : τ → τ → Ordering) (stamp : α → τ) (m : BTreeMap κ α) (k : κ)
    (v : α) : BTreeMap κ α :=
  if m[k]?.all fun w => cmp (stamp v) (stamp w) = .lt then m.insert k v else m

theorem get_insertLeast [Ord κ] [TransOrd κ] [LawfulEqOrd κ] [DecidableEq κ] {stamp : α → τ}
    {m : BTreeMap κ α} {k a : κ} {v : α} :
    ((insertLeast cmp stamp m k v)[a]?).map (fun w => (stamp w, w)) =
      if k = a then some (least cmp (m[a]?.map fun w => (stamp w, w)) (stamp v, v))
      else m[a]?.map fun w => (stamp w, w) := by
  rw [insertLeast]
  by_cases hk : k = a
  · subst hk
    rw [if_pos rfl]
    cases hm : m[k]? with
    | none => simp [least]
    | some w =>
      by_cases hlt : cmp (stamp v) (stamp w) = .lt
      · simp [hlt, least]
      · simp [hlt, hm, least]
  · rw [if_neg hk]
    split
    · rw [BTreeMap.get_insert, if_neg hk]
    · rfl

variable [TransCmp cmp]

theorem leastOf_spec {v : τ × α} (h : leastOf cmp l = some v) :
    v ∈ l ∧ ∀ u ∈ l, (cmp v.1 u.1).isLE := by
  induction l using List.reverseRecOn generalizing v with
  | nil => cases h
  | append_singleton l w ih =>
    rw [leastOf_append_singleton, Option.some.injEq] at h
    simp only [mem_append, mem_singleton, or_imp, forall_and, forall_eq]
    cases hl : leastOf cmp l with
    | none =>
      rw [hl, least] at h
      rw [leastOf_eq_none.mp hl, ← h]
      simp [@ReflCmp.compare_self _ cmp _]
    | some u =>
      obtain ⟨hu, hle⟩ := ih hl
      rw [hl, least] at h
      split at h
      · rename_i hlt
        subst h
        exact ⟨.inr rfl, fun x hx => TransCmp.isLE_trans (by simp [hlt]) (hle x hx),
          by simp [@ReflCmp.compare_self _ cmp _]⟩
      · rename_i hlt
        subst h
        refine ⟨.inl hu, hle, ?_⟩
        rw [@OrientedCmp.eq_swap _ cmp _]
        cases hc : cmp w.1 u.1 <;> simp_all

theorem exists_leastOf [LawfulEqCmp cmp] {v : τ × α} (hv : v ∈ l)
    (hle : ∀ u ∈ l, (cmp v.1 u.1).isLE) : ∃ w, leastOf cmp l = some w ∧ w.1 = v.1 := by
  cases h : leastOf cmp l with
  | none =>
    rw [leastOf_eq_none] at h
    rw [h] at hv
    cases hv
  | some w =>
    obtain ⟨hw, hle'⟩ := leastOf_spec h
    exact ⟨w, rfl, LawfulEqCmp.eq_of_compare (OrientedCmp.isLE_antisymm (hle' v hv) (hle w hw))⟩

theorem leastOf_congr [LawfulEqCmp cmp] (hmem : ∀ v, v ∈ l ↔ v ∈ l')
    (hstamp : ∀ u ∈ l, ∀ v ∈ l, u.1 = v.1 → u = v) : leastOf cmp l = leastOf cmp l' := by
  have hspec : ∀ k : List (τ × α), (∀ v, v ∈ k ↔ v ∈ l) → ∀ v, leastOf cmp k = some v ↔
      v ∈ l ∧ ∀ u ∈ l, (cmp v.1 u.1).isLE := by
    intro k hk v
    simp only [← hk] at hstamp ⊢
    refine ⟨leastOf_spec, ?_⟩
    rintro ⟨hv, hle⟩
    obtain ⟨w, hw, hwv⟩ := exists_leastOf hv hle
    rw [hw, hstamp w (leastOf_spec hw).1 v hv hwv]
  exact Option.ext fun v => (hspec l (fun _ => Iff.rfl) v).trans
    (hspec l' (fun v => (hmem v).symm) v).symm

theorem leastOf_eq_head [LawfulEqCmp cmp] [DecidableEq τ] {v : τ × α}
    (h : leastOf cmp l = some v) : (l.filter fun u => u.1 = v.1).head? = some v := by
  induction l using List.reverseRecOn generalizing v with
  | nil => cases h
  | append_singleton l w ih =>
    rw [leastOf_append_singleton, Option.some.injEq] at h
    rw [filter_append, head?_append]
    cases hl : leastOf cmp l with
    | none =>
      rw [leastOf_eq_none] at hl
      rw [hl, leastOf, foldl_nil, least] at h
      subst h
      simp [hl]
    | some u =>
      rw [hl, least] at h
      split at h
      · rename_i hlt
        subst h
        -- an earlier value with this stamp would be below the least one
        have hnone : l.filter (fun u => u.1 = w.1) = [] := by
          rw [filter_eq_nil_iff]
          intro x hx he
          have hle := (leastOf_spec hl).2 x hx
          rw [of_decide_eq_true he, @OrientedCmp.eq_swap _ cmp _, hlt] at hle
          cases hle
        simp [hnone]
      · subst h
        rw [ih hl, Option.some_or]

theorem leastOf_of_filter [LawfulEqCmp cmp] [DecidableEq τ] {v : τ × α}
    (h : leastOf cmp l = some v) (hsub : ∀ u ∈ l', u ∈ l)
    (hsame : l'.filter (fun u => u.1 = v.1) = l.filter fun u => u.1 = v.1) :
    leastOf cmp l' = some v := by
  have hv : v ∈ l'.filter fun u => u.1 = v.1 := hsame ▸ mem_of_head? (leastOf_eq_head h)
  obtain ⟨w, hw, hwv⟩ := exists_leastOf (mem_filter.mp hv).1
    fun u hu => (leastOf_spec h).2 u (hsub u hu)
  rw [hw, ← leastOf_eq_head hw, ← leastOf_eq_head h, ← hsame, hwv]

/-- The value with the least stamp is settled by what is said under each stamp. -/
theorem leastOf_eq_of_filter [LawfulEqCmp cmp] [DecidableEq τ]
    (h : ∀ t, l.filter (fun u => u.1 = t) = l'.filter fun u => u.1 = t) :
    leastOf cmp l = leastOf cmp l' := by
  have hmem : ∀ v, v ∈ l ↔ v ∈ l' := by
    intro v
    have hv : v ∈ l.filter (fun u => u.1 = v.1) ↔ v ∈ l'.filter (fun u => u.1 = v.1) := by
      rw [h]
    simpa using hv
  refine Option.ext fun v => ⟨fun hv => ?_, fun hv => ?_⟩
  · exact leastOf_of_filter hv (fun u => (hmem u).mpr) (h v.1).symm
  · exact leastOf_of_filter hv (fun u => (hmem u).mp) (h v.1)

section By

variable (cmp) (stamp : α → τ)

def leastBy (l : List α) : Option α :=
  (leastOf cmp (l.map fun v => (stamp v, v))).map Prod.snd

variable {cmp stamp} {l l' : List α} {v : α}

theorem leastBy_eq_some :
    leastBy cmp stamp l = some v ↔ leastOf cmp (l.map fun v => (stamp v, v)) = some (stamp v, v) := by
  rw [leastBy, Option.map_eq_some_iff]
  constructor
  · rintro ⟨⟨t, v⟩, hleast, rfl⟩
    obtain ⟨u, -, hu⟩ := mem_map.mp (leastOf_spec hleast).1
    cases hu
    exact hleast
  · intro hleast
    exact ⟨_, hleast, rfl⟩

theorem leastBy_mem (h : leastBy cmp stamp l = some v) : v ∈ l := by
  obtain ⟨u, hmem, hu⟩ := mem_map.mp (leastOf_spec (leastBy_eq_some.mp h)).1
  rw [← (Prod.mk.inj hu).2]
  exact hmem

theorem leastBy_le (h : leastBy cmp stamp l = some v) {u : α} (hu : u ∈ l) :
    (cmp (stamp v) (stamp u)).isLE = true :=
  (leastOf_spec (leastBy_eq_some.mp h)).2 _ (mem_map_of_mem hu)

omit [TransCmp cmp] in
theorem leastBy_eq_none : leastBy cmp stamp l = none ↔ l = [] := by
  rw [leastBy, Option.map_eq_none_iff, leastOf_eq_none, map_eq_nil_iff]

theorem leastBy_isSome (h : l ≠ []) : ∃ v ∈ l, leastBy cmp stamp l = some v := by
  cases hleast : leastBy cmp stamp l with
  | none => exact absurd (leastBy_eq_none.mp hleast) h
  | some v => exact ⟨v, leastBy_mem hleast, rfl⟩

theorem leastBy_append_singleton (l : List α) (v : α) :
    leastBy cmp stamp (l ++ [v]) = some ((leastBy cmp stamp l).elim v fun w =>
      if cmp (stamp v) (stamp w) = .lt then v else w) := by
  rw [leastBy, map_append, map_singleton, leastOf_append_singleton, Option.map_some]
  cases hleast : leastBy cmp stamp l with
  | none =>
    rw [leastBy, Option.map_eq_none_iff] at hleast
    rw [hleast]
    rfl
  | some w =>
    rw [leastBy_eq_some.mp hleast]
    simp only [least, Option.elim_some]
    split <;> rfl

theorem leastBy_append {later : List α} (h : leastBy cmp stamp l = some v)
    (hlater : ∀ w ∈ later, cmp (stamp w) (stamp v) ≠ .lt) :
    leastBy cmp stamp (l ++ later) = some v := by
  induction later using List.reverseRecOn with
  | nil => rw [append_nil, h]
  | append_singleton later w ih =>
    have hlast := hlater w (mem_append_right _ (mem_singleton_self w))
    rw [← append_assoc, leastBy_append_singleton,
      ih fun u hu => hlater u (mem_append_left _ hu), Option.elim_some, if_neg hlast]

theorem leastBy_of_filter [LawfulEqCmp cmp] [DecidableEq τ] (h : leastBy cmp stamp l = some v)
    (hsub : ∀ u ∈ l', u ∈ l)
    (hsame : l'.filter (fun u => stamp u = stamp v) = l.filter fun u => stamp u = stamp v) :
    leastBy cmp stamp l' = some v := by
  refine leastBy_eq_some.mpr (leastOf_of_filter (leastBy_eq_some.mp h) ?_ ?_)
  · intro x hx
    obtain ⟨u, hu, rfl⟩ := mem_map.mp hx
    exact mem_map_of_mem (hsub u hu)
  · rw [filter_map, filter_map]
    exact congrArg _ hsame

end By

end Least

/-! ## Interleavings -/

/-- The last log is made of the first two, each in its own order. -/
inductive Interleaves : List ε → List ε → List ε → Prop
  | nil : Interleaves [] [] []
  | left {e : ε} {left right whole : List ε} (h : Interleaves left right whole) :
      Interleaves (e :: left) right (e :: whole)
  | right {e : ε} {left right whole : List ε} (h : Interleaves left right whole) :
      Interleaves left (e :: right) (e :: whole)

namespace Interleaves

variable {left right whole : List ε}

theorem append (left right : List ε) : Interleaves left right (left ++ right) := by
  induction left with
  | cons e left ih => exact ih.left
  | nil =>
    induction right with
    | nil => exact .nil
    | cons e right ih => exact ih.right

theorem mem_iff (h : Interleaves left right whole) {e : ε} :
    e ∈ whole ↔ e ∈ left ∨ e ∈ right := by
  induction h with
  | nil => simp
  | left _ ih => simp [ih, or_assoc]
  | right _ ih => simp [ih, or_left_comm]

theorem filterMap (h : Interleaves left right whole) (f : ε → Option α) :
    Interleaves (left.filterMap f) (right.filterMap f) (whole.filterMap f) := by
  induction h with
  | nil => exact .nil
  | @left e left right whole _ ih =>
    cases hf : f e with
    | none => simpa [hf] using ih
    | some a => simpa [hf] using ih.left
  | @right e left right whole _ ih =>
    cases hf : f e with
    | none => simpa [hf] using ih
    | some a => simpa [hf] using ih.right

theorem eq_left (h : Interleaves left [] whole) : whole = left := by
  induction left generalizing whole with
  | nil => cases h; rfl
  | cons e left ih =>
    cases h with
    | left h => rw [ih h]

variable (h : Interleaves left right whole)

include h

theorem filterMap_eq {f : ε → Option α}
    (hsilent : ∀ e ∈ right, f e = none) : whole.filterMap f = left.filterMap f := by
  have hnil : right.filterMap f = [] := filterMap_eq_nil_iff.mpr hsilent
  have hmap := h.filterMap f
  rw [hnil] at hmap
  exact hmap.eq_left

theorem filter_eq {p : ε → Bool}
    (hsilent : ∀ e ∈ right, p e = false) : whole.filter p = left.filter p := by
  rw [← filterMap_eq_filter, h.filterMap_eq]
  intro e he
  simp [Option.guard, hsilent e he]

theorem foldl_eq {step : σ → ε → σ}
    (hsilent : ∀ e ∈ right, ∀ s, step s e = s) (s : σ) : whole.foldl step s = left.foldl step s := by
  induction h generalizing s with
  | nil => rfl
  | left _ ih => exact ih hsilent _
  | right _ ih =>
    obtain ⟨hfirst, hrest⟩ := forall_mem_cons.mp hsilent
    rw [foldl_cons, hfirst]
    exact ih hrest s

theorem foldlM_eq {err : Type} {step : σ → ε → Except err σ}
    (hsilent : ∀ e ∈ right, ∀ s, step s e = .ok s) (s : σ) :
    whole.foldlM step s = left.foldlM step s := by
  induction h generalizing s with
  | nil => rfl
  | left _ ih =>
    rw [foldlM_cons, foldlM_cons]
    congr 1
    funext s'
    exact ih hsilent s'
  | right _ ih =>
    obtain ⟨hfirst, hrest⟩ := forall_mem_cons.mp hsilent
    rw [foldlM_cons, hfirst]
    exact ih hrest s

end Interleaves

section Grouping

variable [Ord κ] [TransOrd κ] [LawfulEqOrd κ] [DecidableEq κ] (key : ε → κ) (val : ε → α)

def grouped (log : List ε) : BTreeMap κ (List α) :=
  log.foldl (fun groups e => groups.alter (key e) fun group => some (group.getD [] ++ [val e])) ∅

variable {key val} {log : List ε} {k : κ}

theorem get_grouped : (grouped key val log)[k]? = if (log.filter (key · = k)).map val = [] then none
    else some ((log.filter (key · = k)).map val) := by
  have hentries : entries (fun e => some (key e, val e)) k log = (log.filter (key · = k)).map val := by
    rw [← entries_some]
    exact entries_map fun _ _ => rfl
  rw [← hentries, ← foldl_push]
  refine get_foldl_alter (fun groups => groups) (fun old v => old.getD [] ++ [v]) ?_ log ∅ k
  exact fun _ _ => rfl

theorem get_grouped_eq_some {group : List α} : (grouped key val log)[k]? = some group ↔
    (log.filter (key · = k)).map val = group ∧ ∃ e ∈ log, key e = k := by
  have hne : (log.filter (key · = k)).map val ≠ [] ↔ ∃ e ∈ log, key e = k := by
    simp
  rw [get_grouped, ← hne]
  split
  · rename_i hnil
    simp [hnil]
  · rename_i hsome
    simp [hsome]

theorem mem_grouped {v : α} : (∃ group, (grouped key val log)[k]? = some group ∧ v ∈ group) ↔
    ∃ e ∈ log, key e = k ∧ val e = v := by
  have hmem : v ∈ (log.filter (key · = k)).map val ↔ ∃ e ∈ log, key e = k ∧ val e = v := by
    simp [and_assoc]
  rw [get_grouped, ← hmem]
  split
  · rename_i hnil
    simp [hnil]
  · simp

omit [Ord κ] [TransOrd κ] [LawfulEqOrd κ] [DecidableEq κ] in
theorem getD_nonempty (l : List α) : (if l = [] then none else some l).getD [] = l := by
  split
  · rename_i hnil
    rw [hnil, Option.getD_none]
  · rw [Option.getD_some]

theorem getD_grouped :
    (grouped key val log)[k]?.getD [] = (log.filter (key · = k)).map val := by
  rw [get_grouped, getD_nonempty]

theorem getD_foldl_group_if (p : ε → Prop) [DecidablePred p] :
    (log.foldl (fun (groups : BTreeMap κ (List α)) e =>
        if p e then groups.alter (key e) fun group => some (group.getD [] ++ [val e])
        else groups) ∅)[k]?.getD [] =
      (log.filter fun e => p e ∧ key e = k).map val := by
  have hfold : log.foldl (fun (groups : BTreeMap κ (List α)) e =>
      if p e then groups.alter (key e) fun group => some (group.getD [] ++ [val e]) else groups) ∅ =
      grouped key val (log.filter p) := by
    rw [grouped, foldl_filter]
    simp
  rw [hfold, getD_grouped, filter_filter]
  simp [Bool.and_comm]

theorem get_foldl_insert {log : List (κ × α)} (h : Functional some log) {k : κ} {v : α} :
    (log.foldl (fun (table : BTreeMap κ α) e => table.insert e.1 e.2) ∅)[k]? = some v ↔
      (k, v) ∈ log := by
  have hget : (log.foldl (fun (table : BTreeMap κ α) e => table.insert e.1 e.2) ∅)[k]? =
      (entries some k log).foldl (fun _ v => some v) none := by
    refine get_foldl_put (fun table => table) ?_ log ∅ k
    exact fun _ _ => rfl
  rw [hget, foldl_last, h.getLast?_eq_some, mem_entries]
  simp

theorem get_foldl_toList {σ : Type} (table : σ → BTreeMap κ β) {step : σ → κ × α → σ}
    (make : κ → α → Option β) (hstep : ∀ s e, table (step s e) =
      (make e.1 e.2).elim (table s) ((table s).insert e.1)) (m : BTreeMap κ α) (s : σ) (k : κ)
    (hs : (table s)[k]? = none) : (table (m.toList.foldl step s))[k]? = m[k]?.bind (make k) := by
  have hmem : ∀ k v, v ∈ entries (fun e => (make e.1 e.2).map (e.1, ·)) k m.toList ↔
      m[k]?.bind (make k) = some v := by
    simp [mem_entries, Option.bind_eq_some_iff]
  have hfun : Functional (fun e => (make e.1 e.2).map (e.1, ·)) m.toList := by
    intro k v hv w hw
    rw [hmem] at hv hw
    exact Option.some.inj (hv.symm.trans hw)
  have hput : ∀ s e, table (step s e) = ((make e.1 e.2).map (e.1, ·)).elim (table s)
      fun kv => (table s).insert kv.1 kv.2 := by
    intro s e
    rw [hstep]
    cases make e.1 e.2 <;> rfl
  rw [get_foldl_put table hput, hs, foldl_last]
  exact Option.ext fun v => hfun.getLast?_eq_some.trans (hmem k v)

def pushEntry (groups : BTreeMap κ (List α)) : Option (κ × α) → BTreeMap κ (List α)
  | none => groups
  | some (k, v) => groups.alter k fun group => some (group.getD [] ++ [v])

/-- Records that have to be read first, grouped by key. Fails at the first that cannot be read. -/
def groupM {err : Type} (read : ε → Except err (Option (κ × α))) (log : List ε) :
    Except err (BTreeMap κ (List α)) :=
  log.foldlM (fun groups e => (read e).map (pushEntry groups)) ∅

variable {err : Type} {read : ε → Except err (Option (κ × α))} {groups : BTreeMap κ (List α)}

/-- What a record says, if it can be read. -/
def readEntry (read : ε → Except err (Option (κ × α))) (e : ε) : Option (κ × α) :=
  (read e).toOption.join

omit [LawfulEqOrd κ] [DecidableEq κ] in
theorem groupM_isOk : (∃ groups, groupM read log = .ok groups) ↔ ∀ e ∈ log, ∃ x, read e = .ok x := by
  simp only [groupM, foldlM_read (fun _ _ => rfl)]
  exact ⟨fun ⟨_, h, _⟩ => h, fun h => ⟨_, h, rfl⟩⟩

omit [LawfulEqOrd κ] [DecidableEq κ] in
theorem groupM_isOk_perm {log' : List ε} (hperm : log'.Perm log) (h : groupM read log = .ok groups) :
    ∃ groups, groupM read log' = .ok groups :=
  groupM_isOk.mpr fun e he => groupM_isOk.mp ⟨groups, h⟩ e (hperm.mem_iff.mp he)

theorem get_groupM (h : groupM read log = .ok groups) (k : κ) :
    groups[k]? = if entries (readEntry read) k log = [] then none
      else some (entries (readEntry read) k log) := by
  obtain ⟨-, rfl⟩ := (foldlM_read (fun _ _ => rfl)).mp h
  rw [← foldl_push]
  refine get_foldl_alter (fun groups => groups) (fun old v => old.getD [] ++ [v]) ?_ log ∅ k
  intro s e
  rw [readEntry]
  cases read e with
  | error x => rfl
  | ok entry => cases entry <;> rfl

theorem getD_groupM (h : groupM read log = .ok groups) (k : κ) :
    groups[k]?.getD [] = entries (readEntry read) k log := by
  rw [get_groupM h, getD_nonempty]

end Grouping

end KeyedLog
