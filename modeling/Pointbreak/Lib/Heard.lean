import Mathlib.Data.List.Sort
import Pointbreak.Lib.KeyedLog

/-!
# Lib.Heard

Entries of a log compete for slots: of those that fill a slot one is heard, the first or, for a late
slot, the last. Every way of picking one entry for each slot is what some order of the log hears
(`exists_order`).
-/

open KeyedLog

section First

variable {ε α : Type} {l : List ε} {p : ε → Bool} {e : ε}

theorem find?_of_least {R : ε → ε → Prop} (hsorted : l.Pairwise fun x y => ¬ R y x) (he : e ∈ l)
    (hp : p e = true) (hleast : ∀ x ∈ l, p x = true → x ≠ e → R e x) : l.find? p = some e := by
  induction l with
  | nil => cases he
  | cons first rest ih =>
    obtain ⟨hfirst, hrest⟩ := List.pairwise_cons.mp hsorted
    by_cases hsame : first = e
    · rw [List.find?_cons_of_pos (by rw [hsame, hp]), hsame]
    · have hin : e ∈ rest := (List.mem_cons.mp he).resolve_left (Ne.symm hsame)
      have hnot : ¬ p first = true := fun hpos =>
        hfirst e hin (hleast first List.mem_cons_self hpos hsame)
      rw [List.find?_cons_of_neg hnot]
      exact ih hrest hin fun x hx => hleast x (.tail _ hx)

theorem findSome?_eq_some {f : ε → Option α} {v : α}
    (hf : ∀ e ∈ l, p e = true ↔ ∃ v, f e = some v) :
    l.findSome? f = some v ↔ ∃ e, l.find? p = some e ∧ f e = some v := by
  induction l with
  | nil => simp
  | cons e l ih =>
    obtain ⟨he, hl⟩ := List.forall_mem_cons.mp hf
    cases hsaid : f e with
    | none =>
      have hnot : ¬ p e = true := fun hp => by simpa [hsaid] using he.mp hp
      rw [List.findSome?_cons_of_isNone (by simp [hsaid]), List.find?_cons_of_neg hnot]
      exact ih hl
    | some v' =>
      rw [List.findSome?_cons_of_isSome (by simp [hsaid]),
        List.find?_cons_of_pos (he.mpr ⟨v', hsaid⟩)]
      simp

end First

section Heard

variable {ε σ : Type} (Fills : ε → σ → Prop) (late : σ → Bool) (log : List ε)

/-- One entry for each slot that is filled. -/
structure Picks (pick : σ → Option ε) : Prop where
  mem : ∀ {slot e}, pick slot = some e → e ∈ log ∧ Fills e slot
  total : ∀ {e slot}, e ∈ log → Fills e slot → ∃ picked, pick slot = some picked

open Classical in
/-- The first entry of a slot, or the last of a late one. -/
noncomputable def heardAt (slot : σ) : Option ε :=
  (if late slot then log.reverse else log).find? fun e => Fills e slot

variable {Fills late log} {slot : σ} {e : ε}

theorem heard_eq_none : heardAt Fills late log slot = none ↔ ∀ e ∈ log, ¬ Fills e slot := by
  rw [heardAt]
  split <;> simp

theorem picks_heard : Picks Fills log (heardAt Fills late log) where
  mem {slot e} h := by
    classical
    refine ⟨?_, of_decide_eq_true (List.find?_some h :)⟩
    have hmem := List.mem_of_find?_eq_some h
    split at hmem
    · exact List.mem_reverse.mp hmem
    · exact hmem
  total {e slot} he hfills := by
    by_contra! hnone
    exact heard_eq_none.mp (Option.eq_none_iff_forall_ne_some.mpr hnone) e he hfills

theorem Picks.perm {pick : σ → Option ε} {log' : List ε} (h : Picks Fills log pick)
    (hperm : log.Perm log') : Picks Fills log' pick where
  mem hpick := ⟨hperm.mem_iff.mp (h.mem hpick).1, (h.mem hpick).2⟩
  total he := h.total (hperm.mem_iff.mpr he)

theorem heard_append_cons {front back : List ε} (hearly : late slot = false) (hnew : e ∉ front)
    (hfills : Fills e slot) :
    heardAt Fills late (front ++ e :: back) slot = some e ↔ ∀ x ∈ front, ¬ Fills x slot := by
  classical
  rw [heardAt, hearly, if_neg Bool.false_ne_true, List.find?_append]
  cases hfront : front.find? fun e => Fills e slot with
  | none => simpa [hfills] using hfront
  | some x =>
    have hx := List.mem_of_find?_eq_some hfront
    refine iff_of_false ?_ fun hnone => hnone x hx (of_decide_eq_true (List.find?_some hfront :))
    rintro ⟨⟩
    exact hnew hx

section Entries

variable {κ α : Type} [DecidableEq κ] {sel : ε → Option (κ × α)} {k : κ} {v : α}
  (hsel : ∀ e ∈ log, Fills e slot ↔ ∃ v, sel e = some (k, v))
include hsel

theorem head?_entries (hearly : late slot = false) : (entries sel k log).head? = some v ↔
    ∃ e, heardAt Fills late log slot = some e ∧ sel e = some (k, v) := by
  rw [entries, List.head?_filterMap, heardAt, hearly, if_neg Bool.false_ne_true]
  simp only [← said_eq_some (k := k)] at hsel ⊢
  exact findSome?_eq_some (by simpa using hsel)

theorem getLast?_entries (hlate : late slot = true) : (entries sel k log).getLast? = some v ↔
    ∃ e, heardAt Fills late log slot = some e ∧ sel e = some (k, v) := by
  rw [entries, List.getLast?_filterMap, heardAt, if_pos hlate]
  simp only [← said_eq_some (k := k)] at hsel ⊢
  exact findSome?_eq_some (by simpa using hsel)

end Entries

theorem Picks.slot_eq {pick : σ → Option ε} (h : Picks Fills log pick)
    (hone : ∀ e ∈ log, ∀ slot slot', Fills e slot → Fills e slot' → slot = slot') {slot' : σ}
    (hpick : pick slot = some e) (hfills : Fills e slot') : slot' = slot :=
  hone e (h.mem hpick).1 slot' slot hfills (h.mem hpick).2

section Order

variable (late) (pick : σ → Option ε) (lead : Option ε)

open Classical in
/-- The lead in front, then the early picks, and the late picks at the end. -/
noncomputable def pickRank (e : ε) : Nat :=
  if lead = some e then 0
  else if ∃ slot, late slot = false ∧ pick slot = some e then 1
  else if ∃ slot, late slot = true ∧ pick slot = some e then 3 else 2

variable {late pick lead}

theorem pickRank_lead (h : lead = some e) : pickRank late pick lead e = 0 := if_pos h

theorem pickRank_early (h : ∃ slot, late slot = false ∧ pick slot = some e) :
    pickRank late pick lead e < 2 := by
  rw [pickRank, if_pos h]
  split <;> decide

theorem pickRank_late (hlead : lead ≠ some e)
    (hearly : ¬ ∃ slot, late slot = false ∧ pick slot = some e)
    (h : ∃ slot, late slot = true ∧ pick slot = some e) : pickRank late pick lead e = 3 := by
  rw [pickRank, if_neg hlead, if_neg hearly, if_pos h]

theorem pickRank_other (hlead : lead ≠ some e) (h : ∀ slot, pick slot ≠ some e) :
    pickRank late pick lead e = 2 := by
  simp [pickRank, hlead, h]

theorem pickRank_pos (hlead : lead ≠ some e) : 0 < pickRank late pick lead e := by
  rw [pickRank, if_neg hlead]
  split
  · decide
  · split <;> decide

variable (h : Picks Fills log pick)
  (hone : ∀ e ∈ log, ∀ slot slot', Fills e slot → Fills e slot' → slot = slot')
include h hone

section Rank

variable (hlead : ∀ e, lead = some e → ∃ slot, late slot = false ∧ pick slot = some e)
include hlead

theorem pickRank_slot (hpick : pick slot = some e) :
    (late slot = false → pickRank late pick lead e < 2) ∧
    (late slot = true → pickRank late pick lead e = 3) ∧
    ∀ x, Fills x slot → x ≠ e → pickRank late pick lead x = 2 := by
  have hslot : ∀ slot', pick slot' = some e → slot' = slot := by
    intro slot' hpick'
    exact h.slot_eq hone hpick (h.mem hpick').2
  refine ⟨fun hearly => pickRank_early ⟨slot, hearly, hpick⟩, fun hlate => ?_, fun x hx hne => ?_⟩
  · have hnot : ¬ ∃ slot', late slot' = false ∧ pick slot' = some e := by
      rintro ⟨slot', hearly, hpick'⟩
      rw [hslot slot' hpick', hlate] at hearly
      cases hearly
    exact pickRank_late (fun hin => hnot (hlead e hin)) hnot ⟨slot, hlate, hpick⟩
  · have hnot : ∀ slot', pick slot' ≠ some x := by
      intro slot' hpick'
      obtain rfl := h.slot_eq hone hpick' hx
      exact hne (Option.some.inj (hpick'.symm.trans hpick))
    refine pickRank_other (fun hin => ?_) hnot
    obtain ⟨slot', -, hpick'⟩ := hlead x hin
    exact hnot slot' hpick'

/-- Every pick is heard in some order, with any of the early picks in front. -/
theorem exists_order_lead :
    ∃ log', log'.Perm log ∧ heardAt Fills late log' = pick ∧ ∀ e, lead = some e → log'.head? = some e := by
  classical
  let le : ε → ε → Prop := fun x y => pickRank late pick lead x ≤ pickRank late pick lead y
  have : Std.Total le := ⟨fun x y => Nat.le_total _ _⟩
  have : IsTrans ε le := ⟨fun _ _ _ => Nat.le_trans⟩
  have hsorted : (log.insertionSort le).Pairwise le := List.pairwise_insertionSort le log
  have hmem : ∀ {e}, e ∈ log.insertionSort le ↔ e ∈ log := List.mem_insertionSort le
  refine ⟨log.insertionSort le, List.perm_insertionSort le log, funext fun slot => ?_, fun e he => ?_⟩
  · cases hpick : pick slot with
    | none =>
      refine heard_eq_none.mpr fun e he hfills => ?_
      obtain ⟨picked, hpicked⟩ := h.total (hmem.mp he) hfills
      rw [hpick] at hpicked
      cases hpicked
    | some e =>
      obtain ⟨he, hfills⟩ := h.mem hpick
      obtain ⟨hearly, hlater, hothers⟩ := pickRank_slot h hone hlead hpick
      rw [heardAt]
      cases hlate : late slot with
      | true =>
        rw [if_pos rfl]
        refine find?_of_least (List.pairwise_reverse.mpr (hsorted.imp Nat.not_lt.mpr))
          (List.mem_reverse.mpr (hmem.mpr he)) (decide_eq_true hfills) fun x _ hx hne => ?_
        rw [hothers x (of_decide_eq_true hx) hne, hlater hlate]
        decide
      | false =>
        rw [if_neg Bool.false_ne_true]
        refine find?_of_least (hsorted.imp Nat.not_lt.mpr) (hmem.mpr he) (decide_eq_true hfills)
          fun x _ hx hne => ?_
        rw [hothers x (of_decide_eq_true hx) hne]
        exact hearly hlate
  · obtain ⟨slot, -, hpick⟩ := hlead e he
    have hfirst : (log.insertionSort le).find? (fun _ => true) = some e := by
      refine find?_of_least (hsorted.imp Nat.not_lt.mpr) (hmem.mpr (h.mem hpick).1) rfl
        fun x _ _ hne => ?_
      rw [pickRank_lead he]
      exact pickRank_pos fun hx => hne (Option.some.inj (hx.symm.trans he))
    cases hlog : log.insertionSort le with
    | nil => simp [hlog] at hfirst
    | cons => simpa [hlog] using hfirst

end Rank

variable (late) in
theorem exists_order : ∃ log', log'.Perm log ∧ heardAt Fills late log' = pick := by
  have hlead : ∀ e, (none : Option ε) = some e → ∃ slot, late slot = false ∧ pick slot = some e :=
    fun _ hnone => nomatch hnone
  obtain ⟨log', hperm, hheard, -⟩ := exists_order_lead h hone hlead
  exact ⟨log', hperm, hheard⟩

end Order

end Heard
