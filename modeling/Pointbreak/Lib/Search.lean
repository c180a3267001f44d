import Mathlib.Logic.Relation
import Mathlib.Order.WellFoundedSet
import Pointbreak.Lib.BTree

/-!
# Lib.Search

Searching a finite directed graph given by its successor lists.

* `hasCycle` is a depth-first search from every root, and is exact (`hasCycle_iff`).
* `close` is a worklist search for everything reachable by at least one edge (`mem_close_iff`), or
  from a set of nodes that counts as found (`mem_close_seeds`).
* `saturate` widens a set until widening adds nothing (`saturate_fixed`).

The searches take fuel. `Visits` and `Closes` are the same searches without fuel, and
`visits_visit` and `closes_close` say that with fuel for a finite set of nodes that is closed under
the successor lists both return the same.
-/

namespace Search

open Std Relation BTreeSet

variable {α : Type}

def Edge (next : α → List α) (a b : α) : Prop := b ∈ next a

/-- `Iterator::any` over a search that carries state: stops at the first hit. -/
def anyVisit {σ : Type} (f : α → σ → Bool × σ) : List α → σ → Bool × σ
  | [], s => (false, s)
  | a :: as, s =>
    match f a s with
    | (true, s') => (true, s')
    | (false, s') => anyVisit f as s'

section AnyVisit

variable {σ : Type} {f : α → σ → Bool × σ} {I : σ → Prop} {as : List α}

theorem anyVisit_inv (hf : ∀ a ∈ as, ∀ s, I s → I (f a s).2) {s : σ} (hs : I s) :
    I (anyVisit f as s).2 := by
  induction as generalizing s with
  | nil => exact hs
  | cons a as ih =>
    have hstep := hf a (.head _) s hs
    rw [anyVisit]
    split
    · rename_i s' he
      rw [he] at hstep
      exact hstep
    · rename_i s' he
      rw [he] at hstep
      exact ih (fun b hb => hf b (.tail _ hb)) hstep

theorem anyVisit_true (hf : ∀ a ∈ as, ∀ s, I s → I (f a s).2) {s : σ} (hs : I s)
    (h : (anyVisit f as s).1 = true) : ∃ a ∈ as, ∃ s', I s' ∧ (f a s').1 = true := by
  induction as generalizing s with
  | nil => cases h
  | cons a as ih =>
    have hstep := hf a (.head _) s hs
    rw [anyVisit] at h
    split at h
    · rename_i s' he
      exact ⟨a, List.mem_cons_self .., s, hs, by rw [he]⟩
    · rename_i s' he
      rw [he] at hstep
      obtain ⟨b, hb, s'', hs'', ht⟩ := ih (fun b hb => hf b (.tail _ hb)) hstep h
      exact ⟨b, List.mem_cons_of_mem _ hb, s'', hs'', ht⟩

/-- Without a hit every call was made and missed: the invariant `I` and the progress `R` pass
through, and what each call establishes (`D`) lasts. -/
theorem anyVisit_false {R : σ → σ → Prop} {D : α → σ → Prop}
    (hrefl : ∀ s, R s s) (htrans : ∀ {a b c}, R a b → R b c → R a c)
    (hmono : ∀ {a s s'}, D a s → R s s' → D a s') {t : σ}
    (hf : ∀ a ∈ as, ∀ s, I s → R t s → (f a s).1 = false →
      I (f a s).2 ∧ R s (f a s).2 ∧ D a (f a s).2) {s : σ} (hs : I s) (hle : R t s)
    (h : (anyVisit f as s).1 = false) :
    I (anyVisit f as s).2 ∧ R s (anyVisit f as s).2 ∧ ∀ a ∈ as, D a (anyVisit f as s).2 := by
  induction as generalizing s with
  | nil => exact ⟨hs, hrefl s, by simp⟩
  | cons a as ih =>
    have hstep := hf a (.head _) s hs hle
    rw [anyVisit] at h ⊢
    split at h
    · cases h
    · rename_i s' he
      rw [he] at hstep
      obtain ⟨hI, hl, hd⟩ := hstep rfl
      obtain ⟨hI', hl', hd'⟩ :=
        ih (fun b hb => hf b (.tail _ hb)) hI (htrans hle hl) h
      refine ⟨hI', htrans hl hl', fun b hb => ?_⟩
      rcases List.mem_cons.mp hb with rfl | hb
      · exact hmono hd hl'
      · exact hd' b hb

end AnyVisit

/-! ## Depth-first search for a cycle -/

variable [Ord α] [TransOrd α]

structure Dfs (α : Type) [Ord α] where
  visiting : BTreeSet α
  visited : BTreeSet α

/-- Enter `node`: `true` when it is on the current path or a path below it closes on itself. -/
def visit (next : α → List α) : Nat → α → Dfs α → Bool × Dfs α
  | 0, _, s => (false, s)
  | fuel + 1, node, s =>
    if node ∈ s.visiting then (true, s)
    else if node ∈ s.visited then (false, s)
    else
      let r := anyVisit (visit next fuel) (next node)
        { visiting := s.visiting.insert node, visited := s.visited.insert node }
      (r.1, { r.2 with visiting := r.2.visiting.erase node })

def visitRoot (next : α → List α) (fuel : Nat) (root : α) (visited : BTreeSet α) :
    Bool × BTreeSet α :=
  let r := visit next fuel root { visiting := ∅, visited }
  (r.1, r.2.visited)

def hasCycle (next : α → List α) (fuel : Nat) (roots : List α) : Bool :=
  (anyVisit (visitRoot next fuel) roots ∅).1

mutual

/-- A search from a node that returns: `visit` without fuel. -/
inductive Visits (next : α → List α) : α → Dfs α → Bool × Dfs α → Prop
  | closes {node : α} {s : Dfs α} (h : node ∈ s.visiting) : Visits next node s (true, s)
  | known {node : α} {s : Dfs α} (h : node ∉ s.visiting) (hv : node ∈ s.visited) :
    Visits next node s (false, s)
  | enters {node : α} {s : Dfs α} {r : Bool × Dfs α} (h : node ∉ s.visiting)
    (hv : node ∉ s.visited)
    (hnext : VisitsAll next (next node)
      { visiting := s.visiting.insert node, visited := s.visited.insert node } r) :
    Visits next node s (r.1, { r.2 with visiting := r.2.visiting.erase node })

inductive VisitsAll (next : α → List α) : List α → Dfs α → Bool × Dfs α → Prop
  | nil {s : Dfs α} : VisitsAll next [] s (false, s)
  | hit {a : α} {as : List α} {s s' : Dfs α} (h : Visits next a s (true, s')) :
    VisitsAll next (a :: as) s (true, s')
  | miss {a : α} {as : List α} {s s' : Dfs α} {r : Bool × Dfs α} (h : Visits next a s (false, s'))
    (hrest : VisitsAll next as s' r) : VisitsAll next (a :: as) s r

end

variable {next : α → List α}

def Dfs.Finished (s : Dfs α) (x : α) : Prop := x ∈ s.visited ∧ x ∉ s.visiting

/-- The invariant of a search without a hit: edges from finished nodes stay among finished nodes,
and no finished node lies on a cycle. -/
structure Dfs.Clean (next : α → List α) (s : Dfs α) : Prop where
  sub : ∀ x ∈ s.visiting, x ∈ s.visited
  closed : ∀ x, s.Finished x → ∀ y ∈ next x, s.Finished y
  acyclic : ∀ x, s.Finished x → ¬ TransGen (Edge next) x x

variable {s : Dfs α}

theorem Dfs.Clean.reach (h : s.Clean next) {x y : α} (hx : s.Finished x)
    (hxy : ReflTransGen (Edge next) x y) : s.Finished y := by
  induction hxy with
  | refl => exact hx
  | tail _ hbc ih => exact h.closed _ ih _ hbc

def Dfs.Le (s s' : Dfs α) : Prop := s'.visiting = s.visiting ∧ ∀ x ∈ s.visited, x ∈ s'.visited

variable {x : α}

theorem Dfs.Le.finished {s s' : Dfs α} (h : s.Le s') (hx : s.Finished x) :
    s'.Finished x := ⟨h.2 x hx.1, by rw [h.1]; exact hx.2⟩

def Dfs.left (U : Finset α) (s : Dfs α) : Nat := (U.filter (· ∉ s.visited)).card

variable {U : Finset α}

theorem Dfs.left_le {s s' : Dfs α} (h : ∀ x ∈ s.visited, x ∈ s'.visited) :
    s'.left U ≤ s.left U := by
  apply Finset.card_le_card
  intro x hx
  rw [Finset.mem_filter] at hx ⊢
  exact ⟨hx.1, fun hv => hx.2 (h x hv)⟩

variable {node : α}

theorem Dfs.left_insert {s s' : Dfs α} (hU : node ∈ U) (hn : node ∉ s.visited)
    (h : ∀ x, x ∈ s'.visited ↔ x = node ∨ x ∈ s.visited) : s'.left U < s.left U := by
  apply Finset.card_lt_card
  rw [Finset.ssubset_iff_of_subset]
  · exact ⟨node, by simp [hU, hn], by simp [h]⟩
  · intro x hx
    rw [Finset.mem_filter] at hx ⊢
    exact ⟨hx.1, fun hv => hx.2 ((h x).mpr (.inr hv))⟩

variable [LawfulEqOrd α]

variable (next) in
theorem visit_visiting (fuel : Nat) (node : α) (s : Dfs α) :
    (visit next fuel node s).2.visiting = s.visiting := by
  induction fuel generalizing node s with
  | zero => rfl
  | succ fuel ih =>
    rw [visit]
    split
    · rfl
    · rename_i hv
      split
      · rfl
      · have h : (anyVisit (visit next fuel) (next node)
            { visiting := s.visiting.insert node, visited := s.visited.insert node }).2.visiting =
            s.visiting.insert node :=
          anyVisit_inv (I := fun s' => s'.visiting = s.visiting.insert node)
            (fun a _ s' hs' => (ih a s').trans hs') rfl
        show (ExtTreeSet.erase _ node) = s.visiting
        rw [h, erase_insert hv]

variable {fuel : Nat}

/-- A hit is a node below `node` that lies on a cycle, when the path leads to `node`. -/
theorem visit_true (hpath : ∀ v ∈ s.visiting, TransGen (Edge next) v node)
    (h : (visit next fuel node s).1 = true) :
    ∃ x, ReflTransGen (Edge next) node x ∧ TransGen (Edge next) x x := by
  induction fuel generalizing node s with
  | zero => cases h
  | succ fuel ih =>
    rw [visit] at h
    split at h
    · rename_i hv
      exact ⟨node, .refl, hpath node hv⟩
    · split at h
      · cases h
      · obtain ⟨c, hc, s', hs', ht⟩ := anyVisit_true
          (I := fun s' : Dfs α => s'.visiting = s.visiting.insert node)
          (fun a _ s' hs' => (visit_visiting next fuel a s').trans hs') rfl h
        have hpath' : ∀ v ∈ s'.visiting, TransGen (Edge next) v c := by
          intro v hv
          rw [hs', mem_insert_iff] at hv
          rcases hv with rfl | hv
          · exact .single hc
          · exact (hpath v hv).tail hc
        obtain ⟨x, hx, hcyc⟩ := ih hpath' ht
        exact ⟨x, .head hc hx, hcyc⟩

theorem Dfs.Clean.leave (h : s.Clean next) (hn : node ∈ s.visiting)
    (hnext : ∀ y ∈ next node, s.Finished y) :
    Dfs.Clean next { s with visiting := s.visiting.erase node } := by
  have hiff : ∀ x, Dfs.Finished { s with visiting := s.visiting.erase node } x →
      x = node ∨ s.Finished x := by
    rintro x ⟨h1, h2⟩
    by_cases hx : x = node
    · exact .inl hx
    · exact .inr ⟨h1, fun hv => h2 (mem_erase_iff.mpr ⟨hx, hv⟩)⟩
  have hsub : ∀ x, s.Finished x → Dfs.Finished { s with visiting := s.visiting.erase node } x :=
    fun x hx => ⟨hx.1, fun hv => hx.2 (mem_erase_iff.mp hv).2⟩
  refine ⟨fun x hx => h.sub x (mem_erase_iff.mp hx).2, fun x hx y hy => ?_, fun x hx hc => ?_⟩
  · rcases hiff x hx with rfl | hx
    · exact hsub y (hnext y hy)
    · exact hsub y (h.closed x hx y hy)
  · rcases hiff x hx with rfl | hx
    · -- a cycle through the node left now would lead back to it through finished nodes
      obtain ⟨c, hxc, hcx⟩ := TransGen.head'_iff.mp hc
      exact (h.reach (hnext c hxc) hcx).2 hn
    · exact h.acyclic x hx hc

theorem visit_false (hU : ∀ x ∈ U, ∀ y ∈ next x, y ∈ U) (hnode : node ∈ U) (hfuel : s.left U < fuel)
    (hs : s.Clean next) (h : (visit next fuel node s).1 = false) :
    (visit next fuel node s).2.Clean next ∧ s.Le (visit next fuel node s).2 ∧
      (visit next fuel node s).2.Finished node := by
  induction fuel generalizing node s with
  | zero => omega
  | succ fuel ih =>
    have hvis := visit_visiting next (fuel + 1) node s
    rw [visit] at h hvis ⊢
    split at h
    · cases h
    · rename_i hv
      rw [if_neg hv] at hvis ⊢
      split at h
      · rename_i hd
        rw [if_pos hd]
        exact ⟨hs, ⟨rfl, fun _ hx => hx⟩, hd, hv⟩
      · rename_i hd
        rw [if_neg hd] at hvis ⊢
        let s1 : Dfs α := { visiting := s.visiting.insert node, visited := s.visited.insert node }
        have hfin : ∀ x, s1.Finished x → s.Finished x := by
          rintro x ⟨h1, h2⟩
          rw [mem_insert_iff, not_or] at h2
          exact ⟨(mem_insert_iff.mp h1).resolve_left h2.1, h2.2⟩
        have hfin' : ∀ x, s.Finished x → s1.Finished x := fun x hx =>
          ⟨mem_insert_iff.mpr (.inr hx.1), fun hv' =>
            (mem_insert_iff.mp hv').elim (fun e => hd (e ▸ hx.1)) hx.2⟩
        have hs1 : s1.Clean next := by
          refine ⟨fun x hx => ?_, fun x hx y hy => hfin' y (hs.closed x (hfin x hx) y hy),
            fun x hx => hs.acyclic x (hfin x hx)⟩
          exact mem_insert_iff.mpr ((mem_insert_iff.mp hx).imp_right (hs.sub x))
        have hleft : s1.left U < s.left U :=
          Dfs.left_insert hnode hd fun x => mem_insert_iff
        obtain ⟨hI, hle, hdone⟩ := anyVisit_false (I := Dfs.Clean next) (R := Dfs.Le)
          (D := fun a s => s.Finished a) (t := s1) (f := visit next fuel)
          (fun _ => ⟨rfl, fun _ hx => hx⟩)
          (fun h1 h2 => ⟨h2.1.trans h1.1, fun x hx => h2.2 x (h1.2 x hx)⟩)
          (fun hd hl => hl.finished hd)
          (fun a ha s' hI hl hf => by
            have hlt : s'.left U < fuel := by
              have := Dfs.left_le (U := U) hl.2
              omega
            exact ih (hU node hnode a ha) hlt hI hf)
          hs1 ⟨rfl, fun _ hx => hx⟩ h
        have hmem : node ∈ (anyVisit (visit next fuel) (next node) s1).2.visiting := by
          rw [hle.1]; exact mem_insert_iff.mpr (.inl rfl)
        have hnode' : node ∈ (anyVisit (visit next fuel) (next node) s1).2.visited :=
          hle.2 node (mem_insert_iff.mpr (.inl rfl))
        refine ⟨hI.leave hmem hdone, ⟨hvis, fun x hx => hle.2 x (mem_insert_iff.mpr (.inr hx))⟩,
          hnode', fun hv' => (mem_erase_iff.mp hv').1 rfl⟩

theorem visited_visit (fuel : Nat) (node : α) (s : Dfs α) (hx : x ∈ s.visited) :
    x ∈ (visit next fuel node s).2.visited := by
  induction fuel generalizing node s with
  | zero => exact hx
  | succ fuel ih =>
    rw [visit]
    split
    · exact hx
    · split
      · exact hx
      · exact anyVisit_inv (I := fun s' : Dfs α => x ∈ s'.visited) (fun a _ s' hs' => ih a s' hs')
          (mem_insert_iff.mpr (.inr hx))

theorem visitsAll_anyVisit {as : List α}
    (h : ∀ a ∈ as, ∀ s', (∀ x ∈ s.visited, x ∈ s'.visited) →
      Visits next a s' (visit next fuel a s')) :
    VisitsAll next as s (anyVisit (visit next fuel) as s) := by
  induction as generalizing s with
  | nil => exact .nil
  | cons a as ih =>
    have ha := h a (.head _) s fun _ hx => hx
    have hkept : ∀ x ∈ s.visited, x ∈ (visit next fuel a s).2.visited := fun _ => visited_visit fuel a s
    rw [anyVisit]
    split
    · rename_i s' he
      rw [he] at ha
      exact .hit ha
    · rename_i s' he
      rw [he] at ha hkept
      exact .miss ha (ih fun b hb t ht => h b (.tail _ hb) t fun x hx => ht x (hkept x hx))

theorem visits_visit (hU : ∀ x ∈ U, ∀ y ∈ next x, y ∈ U) (hnode : node ∈ U)
    (hfuel : s.left U < fuel) : Visits next node s (visit next fuel node s) := by
  induction fuel generalizing node s with
  | zero => omega
  | succ fuel ih =>
    rw [visit]
    split
    · rename_i hv
      exact .closes hv
    · rename_i hv
      split
      · rename_i hd
        exact .known hv hd
      · rename_i hd
        refine .enters hv hd (visitsAll_anyVisit fun a ha s' hs' => ih (hU node hnode a ha) ?_)
        have hlt := (Dfs.left_le (U := U) hs').trans_lt
          (Dfs.left_insert (s := s) hnode hd fun x => mem_insert_iff)
        omega

theorem hasCycle_iff (hU : ∀ x ∈ U, ∀ y ∈ next x, y ∈ U) (hfuel : U.card < fuel) {roots : List α}
    (hroots : ∀ r ∈ roots, r ∈ U) :
    hasCycle next fuel roots = true ↔
      ∃ r ∈ roots, ∃ x, ReflTransGen (Edge next) r x ∧ TransGen (Edge next) x x := by
  constructor
  · intro h
    obtain ⟨r, hr, visited, -, ht⟩ := anyVisit_true (I := fun _ => True) (by simp) trivial h
    obtain ⟨x, hx⟩ := visit_true (s := { visiting := ∅, visited }) (by simp) ht
    exact ⟨r, hr, x, hx⟩
  · rintro ⟨r, hr, x, hrx, hx⟩
    by_contra hne
    have hf : (anyVisit (visitRoot next fuel) roots ∅).1 = false := Bool.eq_false_iff.mpr hne
    obtain ⟨hI, -, hdone⟩ := anyVisit_false (f := visitRoot next fuel)
      (I := fun visited => Dfs.Clean next { visiting := ∅, visited })
      (R := fun v v' => ∀ y ∈ v, y ∈ v') (D := fun a v => a ∈ v) (t := (∅ : BTreeSet α))
      (fun _ _ hy => hy) (fun h1 h2 y hy => h2 y (h1 y hy)) (fun hd hl => hl _ hd)
      (fun a ha v hI _ hfa => by
        have hlt : Dfs.left U { visiting := ∅, visited := v } < fuel :=
          (Finset.card_le_card (Finset.filter_subset ..)).trans_lt hfuel
        obtain ⟨h1, h2, h3⟩ := visit_false hU (hroots a ha) hlt hI hfa
        have hempty : (visit next fuel a { visiting := ∅, visited := v }).2.visiting = ∅ := h2.1
        refine ⟨?_, h2.2, h3.1⟩
        rw [← hempty]; exact h1)
      ⟨by simp, by rintro x ⟨hx, -⟩; simp at hx, by rintro x ⟨hx, -⟩; simp at hx⟩
      (fun _ hy => hy) hf
    exact hI.acyclic x (hI.reach ⟨hdone r hr, by simp⟩ hrx) hx

/-! ## Everything reachable by at least one edge -/

def push (found : BTreeSet α) (pending : List α) : List α → BTreeSet α × List α
  | [] => (found, pending)
  | p :: ps =>
    if p ∈ found then push found pending ps else push (found.insert p) (p :: pending) ps

def close (next : α → List α) : Nat → BTreeSet α → List α → BTreeSet α
  | fuel + 1, found, node :: pending =>
    let s := push found pending (next node)
    close next fuel s.1 s.2
  | _, found, _ => found

/-- A worklist search that returns: `close` without fuel. -/
inductive Closes (next : α → List α) : BTreeSet α → List α → BTreeSet α → Prop
  | done {found : BTreeSet α} : Closes next found [] found
  | step {found out : BTreeSet α} {node : α} {pending : List α}
    (h : Closes next (push found pending (next node)).1 (push found pending (next node)).2 out) :
    Closes next found (node :: pending) out

variable {found : BTreeSet α} {pending ps : List α}

theorem mem_push_found :
    x ∈ (push found pending ps).1 ↔ x ∈ found ∨ x ∈ ps := by
  induction ps generalizing found pending with
  | nil => simp [push]
  | cons p ps ih =>
    rw [push]
    split
    · rename_i hp
      rw [ih, List.mem_cons]
      constructor
      · exact Or.imp_right .inr
      · rintro (h | rfl | h)
        · exact .inl h
        · exact .inl hp
        · exact .inr h
    · rw [ih, mem_insert_iff, List.mem_cons, or_assoc, or_left_comm]

theorem mem_push_pending :
    x ∈ (push found pending ps).2 ↔ x ∈ pending ∨ (x ∈ ps ∧ x ∉ found) := by
  induction ps generalizing found pending with
  | nil => simp [push]
  | cons p ps ih =>
    rw [push]
    split
    · rename_i hp
      rw [ih, List.mem_cons]
      grind
    · rename_i hp
      rw [ih, List.mem_cons, List.mem_cons, mem_insert_iff]
      grind

def todo (U : Finset α) (found : BTreeSet α) (pending : List α) : Nat :=
  (U.filter (· ∉ found)).card + pending.length

theorem push_todo (hps : ∀ p ∈ ps, p ∈ U) :
    todo U (push found pending ps).1 (push found pending ps).2 ≤ todo U found pending := by
  induction ps generalizing found pending with
  | nil => exact Nat.le_refl _
  | cons p ps ih =>
    have hps' : ∀ q ∈ ps, q ∈ U := fun q hq => hps q (.tail _ hq)
    rw [push]
    split
    · exact ih hps'
    · rename_i hp
      refine (ih hps').trans ?_
      have hlt : Dfs.left U { visiting := ∅, visited := found.insert p } <
          Dfs.left U { visiting := ∅, visited := found } :=
        Dfs.left_insert (hps p (.head _)) hp fun x => mem_insert_iff
      simp only [todo, List.length_cons]
      simp only [Dfs.left] at hlt
      omega

/-- The invariant of the worklist: `start` and everything found is on the stack or has all its
successors found, and all that was found is reachable. -/
structure Worklist (next : α → List α) (start : α) (found : BTreeSet α) (pending : List α) :
    Prop where
  sound : ∀ x ∈ found, TransGen (Edge next) start x
  stacked : ∀ x ∈ pending, x = start ∨ x ∈ found
  complete : ∀ x, x = start ∨ x ∈ found → x ∈ pending ∨ ∀ y ∈ next x, y ∈ found

theorem Worklist.step {start node : α} (h : Worklist next start found (node :: pending)) :
    Worklist next start (push found pending (next node)).1 (push found pending (next node)).2 := by
  have hnode := h.stacked node (.head _)
  refine ⟨fun x hx => ?_, fun x hx => ?_, fun x hx => ?_⟩
  · rcases mem_push_found.mp hx with hx | hx
    · exact h.sound x hx
    · rcases hnode with rfl | hn
      · exact .single hx
      · exact (h.sound node hn).tail hx
  · rw [mem_push_found]
    rcases mem_push_pending.mp hx with hx | ⟨hx, -⟩
    · exact (h.stacked x (.tail _ hx)).imp_right .inl
    · exact .inr (.inr hx)
  · by_cases hxn : x = node
    · exact .inr fun y hy => mem_push_found.mpr (.inr (hxn ▸ hy))
    · rw [mem_push_found] at hx
      by_cases hf : x = start ∨ x ∈ found
      · rcases h.complete x hf with hp | hall
        · have hp' := (List.mem_cons.mp hp).resolve_left hxn
          exact .inl (mem_push_pending.mpr (.inl hp'))
        · exact .inr fun y hy => mem_push_found.mpr (.inl (hall y hy))
      · rw [not_or] at hf
        have hx' := (hx.resolve_left hf.1).resolve_left hf.2
        exact .inl (mem_push_pending.mpr (.inr ⟨hx', hf.2⟩))

/-- The rule of a search: what pushing the successors of a node keeps holds when the stack is empty,
if what is found and what comes after the stack is in one finite set. -/
theorem close_inv {I : BTreeSet α → List α → Prop}
    (hU : ∀ {found pending}, I found pending → ∀ x ∈ pending, ∀ y ∈ next x, y ∈ U)
    (hstep : ∀ {found node pending}, I found (node :: pending) →
      I (push found pending (next node)).1 (push found pending (next node)).2)
    (hfuel : todo U found pending ≤ fuel) (h : I found pending) :
    I (close next fuel found pending) [] := by
  induction fuel generalizing found pending with
  | zero =>
    cases pending with
    | nil => exact h
    | cons node pending => simp [todo] at hfuel
  | succ fuel ih =>
    cases pending with
    | nil => exact h
    | cons node pending =>
      have hle : todo U (push found pending (next node)).1 (push found pending (next node)).2 ≤
          todo U found pending := push_todo (hU h node (.head _))
      refine ih ?_ (hstep h)
      simp only [todo, List.length_cons] at hfuel hle ⊢
      omega

theorem closes_close (hU : ∀ x ∈ U, ∀ y ∈ next x, y ∈ U) (hpending : ∀ x ∈ pending, x ∈ U)
    (hfuel : todo U found pending ≤ fuel) :
    Closes next found pending (close next fuel found pending) := by
  refine (close_inv (I := fun found' pending' => (∀ x ∈ pending', x ∈ U) ∧
      ∀ out, Closes next found' pending' out → Closes next found pending out)
    (fun h x hx => hU x (h.1 x hx)) (fun {_ node _} h => ⟨fun x hx => ?_, fun out hout => ?_⟩) hfuel
    ⟨hpending, fun _ h => h⟩).2 _ .done
  · rcases mem_push_pending.mp hx with hx | ⟨hx, -⟩
    · exact h.1 x (.tail _ hx)
    · exact hU node (h.1 node (.head _)) x hx
  · exact h.2 out (.step hout)

omit [LawfulEqOrd α] in
theorem todo_singleton_le (U : Finset α) (start : α) : todo U ∅ [start] ≤ U.card + 1 :=
  Nat.add_le_add_right (Finset.card_le_card (Finset.filter_subset ..)) 1

theorem mem_close_of_worklist (hU : ∀ x ∈ U, ∀ y ∈ next x, y ∈ U) {start : α} (hstart : start ∈ U)
    (hfuel : todo U found pending ≤ fuel) (h : Worklist next start found pending) :
    x ∈ close next fuel found pending ↔ TransGen (Edge next) start x := by
  have hreach : ∀ y, TransGen (Edge next) start y → y ∈ U := by
    intro y hy
    induction hy with
    | single hb => exact hU _ hstart _ hb
    | tail _ hbc ih => exact hU _ ih _ hbc
  have hdone := close_inv (fun h x hx y hy => by
    rcases h.stacked x hx with rfl | hf
    · exact hU x hstart y hy
    · exact hU x (hreach x (h.sound x hf)) y hy) Worklist.step hfuel h
  refine ⟨hdone.sound x, fun hx => ?_⟩
  induction hx with
  | single hb => exact ((hdone.complete start (.inl rfl)).resolve_left (by simp)) _ hb
  | tail _ hbc ih => exact ((hdone.complete _ (.inr ih)).resolve_left (by simp)) _ hbc

theorem mem_close_iff (hU : ∀ x ∈ U, ∀ y ∈ next x, y ∈ U) {start : α} (hstart : start ∈ U)
    (hfuel : U.card + 1 ≤ fuel) : x ∈ close next fuel ∅ [start] ↔ TransGen (Edge next) start x := by
  exact mem_close_of_worklist hU hstart ((todo_singleton_le U start).trans hfuel)
    ⟨by simp, by simp, by simp⟩

structure Spread (next : α → List α) (seeds found : BTreeSet α) (pending : List α) : Prop where
  kept : ∀ x ∈ seeds, x ∈ found
  sound : ∀ x ∈ found, ∃ s ∈ seeds, ReflTransGen (Edge next) s x
  stacked : ∀ x ∈ pending, x ∈ found
  complete : ∀ x ∈ found, x ∈ pending ∨ ∀ y ∈ next x, y ∈ found

theorem Spread.step {seeds found : BTreeSet α} (h : Spread next seeds found (node :: pending)) :
    Spread next seeds (push found pending (next node)).1 (push found pending (next node)).2 := by
  have hnode := h.stacked node (.head _)
  refine ⟨fun x hx => ?_, fun x hx => ?_, fun x hx => ?_, fun x hx => ?_⟩
  · exact mem_push_found.mpr (.inl (h.kept x hx))
  · rcases mem_push_found.mp hx with hx | hx
    · exact h.sound x hx
    · obtain ⟨s, hs, hreach⟩ := h.sound node hnode
      exact ⟨s, hs, hreach.tail hx⟩
  · rw [mem_push_found]
    rcases mem_push_pending.mp hx with hx | ⟨hx, -⟩
    · exact .inl (h.stacked x (.tail _ hx))
    · exact .inr hx
  · by_cases hxn : x = node
    · exact .inr fun y hy => mem_push_found.mpr (.inr (hxn ▸ hy))
    by_cases hf : x ∈ found
    · rcases h.complete x hf with hp | hall
      · have hp' := (List.mem_cons.mp hp).resolve_left hxn
        exact .inl (mem_push_pending.mpr (.inl hp'))
      · exact .inr fun y hy => mem_push_found.mpr (.inl (hall y hy))
    · exact .inl (mem_push_pending.mpr (.inr ⟨(mem_push_found.mp hx).resolve_left hf, hf⟩))

theorem mem_close_of_spread (hU : ∀ x, ∀ y ∈ next x, y ∈ U) {seeds found : BTreeSet α}
    (hfuel : todo U found pending ≤ fuel) (h : Spread next seeds found pending) :
    x ∈ close next fuel found pending ↔ ∃ s ∈ seeds, ReflTransGen (Edge next) s x := by
  have hdone := close_inv (fun _ x _ => hU x) Spread.step hfuel h
  refine ⟨hdone.sound x, ?_⟩
  rintro ⟨s, hs, hreach⟩
  induction hreach with
  | refl => exact hdone.kept s hs
  | tail _ hbc ih => exact ((hdone.complete _ ih).resolve_left (by simp)) _ hbc

/-- `close` from a set of nodes finds what is reachable from them, the nodes included. `keys` has
every node with a successor and every successor. -/
theorem mem_close_seeds {keys seeds : BTreeSet α} (hkeys : ∀ x, ∀ y ∈ next x, y ∈ keys) :
    x ∈ close next (seeds.size + keys.size) seeds seeds.toList.reverse ↔
      ∃ s ∈ seeds, ReflTransGen (Edge next) s x := by
  classical
  refine mem_close_of_spread (U := keys.toList.toFinset) ?_ ?_ ?_
  · intro x y hy
    simpa using hkeys x y hy
  · have hcard := (Finset.card_filter_le keys.toList.toFinset (· ∉ seeds)).trans
      (List.toFinset_card_le _)
    rw [todo, List.length_reverse, ExtTreeSet.length_toList]
    rw [ExtTreeSet.length_toList] at hcard
    omega
  · exact ⟨fun _ hx => hx, fun y hy => ⟨y, hy, .refl⟩, fun y hy => by simpa using hy,
      fun y hy => .inl (by simpa using hy)⟩

section Saturation

variable [DecidableEq α]

def saturate (widen : BTreeSet α → BTreeSet α) : Nat → BTreeSet α → BTreeSet α
  | 0, s => s
  | fuel + 1, s =>
    let widened := widen s
    if widened.toList = s.toList then s else saturate widen fuel widened

variable {widen : BTreeSet α → BTreeSet α}

omit [LawfulEqOrd α] in
theorem saturate_inv {I : BTreeSet α → Prop} (hwiden : ∀ s, I s → I (widen s)) {fuel : Nat}
    {s : BTreeSet α} (hs : I s) : I (saturate widen fuel s) := by
  induction fuel generalizing s with
  | zero => exact hs
  | succ fuel ih =>
    rw [saturate]
    split
    · exact hs
    · exact ih (hwiden s hs)

theorem saturate_fixed {U : BTreeSet α} (hgrows : ∀ s, ∀ x ∈ s, x ∈ widen s)
    (hU : ∀ s, (∀ x ∈ s, x ∈ U) → ∀ x ∈ widen s, x ∈ U) {fuel : Nat} {s : BTreeSet α}
    (hs : ∀ x ∈ s, x ∈ U) (hfuel : U.size < s.size + fuel) :
    widen (saturate widen fuel s) = saturate widen fuel s := by
  induction fuel generalizing s with
  | zero =>
    have hle := size_le_of_subset hs
    omega
  | succ fuel ih =>
    rw [saturate]
    split
    · rename_i hsame
      exact ExtTreeSet.toList_inj.mp hsame
    · rename_i hne
      refine ih (hU s hs) ?_
      have hle := size_le_of_subset (hgrows s)
      have hlt : s.size ≠ (widen s).size := by
        intro hsize
        have hback := (size_eq_iff_of_subset (hgrows s)).mp hsize
        exact hne (ExtTreeSet.toList_inj.mpr (ExtTreeSet.ext_mem fun x => ⟨hback x, hgrows s x⟩))
      omega

end Saturation

omit [Ord α] [TransOrd α] [LawfulEqOrd α] in
theorem exists_source {R : α → α → Prop} {S : Set α} (hS : S.Finite) (hmem : ∀ x y, R x y → x ∈ S)
    (hacyclic : ∀ x, ¬ TransGen R x x) (a : α) :
    ∃ m, ReflTransGen R m a ∧ ∀ x, ¬ R x m := by
  have horder : IsStrictOrder α (TransGen R) :=
    { irrefl := hacyclic, trans := fun _ _ _ => TransGen.trans }
  have hwf := Set.wellFoundedOn_iff.mp (hS.wellFoundedOn (r := TransGen R))
  by_cases htop : ∀ x, ¬ R x a
  · exact ⟨a, .refl, htop⟩
  · obtain ⟨x, hx⟩ := not_forall_not.mp htop
    -- the least of the nodes strictly before `a`
    obtain ⟨m, ⟨hm, hma⟩, hleast⟩ := hwf.has_min {x | x ∈ S ∧ TransGen R x a}
      ⟨x, hmem x a hx, .single hx⟩
    refine ⟨m, hma.to_reflTransGen, ?_⟩
    intro y hy
    exact hleast y ⟨hmem y m hy, .head hy hma⟩ ⟨.single hy, hmem y m hy, hm⟩

end Search
