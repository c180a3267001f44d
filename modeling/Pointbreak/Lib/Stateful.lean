import Mathlib.Logic.Relation

/-!
# Lib.Stateful

Fallible computations over a state that stays as it is when they fail. `Moves R x` says that every
run of `x`, successful or not, takes the state along `R`; for a reflexive and transitive `R` it goes
through sequencing and loops.
-/

namespace Stateful

variable {ε σ α β : Type}

def finalState : EStateM.Result ε σ α → σ
  | .ok _ s => s
  | .error _ s => s

@[simp] theorem finalState_ok (a : α) (s : σ) : finalState (.ok a s : EStateM.Result ε σ α) = s :=
  rfl

@[simp] theorem finalState_error (e : ε) (s : σ) :
    finalState (.error e s : EStateM.Result ε σ α) = s := rfl

def outcome : EStateM.Result ε σ α → Except ε α
  | .ok a _ => .ok a
  | .error e _ => .error e

theorem outcome_eq_ok {r : EStateM.Result ε σ α} {a : α} : outcome r = .ok a ↔ ∃ s, r = .ok a s := by
  cases r <;> simp [outcome]

def lift (x : Except ε α) : EStateM ε σ α :=
  match x with
  | .ok a => pure a
  | .error e => throw e

theorem run_lift (x : Except ε α) (s : σ) :
    (lift x : EStateM ε σ α).run s =
      match x with
      | .ok a => .ok a s
      | .error e => .error e s := by
  cases x <;> rfl

theorem run_lift_eq_ok {x : Except ε α} {s s' : σ} {a : α} :
    (lift x : EStateM ε σ α).run s = .ok a s' ↔ x = .ok a ∧ s = s' := by
  rw [run_lift]
  cases x <;> simp

theorem lift_bind (x : Except ε α) (f : α → Except ε β) :
    (lift (x >>= f) : EStateM ε σ β) = lift x >>= fun a => lift (f a) := by
  cases x <;> rfl

variable {x : EStateM ε σ α} {f : α → EStateM ε σ β}

theorem run_bind_eq_ok {s s' : σ} {b : β} :
    (x >>= f).run s = .ok b s' ↔ ∃ a t, x.run s = .ok a t ∧ (f a).run t = .ok b s' := by
  rw [EStateM.run_bind]
  cases x.run s <;> simp [and_assoc]

variable {R : σ → σ → Prop}

/-- Every run, successful or not, takes the state along `R`. -/
def Moves (R : σ → σ → Prop) (x : EStateM ε σ α) : Prop := ∀ s, R s (finalState (x.run s))

theorem Moves.pure (hrefl : ∀ s, R s s) (a : α) : Moves R (pure a : EStateM ε σ α) := hrefl

theorem Moves.throw (hrefl : ∀ s, R s s) (e : ε) : Moves R (throw e : EStateM ε σ α) := hrefl

theorem Moves.lift (hrefl : ∀ s, R s s) (x : Except ε α) : Moves R (lift x : EStateM ε σ α) := by
  intro s
  rw [run_lift]
  cases x <;> exact hrefl s

theorem Moves.of_eq (hrefl : ∀ s, R s s) (h : Moves (· = ·) x) : Moves R x := by
  intro s
  have hs := h s
  rw [← hs]
  exact hrefl s

theorem Moves.bind_of_ok (htrans : ∀ s t u, R s t → R t u → R s u) (hx : Moves R x)
    (hf : ∀ s a t, x.run s = .ok a t → R t (finalState ((f a).run t))) : Moves R (x >>= f) := by
  intro s
  have hs := hx s
  rw [EStateM.run_bind]
  cases hrun : x.run s with
  | ok a t =>
    rw [hrun] at hs
    exact htrans s t _ hs (hf s a t hrun)
  | error e t =>
    rw [hrun] at hs
    exact hs

theorem Moves.bind (htrans : ∀ s t u, R s t → R t u → R s u) (hx : Moves R x)
    (hf : ∀ a, Moves R (f a)) : Moves R (x >>= f) :=
  hx.bind_of_ok htrans fun _ a t _ => hf a t

theorem Moves.foldlM (hrefl : ∀ s, R s s) (htrans : ∀ s t u, R s t → R t u → R s u)
    {step : β → α → EStateM ε σ β} {l : List α} (h : ∀ a ∈ l, ∀ b, Moves R (step b a)) (b : β) :
    Moves R (l.foldlM step b) := by
  induction l generalizing b with
  | nil => exact Moves.pure hrefl b
  | cons a l ih =>
    rw [List.foldlM_cons]
    exact (h a (.head _) b).bind htrans fun b' => ih (fun a' ha' => h a' (.tail _ ha')) b'

theorem Moves.of_ok (h : Moves R x) {s t : σ} {a : α} (hrun : x.run s = .ok a t) : R s t := by
  have hs := h s
  rw [hrun] at hs
  exact hs

theorem unchanged_bind {s : σ} (hx : finalState (x.run s) = s)
    (hok : ∀ a, x.run s = .ok a s → finalState ((f a).run s) = s) :
    finalState ((x >>= f).run s) = s := by
  rw [EStateM.run_bind]
  cases hrun : x.run s with
  | ok a t =>
    rw [hrun] at hx
    obtain rfl : t = s := hx
    exact hok a hrun
  | error e t =>
    rw [hrun] at hx
    exact hx

abbrev ReadsOnly (x : EStateM ε σ α) : Prop := Moves (· = ·) x

namespace ReadsOnly

theorem pure (a : α) : ReadsOnly (pure a : EStateM ε σ α) := fun _ => rfl

theorem lift (x : Except ε α) : ReadsOnly (lift x : EStateM ε σ α) := Moves.lift (fun _ => rfl) x

theorem get : ReadsOnly (get : EStateM ε σ σ) := fun _ => rfl

variable {x : EStateM ε σ α}

theorem bind {f : α → EStateM ε σ β} (hx : ReadsOnly x) (hf : ∀ a, ReadsOnly (f a)) :
    ReadsOnly (x >>= f) := by
  refine Moves.bind ?_ hx hf
  intro s t u hst htu
  exact hst.trans htu

theorem eq_of_ok (h : ReadsOnly x) {s t : σ} {a : α} (hrun : x.run s = .ok a t) : t = s := by
  have hs := h s
  rw [hrun] at hs
  exact hs.symm

theorem unchanged_bind {f : α → EStateM ε σ β} {s : σ} (hx : ReadsOnly x)
    (hok : ∀ a, x.run s = .ok a s → finalState ((f a).run s) = s) :
    finalState ((x >>= f).run s) = s :=
  Stateful.unchanged_bind (hx s).symm hok

end ReadsOnly

end Stateful
