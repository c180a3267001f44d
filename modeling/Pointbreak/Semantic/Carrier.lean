import Pointbreak.Semantic.State

/-!
# Semantic.Carrier

One carrier for each id, from events and from facts. Many families keep of the events under one id
the one with the lowest event id. `CarrierFamily.run` sets the two tables side by side: each record
stands beside the fact of its own event.
-/

namespace Pointbreak

open Std BTreeMap KeyedLog

/-- The type of event that a kind of fact is read off. -/
def KindOf (type : EventType) : SemanticFactKind → Prop
  | .revision _ => type = .workObjectProposed
  | .observation => type = .reviewObservationRecorded
  | .assessment _ => type = .reviewAssessmentRecorded
  | .inputRequestOpened _ => type = .inputRequestOpened
  | .inputRequestResponded _ => type = .inputRequestResponded
  | .validation _ => type = .validationCheckRecorded
  | .commitAssociated _ => type = .revisionCommitAssociated
  | .commitWithdrawn _ => type = .revisionCommitWithdrawn
  | .refAssociated _ => type = .revisionRefAssociated
  | .refWithdrawn _ => type = .revisionRefWithdrawn
  | .artifactRemoved => type = .artifactRemoved
  | .other => True

section Kinds

variable {V : Type} {rt : Runtime V} {e : ShoreEvent V} {f : SemanticFact}

theorem Reads.kindOf {c : ClassifiedFact} (h : Reads rt e c) : KindOf e.eventType c.kind := by
  unfold Reads at h
  cases ht : e.eventType <;> simp only [ht] at h
  case workObjectProposed =>
    obtain ⟨⟨engagement, object⟩, -, rfl⟩ := h
    cases object <;> trivial
  case revisionCommitAssociated =>
    obtain ⟨p, -, rfl⟩ := h
    simp only [ClassifiedFact.commitAssociated]
    split <;> trivial
  case reviewObservationRecorded | reviewAssessmentRecorded | inputRequestOpened |
      inputRequestResponded | validationCheckRecorded | revisionCommitWithdrawn |
      revisionRefAssociated | revisionRefWithdrawn | artifactRemoved =>
    obtain ⟨p, -, rfl⟩ := h
    rfl
  all_goals subst h; trivial

theorem FactOf.kindOf (h : FactOf rt e f) : KindOf e.eventType f.kind := h.reads.kindOf

theorem exists_factOf {E : List (ShoreEvent V)} {facts : List SemanticFact}
    (h : List.Forall₂ (FactOf rt) E facts) (he : e ∈ E) : ∃ f, FactOf rt e f := by
  obtain ⟨i, hi, rfl⟩ := List.getElem_of_mem he
  exact ⟨_, h.get hi (h.length_eq ▸ hi)⟩

end Kinds

/-- How a family reads a record off an event. -/
structure CarrierFamily (V ω κ : Type) where
  recordOf : ShoreEvent V → Option ω
  event : ω → ShoreEvent V
  key : ω → κ
  event_recordOf : ∀ ⦃e w⦄, recordOf e = some w → event w = e

namespace CarrierFamily

variable {V ω κ κ' : Type} [Ord κ] [TransOrd κ] [Ord κ'] [TransOrd κ'] (F : CarrierFamily V ω κ)

def stamp (w : ω) : EventId := (F.event w).eventId

def enter (table : BTreeMap κ ω) (e : ShoreEvent V) : BTreeMap κ ω :=
  (F.recordOf e).elim table fun w => insertLeast compare F.stamp table (F.key w) w

def table (events : List (ShoreEvent V)) : BTreeMap κ ω := events.foldl F.enter ∅

/-- What a fold over facts does with the fact of an event, under the name of its id. -/
def enterFact (name : κ → κ') (facts : BTreeMap κ' SemanticFact) (e : ShoreEvent V)
    (f : SemanticFact) : BTreeMap κ' SemanticFact :=
  (F.recordOf e).elim facts fun w =>
    insertLeast compare SemanticFact.eventId facts (name (F.key w)) f

def enterPair (pairs : BTreeMap κ (ω × SemanticFact)) (e : ShoreEvent V) (f : SemanticFact) :
    BTreeMap κ (ω × SemanticFact) :=
  (F.recordOf e).elim pairs fun w =>
    insertLeast compare (fun v => F.stamp v.1) pairs (F.key w) (w, f)

/-- Two tables side by side: each record stands beside the fact of its event. -/
structure Pairs (rt : Runtime V) (name : κ → κ') (pairs : BTreeMap κ (ω × SemanticFact))
    (table : BTreeMap κ ω) (facts : BTreeMap κ' SemanticFact) : Prop where
  records : Renames id Prod.fst pairs table
  facts : Renames name Prod.snd pairs facts
  carried : ∀ (k : κ) x, pairs[k]? = some x →
    F.recordOf (F.event x.1) = some x.1 ∧ F.key x.1 = k ∧ FactOf rt (F.event x.1) x.2

variable {F} [LawfulEqOrd κ] [LawfulEqOrd κ'] {rt : Runtime V} {name : κ → κ'}
  {pairs : BTreeMap κ (ω × SemanticFact)} {records : BTreeMap κ ω}
  {kept : BTreeMap κ' SemanticFact} {e : ShoreEvent V} {f : SemanticFact}

omit [LawfulEqOrd κ] [LawfulEqOrd κ'] in
theorem Pairs.empty : F.Pairs rt name ∅ ∅ ∅ := by
  refine ⟨.empty, .empty, ?_⟩
  intro k x hx
  simp at hx

theorem Pairs.enter (h : F.Pairs rt name pairs records kept) (hname : Function.Injective name)
    (hf : FactOf rt e f) :
    F.Pairs rt name (F.enterPair pairs e f) (F.enter records e) (F.enterFact name kept e f) := by
  classical
  unfold enterPair CarrierFamily.enter enterFact
  cases hw : F.recordOf e with
  | none => exact h
  | some w =>
    have hevent := F.event_recordOf hw
    simp only [Option.elim_some]
    refine ⟨h.records.insertLeast Function.injective_id _ _ fun _ _ => rfl,
      h.facts.insertLeast hname _ _ ?_, ?_⟩
    · -- the stamps of the facts are the texts of those of the records
      intro x hx
      have hfact := (h.carried _ x hx).2.2.eventId
      simp only [stamp, hevent, hf.eventId, hfact]
      rfl
    · intro k x hx
      unfold insertLeast at hx
      split at hx
      · rw [get_insert] at hx
        split at hx
        · rename_i hk
          cases hx
          exact ⟨by rw [hevent, hw], hk, by rw [hevent]; exact hf⟩
        · exact h.carried k x hx
      · exact h.carried k x hx

variable {E : List (ShoreEvent V)}

/-- The run: a fold over the facts that enters what the events say keeps the facts of the records
that strict replay keeps. -/
theorem run {facts : List SemanticFact} (h : List.Forall₂ (FactOf rt) E facts)
    (hname : Function.Injective name)
    {step : BTreeMap κ' SemanticFact → SemanticFact → SemanticResult (BTreeMap κ' SemanticFact)}
    (hstep : ∀ e ∈ E, ∀ f, FactOf rt e f → ∀ m, step m f = .ok (F.enterFact name m e f)) :
    ∃ pairs kept, facts.foldlM step ∅ = .ok kept ∧ F.Pairs rt name pairs (F.table E) kept := by
  suffices hrun : ∀ pairs records kept, F.Pairs rt name pairs records kept →
      ∃ pairs' kept', facts.foldlM step kept = .ok kept' ∧
        F.Pairs rt name pairs' (E.foldl F.enter records) kept' from hrun ∅ ∅ ∅ .empty
  induction h with
  | nil => exact fun pairs records kept hp => ⟨pairs, kept, rfl, hp⟩
  | @cons e f E facts hf _ ih =>
    intro pairs records kept hp
    have ih' := ih fun e' he' => hstep e' (.tail _ he')
    obtain ⟨pairs', kept', hkept, hp'⟩ := ih' _ _ _ (hp.enter hname hf)
    refine ⟨pairs', kept', ?_, hp'⟩
    rw [List.foldlM_cons, hstep e (.head _) f hf]
    exact hkept

omit [Ord κ'] [TransOrd κ'] [LawfulEqOrd κ'] [LawfulEqOrd κ] in
theorem foldlM_filter_eq_ok {type : EventType} (Fit : ShoreEvent V → Prop)
    {step : BTreeMap κ ω → ShoreEvent V → Result (BTreeMap κ ω)}
    (hskip : ∀ e ∈ E, e.eventType ≠ type → F.recordOf e = none)
    (hfit : ∀ e ∈ E, e.eventType = type → Fit e → ∀ m, step m e = .ok (F.enter m e))
    (hfail : ∀ e ∈ E, e.eventType = type → ¬ Fit e → ∀ m m', step m e ≠ .ok m')
    {table table' : BTreeMap κ ω} :
    (E.filter fun e => e.eventType = type).foldlM step table = .ok table' ↔
      (∀ e ∈ E, e.eventType = type → Fit e) ∧ table' = E.foldl F.enter table := by
  induction E generalizing table with
  | nil => simp [pure, Except.pure, eq_comm]
  | cons e E ih =>
    have ih' := @ih (fun e' he' => hskip e' (.tail _ he'))
      (fun e' he' => hfit e' (.tail _ he'))
      fun e' he' => hfail e' (.tail _ he')
    rw [List.forall_mem_cons, List.foldl_cons, List.filter_cons]
    by_cases ht : e.eventType = type
    · rw [if_pos (decide_eq_true ht), List.foldlM_cons, Result.bind_eq_ok]
      by_cases he : Fit e
      · have hstep := hfit e (.head _) ht he table
        simp [hstep, ih', ht, he]
      · constructor
        · rintro ⟨m, hm, -⟩
          exact absurd hm (hfail e (.head _) ht he table m)
        · rintro ⟨⟨hall, -⟩, -⟩
          exact absurd (hall ht) he
    · have henter : F.enter table e = table := by
        rw [CarrierFamily.enter, hskip e (.head _) ht]
        rfl
      rw [if_neg (by simpa using ht), ih', henter]
      simp [ht]

omit [Ord κ'] [TransOrd κ'] [LawfulEqOrd κ'] in
theorem get_table [DecidableEq κ] (E : List (ShoreEvent V)) (k : κ) :
    (F.table E)[k]?.map (fun w => (F.stamp w, w)) =
      leastOf compare (entries (fun w => some (F.key w, (F.stamp w, w))) k
        (E.filterMap F.recordOf)) := by
  rw [entries_filterMap]
  refine get_foldl (fun (s : BTreeMap κ ω) (k : κ) => s[k]?.map fun w => (F.stamp w, w)) _
    (least compare) ?_ E ∅ k
  intro s e k
  rw [CarrierFamily.enter]
  cases F.recordOf e with
  | none => rfl
  | some w => exact get_insertLeast

variable (F) in
omit [Ord κ] [TransOrd κ] [Ord κ'] [TransOrd κ'] [LawfulEqOrd κ] [LawfulEqOrd κ'] in
/-- The record that stands for a key: that of the least event id. -/
def lead [DecidableEq κ] (E : List (ShoreEvent V)) (k : κ) : Option ω :=
  (leastOf compare (entries (fun w => some (F.key w, (F.stamp w, w))) k
    (E.filterMap F.recordOf))).map Prod.snd

omit [Ord κ'] [TransOrd κ'] [LawfulEqOrd κ'] in
theorem get_table_eq_lead [DecidableEq κ] (E : List (ShoreEvent V)) (k : κ) :
    (F.table E)[k]? = F.lead E k := by
  rw [lead, ← get_table, Option.map_map]
  exact Option.map_id'.symm

omit [Ord κ'] [TransOrd κ'] [LawfulEqOrd κ'] in
theorem of_table [DecidableEq κ] {k : κ} {w : ω} (h : (F.table E)[k]? = some w) :
    F.recordOf (F.event w) = some w ∧ F.key w = k := by
  have hget := get_table (F := F) E k
  rw [h, Option.map_some] at hget
  obtain ⟨x, hx, heq⟩ := mem_entries.mp (leastOf_spec hget.symm).1
  simp only [Option.some.injEq, Prod.mk.injEq] at heq
  obtain ⟨hkey, -, rfl⟩ := heq
  obtain ⟨e, -, he⟩ := List.mem_filterMap.mp hx
  exact ⟨by rw [F.event_recordOf he, he], hkey⟩

end CarrierFamily

end Pointbreak
