import Pointbreak.Projection.Lifecycle

/-!
# Projection.Obligations

Which operative requests remain obligations of a Change. A request is discharged by one response, or
by ports that carry it open to exactly the current Revisions. When no Revision is current, a request
that nobody answered or carried is discharged by the empty set. And a chain of carries works only if
the request's own ports lead to the current Revision, so it stops working when the Change advances a
second time.
-/

namespace Pointbreak

open Std KeyedLog Relation ChangeProjectionFact List

section Unanswered

variable {F : List ChangeProjectionFact} {c : ChangeId} {q : InputRequestId} {r : RevisionId}

variable {counted : InputRequestId → Option RevisionId}

theorem not_carriedTo (hport : ∀ port, .factPort port ∈ F → port.relation = .carriedOpenAs →
      port.originFact ≠ .inputRequest q) (t : RevisionId) : ¬ CarriedTo F counted q t := by
  rintro ⟨port, _, hmem, ⟨horigin, hrel, _⟩, _⟩
  exact hport port hmem hrel horigin

theorem obliged_of_uncarried (hq : counted q = some r) (hr : ActiveMember F c r)
    (hport : ∀ t, ¬ CarriedTo F counted q t) :
    Obliged F counted c q ↔
      2 ≤ responses F q ∨ responses F q = 0 ∧ ∃ t, CurrentMember F c t := by
  have hall : (∀ t, CarriedTo F counted q t ↔ CurrentMember F c t) ↔
      ¬ ∃ t, CurrentMember F c t := by
    simp [hport]
  constructor
  · rintro ⟨_, _, _, h⟩
    rwa [hall, not_not] at h
  · intro h
    refine ⟨r, hq, hr, ?_⟩
    rwa [hall, not_not]

variable {V : Type} {rt : Runtime V} {E : List (ShoreEvent V)} {v : ChangeView}

/-- An operative request on a member that nobody answers or carries is kept exactly when the
Change has a current Revision. -/
theorem unanswered_obligation_iff (hv : changeView rt E c = some v)
    (hopen : .operativeRequest q r ∈ facts rt E) (hr : r ∈ v.members)
    (hone : ∀ r', .operativeRequest q r' ∈ facts rt E → r' = r)
    (hresp : .requestResponse q ∉ facts rt E)
    (hport : ∀ port, .factPort port ∈ facts rt E → port.relation = .carriedOpenAs →
      port.originFact ≠ .inputRequest q) :
    (q ∈ v.operativeObligations ∧ v.lifecycle ≠ .accepted) ↔
      ∃ t, CurrentMember (facts rt E) c t := by
  have hspec := changeView_spec hv
  have hzero : responses (facts rt E) q = 0 := count_eq_zero.mpr hresp
  have hobl : q ∈ v.operativeObligations ↔ ∃ t, CurrentMember (facts rt E) c t := by
    rw [hspec.obligations, obliged_of_uncarried (lastOpening_of_unique hopen hone)
      ((hspec.members r).mp hr) (not_carriedTo hport), hzero]
    simp
  rw [← hobl]
  constructor
  · intro h
    exact h.1
  · intro h
    refine ⟨h, ?_⟩
    intro hacc
    exact (hspec.accepted_iff.mp hacc).2.2.2 q ((hspec.obligations q).mp h)

end Unanswered

section Cycle

open Recorded

/-- Two members that replace each other, with an unanswered request on one of them. -/
def cyclic : List (ShoreEvent WirePayload) :=
  journal 1 [declared 1, proposed 1, proposed 2, member 1 1, member 1 2, supersedes 1 2 1,
    supersedes 1 1 2, opened 1 1]

theorem cyclic_drops_request : .operativeRequest (request 1) (rev 1) ∈ facts runtime cyclic ∧
      (∀ f ∈ facts runtime cyclic, f.responseEntry = none ∧ f.portEntry = none) ∧
      Functional ChangeProjectionFact.requestEntry (facts runtime cyclic) ∧
      ∃ v, changeView runtime cyclic (change 1) = some v ∧ rev 1 ∈ v.members ∧
        request 1 ∉ v.operativeObligations := by
  decide +kernel

def replaced : List (ShoreEvent WirePayload) :=
  journal 1 [declared 1, proposed 1, proposed 2, member 1 1, member 1 2, supersedes 1 2 1,
    opened 1 1]

theorem replaced_keeps_request : ∃ v, changeView runtime replaced (change 1) = some v ∧
      request 1 ∈ v.operativeObligations ∧ v.lifecycle ≠ .accepted := by
  have hrun : (.operativeRequest (request 1) (rev 1) ∈ facts runtime replaced ∧
      (∀ f ∈ facts runtime replaced, f.responseEntry = none ∧ f.portEntry = none) ∧
      Functional requestEntry (facts runtime replaced)) ∧
      ∃ v, changeView runtime replaced (change 1) = some v ∧ rev 1 ∈ v.members ∧
        rev 2 ∈ v.currentRevisions := by decide +kernel
  obtain ⟨⟨hopen, hnone, hone⟩, v, hv, hmem, hcur⟩ := hrun
  refine ⟨v, hv, (unanswered_obligation_iff hv hopen hmem ?_ ?_ ?_).mpr
    ⟨rev 2, ((changeView_spec hv).current _).mp hcur⟩⟩
  · intro r' hr'
    exact hone (request 1) r' (mem_openings.mpr hr') (rev 1) (mem_openings.mpr hopen)
  · intro hresp
    exact absurd (hnone _ hresp).1 (by simp [responseEntry])
  · intro port hmem
    exact absurd (hnone _ hmem).2 (by simp [portEntry])

end Cycle

/-- `q` is carried open as `q'`, which is opened on the Revision the port names. -/
def CarriedAs (F : List ChangeProjectionFact) (q q' : InputRequestId) : Prop :=
  ∃ port t, .factPort port ∈ F ∧ CarriesOpen port q q' t ∧ .operativeRequest q' t ∈ F

/-- A chain of carries from a request on a member to `target` on `r`, the only current Revision of
a complete and acyclic Change. -/
structure CarryChain (F : List ChangeProjectionFact) (v : ChangeView) (r : RevisionId)
    (origins : List InputRequestId) (target : InputRequestId) : Prop where
  complete : v.topology ≠ .incomplete
  acyclic : v.topology ≠ .cycleConflicted
  current : ∀ t, t ∈ v.currentRevisions ↔ t = r
  departs : ∃ q ∈ origins.head?, ∃ s ∈ v.members, .operativeRequest q s ∈ F
  carried : (origins ++ [target]).IsChain (CarriedAs F)
  arrives : .operativeRequest target r ∈ F

section Chain

variable (F : List ChangeProjectionFact) (c : ChangeId) (r : RevisionId) (q : InputRequestId)

def CountedOnMember : Prop := ∃ s, lastOpening F q = some s ∧ ActiveMember F c s

def CarriedOnlyTo : Prop := ∀ t, CarriedTo F (lastOpening F) q t ↔ t = r

/-- The Change has nothing to answer for: the request counts on no member, has one response, or
has none and its own ports lead to the current Revision alone. -/
def Relieved : Prop :=
  ¬ CountedOnMember F c q ∨ responses F q = 1 ∨ responses F q = 0 ∧ CarriedOnlyTo F r q

def HeldOpen : Prop :=
  responses F q = 1 ∨
    CountedOnMember F c q ∧ (2 ≤ responses F q ∨ ¬ CarriedOnlyTo F r q)

variable {F c r q}

theorem obliged_iff_of_current (hcur : ∀ t, CurrentMember F c t ↔ t = r) :
    Obliged F (lastOpening F) c q ↔ CountedOnMember F c q ∧
      (2 ≤ responses F q ∨ responses F q = 0 ∧ ¬ CarriedOnlyTo F r q) := by
  unfold Obliged CountedOnMember CarriedOnlyTo
  simp only [hcur]
  constructor
  · rintro ⟨s, hs, hmem, h⟩
    exact ⟨⟨s, hs, hmem⟩, h⟩
  · rintro ⟨⟨s, hs, hmem⟩, h⟩
    exact ⟨s, hs, hmem, h⟩

theorem not_obliged_iff_relieved (hcur : ∀ t, CurrentMember F c t ↔ t = r) :
    ¬ Obliged F (lastOpening F) c q ↔ Relieved F c r q := by
  rw [obliged_iff_of_current hcur, Relieved]
  have hlt : ¬ 2 ≤ responses F q ↔ responses F q = 0 ∨ responses F q = 1 := by omega
  by_cases h0 : responses F q = 0
  · simp [h0, imp_iff_not_or]
  · simp [h0, hlt, imp_iff_not_or]

theorem obliged_iff_heldOpen (hcur : ∀ t, CurrentMember F c t ↔ t = r) :
    (Obliged F (lastOpening F) c q ↔ responses F q ≠ 1) ↔ HeldOpen F c r q := by
  rw [obliged_iff_of_current hcur, HeldOpen]
  by_cases hm : CountedOnMember F c q
  · by_cases hc : CarriedOnlyTo F r q
    · simp only [hm, hc, not_true_eq_false, and_false, or_false, true_and]
      omega
    · simp only [hm, hc, not_false_eq_true, and_true, true_and, or_true, iff_true]
      omega
  · simp [hm]

variable {V : Type} {rt : Runtime V} {E : List (ShoreEvent V)} {v : ChangeView}
  {origins : List InputRequestId} {target : InputRequestId}

/-- A chain of carries moves the obligation to its last request exactly when every request before
it is relieved by itself. -/
theorem carryChain_iff (hv : changeView rt E c = some v)
    (h : CarryChain (facts rt E) v r origins target) :
    ((∀ q ∈ origins, q ∉ v.operativeObligations) ∧
      (target ∈ v.operativeObligations ↔ responses (facts rt E) target ≠ 1)) ↔
    (∀ q ∈ origins, Relieved (facts rt E) c r q) ∧ HeldOpen (facts rt E) c r target := by
  have hspec := changeView_spec hv
  have hcur : ∀ t, CurrentMember (facts rt E) c t ↔ t = r := by
    intro t
    rw [← hspec.current, h.current]
  simp only [hspec.obligations, not_obliged_iff_relieved hcur, obliged_iff_heldOpen hcur]

theorem exists_next {α : Type} {R : α → α → Prop} {l : List α} {last a : α}
    (h : (l ++ [last]).IsChain R) (ha : a ∈ l) : ∃ b, R a b := by
  induction l with
  | nil => cases ha
  | cons b l ih =>
    cases l with
    | nil =>
      obtain rfl := mem_singleton.mp ha
      exact ⟨last, (isChain_cons_cons.mp h).1⟩
    | cons b' l =>
      obtain ⟨hstep, hrest⟩ := isChain_cons_cons.mp h
      rcases mem_cons.mp ha with rfl | ha
      · exact ⟨b', hstep⟩
      · exact ih hrest ha

/-- A chain of unanswered requests on members, each opened on one Revision, frees those before the
last exactly when all that carries them open leads to the current Revision. A chain by way of a
Revision that was replaced does not. -/
theorem carryChain_frees_iff (hv : changeView rt E c = some v)
    (h : CarryChain (facts rt E) v r origins target)
    (hone : Functional requestEntry (facts rt E))
    (hmember : ∀ q ∈ origins, ∃ s ∈ v.members, .operativeRequest q s ∈ facts rt E)
    (hresp : ∀ q ∈ origins, responses (facts rt E) q = 0) :
    (∀ q ∈ origins, q ∉ v.operativeObligations) ↔
      ∀ q ∈ origins, ∀ port q' t, .factPort port ∈ facts rt E → CarriesOpen port q q' t →
        .operativeRequest q' t ∈ facts rt E → t = r := by
  have hspec := changeView_spec hv
  have hcur : ∀ t, CurrentMember (facts rt E) c t ↔ t = r := by
    intro t
    rw [← hspec.current, h.current]
  have hcounted : ∀ {q s}, lastOpening (facts rt E) q = some s ↔
      .operativeRequest q s ∈ facts rt E := by
    intro q s
    refine ⟨fun hlast => mem_openings.mp (mem_of_getLast? hlast), fun hopen => ?_⟩
    exact lastOpening_of_unique hopen fun s' hs' =>
      hone q s' (mem_openings.mpr hs') s (mem_openings.mpr hopen)
  refine forall₂_congr fun q hq => ?_
  obtain ⟨s, hs, hopen⟩ := hmember q hq
  have hon : CountedOnMember (facts rt E) c q :=
    ⟨s, hcounted.mpr hopen, (hspec.members s).mp hs⟩
  rw [hspec.obligations, not_obliged_iff_relieved hcur, Relieved, hresp q hq]
  simp only [hon, not_true_eq_false, false_or, Nat.zero_ne_one, true_and]
  constructor
  · intro honly port q' t hport hcarries hopen'
    exact (honly t).mp ⟨port, q', hport, hcarries, hcounted.mpr hopen'⟩
  · intro hall t
    constructor
    · rintro ⟨port, q', hport, hcarries, hlast⟩
      exact hall port q' t hport hcarries (hcounted.mp hlast)
    · rintro rfl
      obtain ⟨q', port, t', hport, hcarries, hopen'⟩ := exists_next h.carried hq
      obtain rfl := hall port q' t' hport hcarries hopen'
      exact ⟨port, q', hport, hcarries, hcounted.mpr hopen'⟩

end Chain

section SecondAdvance

open Recorded

/-- Request 1 on Revision 1 is carried to Revision 2 and from there to Revision 3, as each
replaces the one before. -/
def advancedTwice : List (ShoreEvent WirePayload) :=
  journal 1 [declared 1, proposed 1, proposed 2, proposed 3, member 1 1, member 1 2, member 1 3,
    supersedes 1 2 1, supersedes 1 3 2, opened 1 1, opened 2 2, opened 3 3, carried 1 1 2 2,
    carried 2 2 3 3]

def advancedOnce : List (ShoreEvent WirePayload) :=
  journal 1 [declared 1, proposed 1, proposed 2, member 1 1, member 1 2, supersedes 1 2 1,
    opened 1 1, opened 2 2, carried 1 1 2 2]

theorem carriesOpen_port (q o q' t : Nat) :
    CarriesOpen (port q o q' t) (request q) (request q') (rev t) :=
  ⟨rfl, rfl, rfl, rfl⟩

theorem carryChain_of_run {F : List ChangeProjectionFact} {v : ChangeView} {r : RevisionId}
    {origins : List InputRequestId} {q target : InputRequestId} {s : RevisionId}
    (hview : v.topology = .replacement ∧ v.currentRevisions = BTreeSet.collect [r] ∧ s ∈ v.members)
    (hq : origins.head? = some q) (hs : .operativeRequest q s ∈ F)
    (hcarried : (origins ++ [target]).IsChain (CarriedAs F))
    (harrives : .operativeRequest target r ∈ F) : CarryChain F v r origins target := by
  obtain ⟨htop, hcur, hmem⟩ := hview
  refine ⟨?_, ?_, ?_, ⟨q, hq, s, hmem, hs⟩, hcarried, harrives⟩
  · rw [htop]
    decide
  · rw [htop]
    decide
  · intro t
    rw [hcur, BTreeSet.mem_collect, mem_singleton]

theorem second_advance_reopens : ∃ v, changeView runtime advancedTwice (change 1) = some v ∧
      CarryChain (facts runtime advancedTwice) v (rev 3) [request 1, request 2] (request 3) ∧
      request 1 ∈ v.operativeObligations := by
  have hrun : (.operativeRequest (request 1) (rev 1) ∈ facts runtime advancedTwice ∧
      .operativeRequest (request 2) (rev 2) ∈ facts runtime advancedTwice ∧
      .operativeRequest (request 3) (rev 3) ∈ facts runtime advancedTwice ∧
      .factPort (port 1 1 2 2) ∈ facts runtime advancedTwice ∧
      .factPort (port 2 2 3 3) ∈ facts runtime advancedTwice) ∧
      ∃ v ∈ changeView runtime advancedTwice (change 1),
        (v.topology = .replacement ∧ v.currentRevisions = BTreeSet.collect [rev 3] ∧
          rev 1 ∈ v.members) ∧ request 1 ∈ v.operativeObligations := by decide +kernel
  obtain ⟨⟨hopen1, hopen2, hopen3, hport1, hport2⟩, v, hv, hfields, hobl⟩ := hrun
  refine ⟨v, hv, carryChain_of_run hfields rfl hopen1 ?_ hopen3, hobl⟩
  exact .cons_cons ⟨_, _, hport1, carriesOpen_port 1 1 2 2, hopen2⟩
    (.cons_cons ⟨_, _, hport2, carriesOpen_port 2 2 3 3, hopen3⟩ (.singleton _))

theorem first_advance_carries : ∃ v, changeView runtime advancedOnce (change 1) = some v ∧
      request 1 ∉ v.operativeObligations ∧ request 2 ∈ v.operativeObligations := by
  have hrun : (.operativeRequest (request 1) (rev 1) ∈ facts runtime advancedOnce ∧
      .operativeRequest (request 2) (rev 2) ∈ facts runtime advancedOnce ∧
      .factPort (port 1 1 2 2) ∈ facts runtime advancedOnce) ∧
      (responses (facts runtime advancedOnce) (request 1) = 0 ∧
        responses (facts runtime advancedOnce) (request 2) = 0) ∧
      (carriedTo (foldFacts (facts runtime advancedOnce)) (request 1) = BTreeSet.collect [rev 2] ∧
        carriedTo (foldFacts (facts runtime advancedOnce)) (request 2) = ∅ ∧
        lastOpening (facts runtime advancedOnce) (request 2) = some (rev 2)) ∧
      ∃ v ∈ changeView runtime advancedOnce (change 1),
        (v.topology = .replacement ∧ v.currentRevisions = BTreeSet.collect [rev 2] ∧
          rev 1 ∈ v.members) ∧ rev 2 ∈ v.members := by decide +kernel
  obtain ⟨⟨hopen1, hopen2, hport⟩, ⟨hresp1, hresp2⟩, ⟨hto1, hto2, hcounted⟩, v, hv, hfields,
    hmem⟩ := hrun
  have hchain : CarryChain (facts runtime advancedOnce) v (rev 2) [request 1] (request 2) :=
    carryChain_of_run hfields rfl hopen1
      (.cons_cons ⟨_, _, hport, carriesOpen_port 1 1 2 2, hopen2⟩ (.singleton _)) hopen2
  have hrelieved : ∀ q ∈ [request 1], Relieved (facts runtime advancedOnce) (change 1) (rev 2) q := by
    intro q hq
    obtain rfl := mem_singleton.mp hq
    refine .inr (.inr ⟨hresp1, ?_⟩)
    intro t
    rw [← mem_carriedTo, hto1, BTreeSet.mem_collect, mem_singleton]
  have hheld : HeldOpen (facts runtime advancedOnce) (change 1) (rev 2) (request 2) := by
    refine .inr ⟨⟨rev 2, hcounted, ((changeView_spec hv).members _).mp hmem⟩, .inr ?_⟩
    intro honly
    have ht := mem_carriedTo.mpr ((honly (rev 2)).mpr rfl)
    rw [hto2] at ht
    exact ExtTreeSet.not_mem_empty ht
  obtain ⟨hgone, hkept⟩ := (carryChain_iff hv hchain).mpr ⟨hrelieved, hheld⟩
  refine ⟨v, hv, hgone _ (.head _), hkept.mpr ?_⟩
  rw [hresp2]
  decide

end SecondAdvance

end Pointbreak
