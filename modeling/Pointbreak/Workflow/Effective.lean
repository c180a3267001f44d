import Pointbreak.Projection.Lifecycle
import Pointbreak.Projection.Supersession

/-!
# Workflow.Effective

Supersession as the attention surfaces read it. Once a store holds a Change, an edge is an effective
relation of a usable Change whose predecessor is non-current in every Change that holds it, and an
unusable Change counts as holding its members current. The relations of several Changes may form a
cycle together. They still leave every thread a head (`replacement_headed`): up from a superseded
Revision, the first one that is current somewhere is superseded nowhere. The proposals only say
which Revisions there are (`replacement_reproposed`).
-/

namespace Pointbreak

open Std KeyedLog Relation SupersessionView BTreeMap List

structure AttentionSupersession where
  replacement : SupersessionView
  competition : SupersessionView

/-- A Change whose current set can be trusted. -/
def ChangeView.isUsable (view : ChangeView) : Bool :=
  match view.topology with
  | .incomplete | .cycleConflicted => false
  | _ => true

def holdingViews (changes : ChangeProjection) : BTreeMap RevisionId (List ChangeView) :=
  changes.changes.vals.foldl (fun holding view =>
    view.members.toList.foldl (fun holding member =>
      holding.alter member fun views => some (views.getD [] ++ [view])) holding) ∅

def currentSomewhere (changes : ChangeProjection) (r : RevisionId) : Bool :=
  (holdingViews changes)[r]?.any fun views => views.any fun view =>
    !view.isUsable || decide (r ∈ view.currentRevisions)

def admitted (changes : ChangeProjection) (known : BTreeSet RevisionId) (view : ChangeView)
    (relation : RevisionId × RevisionId) : Bool :=
  decide (relation.1 ∈ view.members) && decide (relation.2 ∈ view.members) &&
    decide (relation.1 ∈ known) && decide (relation.2 ∈ known) &&
    !currentSomewhere changes relation.2

def admittedEdges (changes : ChangeProjection) (known : BTreeSet RevisionId) : RevisionEdges :=
  (changes.changes.vals.filter ChangeView.isUsable).foldl (fun edges view =>
    view.supersedes.toList.foldl (fun edges relation =>
      if admitted changes known view relation then edges.addTo relation.1 relation.2
      else edges) edges)
    (BTreeMap.collect (known.toList.map fun r => (r, ∅)))

def SupersessionView.known (view : SupersessionView) : BTreeSet RevisionId :=
  BTreeSet.collect (view.components.flatMap fun component => component.toList)

def SupersessionView.clearCycles (view : SupersessionView) : SupersessionView :=
  { view with
    cycleRevisions := ∅,
    diagnostics := view.diagnostics.filter fun d => d.code ≠ supersessionCycleCode }

def changeAwareSupersession (legacy : SupersessionView) (changes : ChangeProjection) :
    AttentionSupersession :=
  if changes.changes.isEmpty then { replacement := legacy, competition := legacy }
  else
    let edges := (admittedEdges changes legacy.known).toList.map fun edge =>
      (edge.1, edge.2.toList)
    -- a loop in the edges is two valid histories crossing, so it is not reported
    { replacement := (SupersessionView.fromEdges edges).clearCycles,
      competition := .fromEdges (legacy.known.toList.map fun r => (r, [])) }

def SupersessionView.changeAware (legacy : SupersessionView) (changes : ChangeProjection) :
    SupersessionView :=
  (changeAwareSupersession legacy changes).replacement

def SupersessionView.replacementFromEvents {V : Type} (rt : Runtime V)
    (events : List (ShoreEvent V)) : Result SupersessionView := do
  let legacy ← SupersessionView.fromEvents rt events
  let changes ← projectChanges rt events
  .ok (legacy.changeAware changes)

section Edges

variable {changes : ChangeProjection} {known : BTreeSet RevisionId} {r : RevisionId}

theorem mem_holdingViews {view : ChangeView} :
    (∃ views, (holdingViews changes)[r]? = some views ∧ view ∈ views) ↔
      view ∈ changes.changes.vals ∧ r ∈ view.members := by
  have hpairs : holdingViews changes =
      grouped Prod.fst Prod.snd (changes.changes.vals.flatMap fun view =>
        view.members.toList.map fun r => (r, view)) := by
    simp only [holdingViews, grouped, foldl_flatMap, foldl_map]
  rw [hpairs, mem_grouped]
  simp only [mem_flatMap, mem_map, BTreeSet.mem_toList_iff]
  constructor
  · rintro ⟨_, ⟨view, hview, r, hr, heq⟩, hkey, hval⟩
    subst heq hkey hval
    exact ⟨hview, hr⟩
  · rintro ⟨hview, hr⟩
    exact ⟨(r, view), ⟨view, hview, r, hr, rfl⟩, rfl, rfl⟩

/-- Some Change keeps the Revision current, or cannot be trusted about it. -/
def CurrentSomewhere (changes : ChangeProjection) (r : RevisionId) : Prop :=
  ∃ view ∈ changes.changes.vals, r ∈ view.members ∧
    (view.isUsable = false ∨ r ∈ view.currentRevisions)

theorem currentSomewhere_iff : currentSomewhere changes r = true ↔ CurrentSomewhere changes r := by
  simp only [currentSomewhere, Option.any_eq_true, any_eq_true, Bool.or_eq_true,
    Bool.not_eq_true', decide_eq_true_eq, ← exists_and_left]
  rw [exists_comm]
  simp [← and_assoc, mem_holdingViews, CurrentSomewhere]

/-- An edge of the replacement graph. -/
def Admits (changes : ChangeProjection) (known : BTreeSet RevisionId) (s p : RevisionId) : Prop :=
  ∃ view ∈ changes.changes.vals, view.isUsable = true ∧ (s, p) ∈ view.supersedes ∧
    s ∈ view.members ∧ p ∈ view.members ∧ s ∈ known ∧ p ∈ known ∧ ¬ CurrentSomewhere changes p

variable {s p : RevisionId}

def admittedRelations (changes : ChangeProjection) (known : BTreeSet RevisionId) :
    List (RevisionId × RevisionId) :=
  (changes.changes.vals.filter ChangeView.isUsable).flatMap fun view =>
    view.supersedes.toList.filter (admitted changes known view)

theorem admittedEdges_eq : admittedEdges changes known =
    (admittedRelations changes known).foldl (fun edges relation =>
      edges.addTo relation.1 relation.2) (BTreeMap.collect (known.toList.map fun r => (r, ∅))) := by
  simp only [admittedEdges, admittedRelations, foldl_flatMap, foldl_filter]

theorem mem_admittedRelations :
    (s, p) ∈ admittedRelations changes known ↔ Admits changes known s p := by
  simp [admittedRelations, Admits, admitted, and_assoc,
    ← Bool.not_eq_true (currentSomewhere changes p), currentSomewhere_iff]

theorem get_roots {targets : BTreeSet RevisionId} :
    (BTreeMap.collect (known.toList.map fun r => (r, (∅ : BTreeSet RevisionId))))[r]? =
      some targets ↔ r ∈ known ∧ targets = ∅ := by
  rw [get_collect, mem_map]
  · simp only [Prod.mk.injEq, BTreeSet.mem_toList_iff]
    constructor
    · rintro ⟨_, hr, heq, ht⟩
      exact ⟨heq ▸ hr, ht.symm⟩
    · rintro ⟨hr, ht⟩
      exact ⟨r, hr, rfl, ht.symm⟩
  · rw [List.map_map]
    exact (List.map_id known.toList).symm ▸ BTreeSet.nodup_toList

theorem mem_admittedEdges : r ∈ admittedEdges changes known ↔ r ∈ known := by
  have hroots : r ∈ BTreeMap.collect (known.toList.map fun r => (r, (∅ : BTreeSet RevisionId))) ↔
      r ∈ known := by
    simp [mem_iff, get_roots]
  rw [admittedEdges_eq, mem_foldl_addTo, hroots, or_iff_right_of_imp]
  rintro ⟨p, hp⟩
  obtain ⟨_, _, _, _, _, _, hr, _⟩ := mem_admittedRelations.mp hp
  exact hr

theorem mem_setAt_admittedEdges :
    p ∈ (admittedEdges changes known).setAt s ↔ Admits changes known s p := by
  rw [admittedEdges_eq, mem_setAt_foldl_addTo, mem_admittedRelations, or_iff_left]
  intro h
  obtain ⟨targets, htargets, hp⟩ := mem_setAt_iff.mp h
  rw [(get_roots.mp htargets).2] at hp
  exact ExtTreeSet.not_mem_empty hp

def replacementEdges (changes : ChangeProjection) (known : BTreeSet RevisionId) :
    List (RevisionId × List RevisionId) :=
  (admittedEdges changes known).toList.map fun edge => (edge.1, edge.2.toList)

theorem mem_replacementEdges {targets : List RevisionId} :
    (r, targets) ∈ replacementEdges changes known ↔
      ∃ set, (admittedEdges changes known)[r]? = some set ∧ set.toList = targets := by
  simp only [replacementEdges, mem_map, Prod.exists, mem_toList_iff, Prod.mk.injEq]
  constructor
  · rintro ⟨_, set, hset, rfl, ht⟩
    exact ⟨set, hset, ht⟩
  · rintro ⟨set, hset, ht⟩
    exact ⟨r, set, hset, rfl, ht⟩

theorem knownIn_replacementEdges : KnownIn (replacementEdges changes known) r ↔ r ∈ known := by
  have hkeys : r ∈ admittedEdges changes known ↔ r ∈ known := mem_admittedEdges
  rw [← hkeys, mem_iff]
  simp only [KnownIn, mem_replacementEdges]
  constructor
  · rintro ⟨_, set, hset, _⟩
    exact ⟨set, hset⟩
  · rintro ⟨set, hset⟩
    exact ⟨set.toList, set, hset, rfl⟩

theorem declares_replacementEdges :
    Declares (replacementEdges changes known) s p ↔ Admits changes known s p := by
  rw [← mem_setAt_admittedEdges, mem_setAt_iff]
  simp only [Declares, mem_replacementEdges]
  constructor
  · rintro ⟨_, ⟨set, hset, rfl⟩, hp⟩
    exact ⟨set, hset, BTreeSet.mem_toList_iff.mp hp⟩
  · rintro ⟨set, hset, hp⟩
    exact ⟨set.toList, ⟨set, hset, rfl⟩, BTreeSet.mem_toList_iff.mpr hp⟩

end Edges

section Heads

variable {changes : ChangeProjection} {legacy : SupersessionView}

theorem changeAware_eq (legacy : SupersessionView) (hne : changes.changes.isEmpty = false) :
    legacy.changeAware changes =
      (SupersessionView.fromEdges (replacementEdges changes legacy.known)).clearCycles := by
  rw [changeAware, changeAwareSupersession, hne]
  rfl

@[simp] theorem SupersessionView.clearCycles_superseded (view : SupersessionView) :
    view.clearCycles.superseded = view.superseded := rfl

@[simp] theorem SupersessionView.clearCycles_heads (view : SupersessionView) :
    view.clearCycles.heads = view.heads := rfl

@[simp] theorem SupersessionView.clearCycles_components (view : SupersessionView) :
    view.clearCycles.components = view.components := rfl

theorem mem_superseded_changeAware (hne : changes.changes.isEmpty = false) {p : RevisionId} :
    p ∈ (legacy.changeAware changes).superseded ↔ ∃ s, Admits changes legacy.known s p := by
  rw [changeAware_eq legacy hne, clearCycles_superseded,
    mem_superseded_fromEdges, knownIn_replacementEdges]
  simp only [declares_replacementEdges]
  refine and_iff_right_of_imp ?_
  rintro ⟨_, _, _, _, _, _, _, _, hp, _⟩
  exact hp

variable {r : RevisionId}

theorem mem_heads_changeAware (hne : changes.changes.isEmpty = false) :
    r ∈ (legacy.changeAware changes).heads ↔
      r ∈ legacy.known ∧ r ∉ (legacy.changeAware changes).superseded := by
  rw [changeAware_eq legacy hne, clearCycles_heads,
    clearCycles_superseded, mem_heads_fromEdges, knownIn_replacementEdges]

theorem mem_components_changeAware (hne : changes.changes.isEmpty = false)
    {C : BTreeSet RevisionId} (hC : C ∈ (legacy.changeAware changes).components) :
    ∃ x ∈ legacy.known, ∀ y, y ∈ C ↔
      y ∈ legacy.known ∧ EqvGen (Admits changes legacy.known) x y := by
  rw [changeAware_eq legacy hne, clearCycles_components] at hC
  have hlinked : Linked (replacementEdges changes legacy.known) =
      Admits changes legacy.known := by
    funext a b
    rw [Linked, knownIn_replacementEdges, knownIn_replacementEdges, declares_replacementEdges]
    refine propext ⟨fun h => h.2.2, ?_⟩
    intro h
    obtain ⟨_, _, _, _, _, _, ha, hb, _⟩ := id h
    exact ⟨ha, hb, h⟩
  obtain ⟨x, hx, hclass⟩ := mem_components_fromEdges hC
  simp only [knownIn_replacementEdges, hlinked] at hclass hx
  exact ⟨x, hx, hclass⟩

variable {V : Type} {rt : Runtime V} {E : List (ShoreEvent V)} {P : ChangeProjection}

theorem mem_known_fromEdges {edges : List (RevisionId × List RevisionId)} :
    r ∈ (SupersessionView.fromEdges edges).known ↔ KnownIn edges r := by
  rw [← exists_component_fromEdges, SupersessionView.known, BTreeSet.mem_collect, mem_flatMap]
  simp only [BTreeSet.mem_toList_iff]

theorem mem_known_fromEvents (h : SupersessionView.fromEvents rt E = .ok legacy) :
    r ∈ legacy.known ↔ Proposed (facts rt E) r := by
  simp only [fromEvents, Result.bind_eq_ok] at h
  obtain ⟨edges, hedges, h⟩ := h
  cases h
  rw [mem_known_fromEdges, knownIn_proposalEdges hedges]

variable {c : ChangeId} {v : ChangeView}

theorem ViewSpec.acyclic {F : List ChangeProjectionFact} (hv : ViewSpec F c v)
    (husable : v.isUsable = true) (r : RevisionId) : ¬ TransGen (Effective F c) r r := by
  intro hr
  have hcycle := hv.hasCycle_iff.mpr ⟨r, hr⟩
  rw [ChangeView.isUsable, hv.consistent.topology, topologyOf, hcycle] at husable
  by_cases hincomplete : v.diagnostics.any ChangeDiagnostic.marksIncomplete = true <;>
    simp [hincomplete] at husable

variable {known : BTreeSet RevisionId}

theorem admits_of_effective
    (hknown : ∀ r, r ∈ known ↔ Proposed (facts rt E) r) (hP : projectChanges rt E = .ok P)
    (hc : P.changes[c]? = some v) (husable : v.isUsable = true) {s p : RevisionId}
    (hsp : Effective (facts rt E) c s p) (hp : ¬ CurrentSomewhere P p) : Admits P known s p := by
  have hspec := (projectChanges_spec hP).view c v hc
  obtain ⟨_, _, _, _, _, hs, hpm, rfl, rfl⟩ := id hsp
  exact ⟨v, mem_vals_iff.mpr ⟨c, hc⟩, husable, (hspec.supersedes _ _).mpr hsp,
    (hspec.members _).mpr hs, (hspec.members _).mpr hpm, (hknown _).mpr hs.2,
    (hknown _).mpr hpm.2, hp⟩

/-- From a member of a usable Change admitted edges lead up to a Revision that is current
somewhere. -/
theorem exists_current_above
    (hknown : ∀ r, r ∈ known ↔ Proposed (facts rt E) r) (hP : projectChanges rt E = .ok P)
    (hc : P.changes[c]? = some v) (husable : v.isUsable = true) (hr : r ∈ v.members) :
    ∃ m ∈ known, CurrentSomewhere P m ∧ EqvGen (Admits P known) r m := by
  have hspec := (projectChanges_spec hP).view c v hc
  have hview : v ∈ P.changes.vals := mem_vals_iff.mpr ⟨c, hc⟩
  obtain ⟨m, hm, hmr⟩ := hspec.exists_current (hspec.acyclic husable) ((hspec.members r).mp hr)
  induction hmr with
  | refl =>
    exact ⟨m, (hknown m).mpr hm.1.2, ⟨v, hview, hr, .inr ((hspec.current m).mpr hm)⟩, .refl _⟩
  | tail hmb hbr ih =>
    rename_i b r
    by_cases hcur : CurrentSomewhere P r
    · exact ⟨r, (hknown r).mpr ((hspec.members r).mp hr).2, hcur, .refl _⟩
    · have hadmits := admits_of_effective hknown hP hc husable hbr hcur
      obtain ⟨_, _, _, _, _, hb, _, rfl, _⟩ := id hbr
      obtain ⟨m, hm, hcurm, hconn⟩ := ih ((hspec.members _).mpr hb)
      exact ⟨m, hm, hcurm, .trans _ _ _ (.symm _ _ (.rel _ _ hadmits)) hconn⟩

variable {R : SupersessionView}

theorem replacementFromEvents_eq_ok : SupersessionView.replacementFromEvents rt E = .ok R ↔
    ∃ legacy P, SupersessionView.fromEvents rt E = .ok legacy ∧ projectChanges rt E = .ok P ∧
      legacy.changeAware P = R := by
  simp [replacementFromEvents, Result.bind_eq_ok]

/-- Every thread has a head, and a Revision is superseded exactly when a usable Change replaces it
and every Change that holds it is usable and has moved on. -/
theorem replacement_headed (hR : SupersessionView.replacementFromEvents rt E = .ok R)
    (hP : projectChanges rt E = .ok P) (hne : P.changes.isEmpty = false) :
    (∀ C ∈ R.components, ∃ r ∈ C, r ∈ R.heads) ∧
      ∀ p, p ∈ R.superseded ↔
        (∃ v ∈ P.changes.vals, v.isUsable = true ∧ ∃ s, (s, p) ∈ v.supersedes) ∧
          ∀ v ∈ P.changes.vals, p ∈ v.members →
            v.isUsable = true ∧ p ∉ v.currentRevisions := by
  obtain ⟨legacy, P', hlegacy, hP', rfl⟩ := replacementFromEvents_eq_ok.mp hR
  rw [hP] at hP'
  cases hP'
  have hknown := fun r => mem_known_fromEvents hlegacy (r := r)
  have hmoved : ∀ p, ¬ CurrentSomewhere P p ↔ ∀ v ∈ P.changes.vals, p ∈ v.members →
      v.isUsable = true ∧ p ∉ v.currentRevisions := by
    intro p
    simp [CurrentSomewhere]
  refine ⟨?_, ?_⟩
  · intro C hC
    obtain ⟨x, hx, hclass⟩ := mem_components_changeAware hne hC
    have hxC : x ∈ C := (hclass x).mpr ⟨hx, .refl _⟩
    by_cases hsuper : x ∈ (legacy.changeAware P).superseded
    · obtain ⟨s, v, hv, husable, _, _, hmem, _⟩ := (mem_superseded_changeAware hne).mp hsuper
      obtain ⟨c, hc⟩ := mem_vals_iff.mp hv
      obtain ⟨m, hm, hcur, hconn⟩ := exists_current_above hknown hP hc husable hmem
      refine ⟨m, (hclass m).mpr ⟨hm, hconn⟩, (mem_heads_changeAware hne).mpr ⟨hm, ?_⟩⟩
      intro hmsuper
      obtain ⟨_, _, _, _, _, _, _, _, _, hnot⟩ := (mem_superseded_changeAware hne).mp hmsuper
      exact hnot hcur
    · exact ⟨x, hxC, (mem_heads_changeAware hne).mpr ⟨hx, hsuper⟩⟩
  · intro p
    rw [mem_superseded_changeAware hne, ← hmoved]
    constructor
    · rintro ⟨s, v, hv, husable, hsp, _, _, _, _, hcur⟩
      exact ⟨⟨v, hv, husable, s, hsp⟩, hcur⟩
    · rintro ⟨⟨v, hv, husable, s, hsp⟩, hcur⟩
      obtain ⟨c, hc⟩ := mem_vals_iff.mp hv
      have heff := (((projectChanges_spec hP).view c v hc).supersedes s p).mp hsp
      exact ⟨s, admits_of_effective hknown hP hc husable heff hcur⟩

end Heads

section Crossed

open Recorded

/-- Two Changes replace two Revisions in opposite orders, and both end at a third. -/
def crossed : List (ShoreEvent WirePayload) :=
  journal 1 [declared 1, declared 2, proposed 1, proposed 2, proposed 3, member 1 1, member 1 2,
    member 1 3, member 2 1, member 2 2, member 2 3, supersedes 1 2 1, supersedes 1 3 2,
    supersedes 2 1 2, supersedes 2 3 1]

theorem crossed_headed : ∃ R P, SupersessionView.replacementFromEvents runtime crossed = .ok R ∧
      projectChanges runtime crossed = .ok P ∧ P.changes.isEmpty = false ∧
      (rev 1 ∈ R.supersedes.setAt (rev 2) ∧ rev 2 ∈ R.supersedes.setAt (rev 1)) ∧
      (∀ C ∈ R.components, ∃ r ∈ C, r ∈ R.heads) ∧
      ∀ p, p ∈ R.superseded ↔
        (∃ v ∈ P.changes.vals, v.isUsable = true ∧ ∃ s, (s, p) ∈ v.supersedes) ∧
          ∀ v ∈ P.changes.vals, p ∈ v.members → v.isUsable = true ∧ p ∉ v.currentRevisions := by
  have hrun : (∃ P, projectChanges runtime crossed = .ok P ∧ P.changes.isEmpty = false) ∧
      ∃ R, replacementFromEvents runtime crossed = .ok R ∧
        rev 1 ∈ R.supersedes.setAt (rev 2) ∧ rev 2 ∈ R.supersedes.setAt (rev 1) := by
    decide +kernel
  obtain ⟨⟨P, hP, hne⟩, R, hR, hcycle⟩ := hrun
  exact ⟨R, P, hR, hP, hne, hcycle, replacement_headed hR hP hne⟩

end Crossed

section Historical

variable {V : Type} {rt : Runtime V}

variable (rt) in
/-- The same event, or a proposal of the same Revision with another list of superseded ones. -/
def Reproposed (e e' : ShoreEvent V) : Prop :=
  e = e' ∨ e.eventType = .workObjectProposed ∧ e'.eventType = .workObjectProposed ∧
    ∃ engagement r hash supersedes supersedes',
      rt.workObjectProposed e.payload = .ok ⟨engagement, .revision r hash supersedes⟩ ∧
      rt.workObjectProposed e'.payload = .ok ⟨engagement, .revision r hash supersedes'⟩

theorem Reproposed.extract {e e' : ShoreEvent V} (h : Reproposed rt e e') :
    extractChangeProjectionFact rt e = extractChangeProjectionFact rt e' := by
  obtain rfl | ⟨ht, ht', _, r, hash, _, _, hp, hp'⟩ := h
  · rfl
  · simp only [extractChangeProjectionFact, ht, ht', fromValue, hp, hp']
    rfl

variable {E : List (ShoreEvent V)}

theorem projectChanges_reproposed {E' : List (ShoreEvent V)}
    (h : List.Forall₂ (Reproposed rt) E E') : projectChanges rt E = projectChanges rt E' := by
  have hextract : extractFacts rt E = extractFacts rt E' := by
    induction h with
    | nil => rfl
    | cons he _ ih => rw [extractFacts, extractFacts, he.extract, ih]
  rw [projectChanges, projectChanges, hextract]

theorem proposalEdges_reproposed {E' : List (ShoreEvent V)}
    (h : List.Forall₂ (Reproposed rt) E E') :
    (proposalEdges rt E).map (List.map Prod.fst) =
      (proposalEdges rt E').map (List.map Prod.fst) := by
  induction h with
  | nil => rfl
  | @cons e e' E E' he _ ih =>
    rw [proposalEdges, proposalEdges]
    obtain rfl | ⟨ht, ht', _, r, hash, _, _, hp, hp'⟩ := he
    · split
      · rcases fromValue rt.workObjectProposed e.payload with x | ⟨_, object⟩
        · rfl
        · cases hE : proposalEdges rt E <;> cases hE' : proposalEdges rt E' <;> cases object <;>
            simp_all [Except.map, bind, Except.bind]
      · exact ih
    · simp only [ht, ht', if_true, fromValue, hp, hp']
      cases hE : proposalEdges rt E <;> cases hE' : proposalEdges rt E' <;>
        simp_all [Except.map, bind, Except.bind, Except.mapError]

theorem known_fromEdges {edges edges' : List (RevisionId × List RevisionId)}
    (h : edges.map Prod.fst = edges'.map Prod.fst) :
    (SupersessionView.fromEdges edges).known = (SupersessionView.fromEdges edges').known := by
  have hknown : ∀ (edges : List (RevisionId × List RevisionId)) r,
      r ∈ (fromEdges edges).known ↔ r ∈ edges.map Prod.fst := by
    intro edges r
    rw [mem_known_fromEdges]
    simp [KnownIn]
  refine ExtTreeSet.ext_mem fun r => ?_
  rw [hknown, hknown, h]

/-- The event types that make a Change known. -/
def EventType.claimsChange : EventType → Bool
  | .changeDeclared | .changeMembershipAsserted | .changeRevisionRelationAsserted => true
  | _ => false

theorem named_of_claimsChange {e : ShoreEvent V}
    (hread : (extractChangeProjectionFact rt e).isOk = true)
    (htype : e.eventType.claimsChange = true) (he : e ∈ E) :
    ∃ c, Named (facts rt E) c := by
  obtain ⟨fact, hfact⟩ : ∃ fact, extractChangeProjectionFact rt e = .ok fact := by
    cases hx : extractChangeProjectionFact rt e with
    | error x => simp [hx, Except.isOk, Except.toBool] at hread
    | ok fact => exact ⟨fact, rfl⟩
  have hsome : ∃ f, fact = some f := by
    cases ht : e.eventType with
    | changeDeclared | changeMembershipAsserted | changeRevisionRelationAsserted =>
      simp only [extractChangeProjectionFact, ht, Result.bind_eq_ok] at hfact
      obtain ⟨payload, _, _, _, hf⟩ := hfact
      cases hf
      exact ⟨_, rfl⟩
    | _ =>
      rw [ht] at htype
      cases htype
  obtain ⟨f, rfl⟩ := hsome
  have hcarries := carries_of_extract hfact
  have hmem : f ∈ facts rt E := mem_facts.mpr ⟨e, he, hcarries⟩
  have hlast : ∀ {κ α : Type} [DecidableEq κ] {sel : ChangeProjectionFact → Option (κ × α)} {k : κ}
      {v : α}, sel f = some (k, v) → ∃ w, (entries sel k (facts rt E)).getLast? = some w := by
    intro κ α _ sel k v hsel
    have hne := ne_nil_of_mem (mem_entries.mpr ⟨f, hmem, hsel⟩)
    exact ⟨_, getLast?_eq_some_getLast hne⟩
  cases f with
  | declaration c d => exact ⟨c, .inl ⟨d, hmem⟩⟩
  | membershipAsserted k c r =>
    have hsel : (ChangeProjectionFact.membershipAsserted k c r).membershipEntry =
      some (k, ⟨c, r⟩) := rfl
    obtain ⟨⟨c', r'⟩, hw⟩ := hlast hsel
    exact ⟨c', .inr (.inl ⟨k, r', hw⟩)⟩
  | relationAsserted k c s p =>
    have hsel : (ChangeProjectionFact.relationAsserted k c s p).relationEntry =
      some (k, ⟨c, s, p⟩) := rfl
    obtain ⟨⟨c', s', p'⟩, hw⟩ := hlast hsel
    exact ⟨c', .inr (.inr ⟨k, s', p', hw⟩)⟩
  | _ =>
    rw [hcarries.1] at htype
    cases htype

theorem changes_nonempty {P : ChangeProjection}
    (hP : projectChanges rt E = .ok P) (hclaim : ∃ e ∈ E, e.eventType.claimsChange = true) :
    P.changes.isEmpty = false := by
  obtain ⟨e, he, htype⟩ := hclaim
  obtain ⟨c, hc⟩ := named_of_claimsChange (projectChanges_isOk.mp ⟨P, hP⟩ e he) htype he
  have hmem := ((projectChanges_spec hP).mem_changes c).mpr hc
  rw [← Bool.not_eq_true, ExtTreeMap.isEmpty_iff]
  intro hempty
  rw [hempty] at hmem
  exact ExtTreeMap.not_mem_empty hmem

/-- No list of superseded Revisions in a proposal is read once the store holds a Change claim, and
nothing that is recorded later brings one back. -/
theorem replacement_reproposed {E E' : List (ShoreEvent V)}
    (hE : List.Forall₂ (Reproposed rt) E E')
    (hclaim : ∃ e ∈ E, e.eventType.claimsChange = true) (W : List (ShoreEvent V)) :
    SupersessionView.replacementFromEvents rt (E ++ W) =
      SupersessionView.replacementFromEvents rt (E' ++ W) := by
  have hW : List.Forall₂ (Reproposed rt) (E ++ W) (E' ++ W) :=
    rel_append hE (List.forall₂_same.mpr fun _ _ => .inl rfl)
  have hedges := proposalEdges_reproposed hW
  have hclaimW : ∃ e ∈ E ++ W, e.eventType.claimsChange = true := by
    obtain ⟨e, he, htype⟩ := hclaim
    exact ⟨e, mem_append_left _ he, htype⟩
  simp only [replacementFromEvents, fromEvents,
    projectChanges_reproposed hW]
  cases hl : proposalEdges rt (E ++ W) <;> cases hl' : proposalEdges rt (E' ++ W) <;>
    simp only [hl, hl', Except.map, Except.error.injEq, Except.ok.injEq, reduceCtorEq] at hedges
  · rw [hedges]
  · simp only [bind, Except.bind]
    cases hP : projectChanges rt (E' ++ W) with
    | error x => rfl
    | ok P =>
      have hne := changes_nonempty ((projectChanges_reproposed hW).trans hP) hclaimW
      exact congrArg Except.ok
        (by rw [changeAware_eq _ hne, changeAware_eq _ hne, known_fromEdges hedges])

end Historical

section Withdrawn

open Recorded

/-- A Change with one member, and a second Revision whose proposal lists `historical`. -/
def claimed (historical : List RevisionId) : List (ShoreEvent WirePayload) :=
  journal 1 [declared 1, proposed 1, member 1 1, captured 2 none historical]

theorem withdrawal_revives_nothing :
    SupersessionView.replacementFromEvents runtime (claimed [rev 1] ++ journal 5 [leaves 1 1]) =
      SupersessionView.replacementFromEvents runtime (claimed [] ++ journal 5 [leaves 1 1]) ∧
    (SupersessionView.fromEvents runtime (claimed [rev 1])).toOption.any
      (fun view => rev 1 ∈ view.superseded) = true ∧
    (SupersessionView.replacementFromEvents runtime
      (claimed [rev 1] ++ journal 5 [leaves 1 1])).toOption.any
      (fun view => rev 1 ∈ view.heads) = true := by
  refine ⟨replacement_reproposed ?_ ⟨_, mem_cons_self .., rfl⟩ _, by decide +kernel⟩
  refine .cons (.inl rfl) (.cons (.inl rfl) (.cons (.inl rfl) (.cons (.inr ?_) .nil)))
  exact ⟨rfl, rfl, _, _, artifact 2, [rev 1], [], rfl, rfl⟩

end Withdrawn

end Pointbreak
