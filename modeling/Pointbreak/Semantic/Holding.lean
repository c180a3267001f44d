import Pointbreak.Semantic.Tables

/-!
# Semantic.Holding

Which fact stands for a semantic id. The reducer over facts, one fact at a time (`enter`), keeps for
each family the fact with the lowest event id; a `Holding` that is updated the same way stays in
step with it (`Holds.next`), and so do counters that look only at whether the id is new.
-/

namespace Pointbreak

open Std BTreeMap KeyedLog ClassifiedFact ExtTreeMap BTreeSet

section Reducer

def captureOf (f : SemanticFact) : Option (Text × CanonicalFactValue Text) :=
  match f.kind with
  | .revision revision => f.revisionId.map fun id => (id, ⟨f.eventId, revision.objectId⟩)
  | _ => none

def requestOf (f : SemanticFact) : Option (Text × CanonicalFactValue AssertionMode) :=
  match f.kind with
  | .inputRequestOpened _ => f.semanticId.map fun id => (id, ⟨f.eventId, f.assertionMode⟩)
  | _ => none

def targetOf (f : SemanticFact) : Option (Text × CanonicalFactValue Text) :=
  match f.kind with
  | .inputRequestResponded response =>
    f.semanticId.map fun id => (id, ⟨f.eventId, response.requestId⟩)
  | _ => none

def carrierOf (f : SemanticFact) : Option (SemanticFamily × Text) :=
  (materializedIdentity f).filter fun identity => duplicateFamily identity.1

def enterLeast {α : Type} (entry : Option (Text × CanonicalFactValue α))
    (m : BTreeMap Text (CanonicalFactValue α)) : BTreeMap Text (CanonicalFactValue α) :=
  match entry with
  | some (key, value) => retainCanonicalValue m key value.eventId value.value
  | none => m

def enterCarrier (entry : Option (SemanticFamily × Text)) (eventId : Text) (m : SemanticEvents) :
    SemanticEvents :=
  match entry with
  | some key => m.addTo key eventId
  | none => m

def SemanticReducer.enter (s : SemanticReducer) (f : SemanticFact) : SemanticReducer where
  journalId := s.journalId
  captures := enterLeast (captureOf f) s.captures
  semanticEvents := enterCarrier (carrierOf f) f.eventId s.semanticEvents
  requestModes := enterLeast (requestOf f) s.requestModes
  responseTargets := enterLeast (targetOf f) s.responseTargets

/-- A fact of a family has a semantic id, that of a Revision the id of the Revision, and an
initialisation has neither. -/
structure SemanticFact.Complete (f : SemanticFact) : Prop where
  semantic : f.kind ≠ .other → f.semanticId.isSome = true
  revision : ∀ revision, f.kind = .revision revision → f.revisionId.isSome = true
  initialized : f.eventType = EventType.reviewInitialized.asStr → f.semanticId = none

theorem Reads.ids {V : Type} {rt : Runtime V} {e : ShoreEvent V} {c : ClassifiedFact}
    (h : Reads rt e c) : (c.kind ≠ .other → c.semanticId.isSome = true) ∧
      ∀ revision, c.kind = .revision revision → c.revisionId.isSome = true := by
  unfold Reads at h
  cases ht : e.eventType <;> simp only [ht] at h
  case workObjectProposed =>
    obtain ⟨⟨_, object⟩, -, rfl⟩ := h
    cases object <;> simp [ClassifiedFact.proposed, ClassifiedFact.other]
  case revisionCommitAssociated =>
    obtain ⟨⟨_, _, commit⟩, -, rfl⟩ := h
    cases commit <;> simp [commitAssociated]
  case reviewObservationRecorded | reviewAssessmentRecorded | inputRequestOpened |
      inputRequestResponded | validationCheckRecorded | revisionCommitWithdrawn |
      revisionRefAssociated | revisionRefWithdrawn | artifactRemoved =>
    obtain ⟨p, -, rfl⟩ := h
    simp [ClassifiedFact.observation, ClassifiedFact.assessment, inputRequestOpened,
      inputRequestResponded, ClassifiedFact.validation,
      commitWithdrawn, refAssociated, refWithdrawn,
      artifactRemoved]
  all_goals
    subst h
    simp [ClassifiedFact.other]

variable {f : SemanticFact}

theorem FactOf.complete {V : Type} {rt : Runtime V} {e : ShoreEvent V} (h : FactOf rt e f) :
    f.Complete where
  semantic := h.reads.ids.1
  revision := h.reads.ids.2
  initialized := by
    intro hinit
    have hreads := h.reads
    rw [h.eventType] at hinit
    rw [Reads, EventType.asStr_injective hinit] at hreads
    exact congrArg semanticId hreads

theorem SemanticReducer.applyKind_eq {s : SemanticReducer} (h : f.Complete) :
    s.applyKind f = .ok (s.enter f) := by
  have hsemantic := h.semantic
  have hrevision := h.revision
  unfold SemanticReducer.applyKind SemanticReducer.insertSemantic SemanticReducer.enter captureOf
    requestOf targetOf carrierOf materializedIdentity
  cases hkind : f.kind <;> simp only [hkind] at hsemantic hrevision ⊢
  case revision revision =>
    obtain ⟨id, hid⟩ := Option.isSome_iff_exists.mp (hrevision revision rfl)
    rw [hid]
    rfl
  case observation | assessment | inputRequestOpened | inputRequestResponded | validation =>
    obtain ⟨id, hid⟩ := Option.isSome_iff_exists.mp (hsemantic (by simp))
    rw [hid]
    rfl
  case artifactRemoved => cases f.contentHash <;> rfl
  case other => cases f.change <;> rfl
  all_goals cases f.semanticId <;> rfl

/-- The entries are those of the facts of one family, stamped with their events. -/
structure Selects {α : Type} (family : SemanticFamily)
    (sel : SemanticFact → Option (Text × CanonicalFactValue α)) : Prop where
  identity : ∀ {f k v}, sel f = some (k, v) → materializedIdentity f = some (family, k)
  entry : ∀ {f k}, materializedIdentity f = some (family, k) → ∃ v, sel f = some (k, v)
  stamp : ∀ {f k v}, sel f = some (k, v) → v.eventId = f.eventId

theorem Selects.cases {α : Type} {family family' : SemanticFamily} {k : Text}
    {sel : SemanticFact → Option (Text × CanonicalFactValue α)} (hs : Selects family' sel)
    (hf : materializedIdentity f = some (family, k)) :
    family ≠ family' ∧ sel f = none ∨ family = family' ∧ ∃ v, sel f = some (k, v) := by
  cases hsel : sel f with
  | none =>
    refine .inl ⟨?_, rfl⟩
    rintro rfl
    obtain ⟨v, hv⟩ := hs.entry hf
    cases hsel.symm.trans hv
  | some entry =>
    cases hf.symm.trans (hs.identity hsel)
    exact .inr ⟨rfl, _, rfl⟩

theorem selects_captureOf : Selects .revision captureOf := by
  constructor <;> intro f <;> unfold captureOf <;> try unfold materializedIdentity
  all_goals cases f.kind <;> simp

theorem selects_requestOf : Selects .request requestOf := by
  constructor <;> intro f <;> unfold requestOf <;> try unfold materializedIdentity
  all_goals cases f.kind <;> simp

theorem selects_targetOf : Selects .response targetOf := by
  constructor <;> intro f <;> unfold targetOf <;> try unfold materializedIdentity
  all_goals cases f.kind <;> simp

theorem requestId_of_targetOf {k : Text} {v : CanonicalFactValue Text}
    (h : targetOf f = some (k, v)) : f.kind.requestId = some v.value := by
  unfold targetOf at h
  cases hkind : f.kind <;> simp only [hkind] at h <;> try cases h
  case inputRequestResponded response =>
    obtain ⟨id, -, hv⟩ := Option.map_eq_some_iff.mp h
    cases hv
    rfl

theorem mode_of_requestOf {k : Text} {v : CanonicalFactValue AssertionMode}
    (h : requestOf f = some (k, v)) : v.value = f.assertionMode := by
  unfold requestOf at h
  cases hkind : f.kind <;> simp only [hkind] at h <;> try cases h
  case inputRequestOpened request =>
    obtain ⟨id, -, hv⟩ := Option.map_eq_some_iff.mp h
    cases hv
    rfl

theorem Selects.enterLeast_comm {α : Type} {family : SemanticFamily}
    {sel : SemanticFact → Option (Text × CanonicalFactValue α)} (h : Selects family sel)
    {f g : SemanticFact} (hne : f.eventId ≠ g.eventId) (m : BTreeMap Text (CanonicalFactValue α)) :
    enterLeast (sel g) (enterLeast (sel f) m) = enterLeast (sel f) (enterLeast (sel g) m) := by
  cases hf : sel f with
  | none => rfl
  | some x =>
    cases hg : sel g with
    | none => rfl
    | some y =>
      refine insertLeast_comm ?_
      change x.2.eventId ≠ y.2.eventId
      rw [h.stamp hf, h.stamp hg]
      exact hne

theorem enterCarrier_comm (a b : Option (SemanticFamily × Text)) (e e' : Text)
    (m : SemanticEvents) :
    enterCarrier b e' (enterCarrier a e m) = enterCarrier a e (enterCarrier b e' m) := by
  cases a with
  | none => rfl
  | some k =>
    cases b with
    | none => rfl
    | some k' => exact addTo_comm m k k' e e'

theorem SemanticReducer.enter_comm {f g : SemanticFact} (hne : f.eventId ≠ g.eventId)
    (s : SemanticReducer) : (s.enter f).enter g = (s.enter g).enter f := by
  simp only [SemanticReducer.enter, selects_captureOf.enterLeast_comm hne,
    selects_requestOf.enterLeast_comm hne, selects_targetOf.enterLeast_comm hne,
    enterCarrier_comm (carrierOf f) (carrierOf g)]

end Reducer

section Holds

abbrev Holding : Type := SemanticFamily → Text → Option SemanticFact

/-- What stands for the keys once a fact has arrived: the lower event id does. -/
def Holding.next (hold : Holding) (f : SemanticFact) (family : SemanticFamily) (k : Text) :
    Holding := fun family' k' =>
  if (family, k) = (family', k') ∧
      (hold family k).all (fun g => compare f.eventId g.eventId = .lt) = true then some f
  else hold family' k'

/-- A map of the reducer retains what stands for the keys of a family. -/
def Represents {α : Type} (held : Text → Option SemanticFact)
    (sel : SemanticFact → Option (Text × CanonicalFactValue α))
    (m : BTreeMap Text (CanonicalFactValue α)) : Prop :=
  ∀ k : Text, m[k]? = (held k).bind fun f => (sel f).map Prod.snd

/-- The reducer retains the facts that stand for their keys, and their events come first among the
carriers. -/
structure Holds (hold : Holding) (s : SemanticReducer) : Prop where
  identity : ∀ {family k g}, hold family k = some g → materializedIdentity g = some (family, k)
  captures : Represents (hold .revision) captureOf s.captures
  requests : Represents (hold .request) requestOf s.requestModes
  targets : Represents (hold .response) targetOf s.responseTargets
  carriers : ∀ {family k}, duplicateFamily family = true →
    (hold family k).map SemanticFact.eventId =
      s.semanticEvents[(family, k)]?.bind fun ids => ids.toList.head?
  families : ∀ key ∈ s.semanticEvents, duplicateFamily key.1 = true
  nonempty : ∀ {key : SemanticFamily × Text} {ids}, s.semanticEvents[key]? = some ids →
    ids.toList ≠ []

variable {hold : Holding} {s : SemanticReducer} {f : SemanticFact}
  {family : SemanticFamily} {k : Text}

section Represents

variable {α : Type} {family' : SemanticFamily}
  {sel : SemanticFact → Option (Text × CanonicalFactValue α)}
  {m : BTreeMap Text (CanonicalFactValue α)}

theorem Represents.unique {held : Text → Option SemanticFact}
    {m' : BTreeMap Text (CanonicalFactValue α)} (h : Represents held sel m)
    (h' : Represents held sel m') : m = m' := by
  apply ext_getElem?
  intro k
  rw [h k, h' k]

variable (hs : Selects family' sel) (h : Represents (hold family') sel m)
  (hid : ∀ {k g}, hold family' k = some g → materializedIdentity g = some (family', k))
include hs h hid

theorem Represents.of_held {g : SemanticFact} (hg : hold family' k = some g) :
    ∃ v, sel g = some (k, v) ∧ v.eventId = g.eventId ∧ m[k]? = some v := by
  obtain ⟨v, hv⟩ := hs.entry (hid hg)
  refine ⟨v, hv, hs.stamp hv, ?_⟩
  rw [h k, hg, Option.bind_some, hv]
  rfl

theorem Represents.mem_iff : k ∈ m ↔ (hold family' k).isSome = true := by
  cases hg : hold family' k with
  | none =>
    rw [mem_iff_isSome_getElem?, h k, hg]
    rfl
  | some g =>
    obtain ⟨v, -, -, hv⟩ := h.of_held hs hid hg
    rw [mem_iff_isSome_getElem?, hv]
    rfl

/-- Entering a fact replaces what it stands before. -/
theorem Represents.next (hf : materializedIdentity f = some (family, k)) :
    Represents (hold.next f family k family') sel (enterLeast (sel f) m) := by
  intro k'
  obtain ⟨hne, hsel⟩ | ⟨rfl, v, hsel⟩ := hs.cases hf
  · simp [enterLeast, hsel, h k', Holding.next, hne]
  · have hlt : (m[k]?.all fun w => decide (compare v.eventId w.eventId = .lt)) =
        (hold family k).all fun g => decide (compare f.eventId g.eventId = .lt) := by
      cases hg : hold family k with
      | none => rw [h k, hg]; rfl
      | some g =>
        obtain ⟨w, -, hw, hm⟩ := h.of_held hs hid hg
        rw [hm, Option.all_some, Option.all_some, hw, hs.stamp hsel]
    simp only [enterLeast, hsel, retainCanonicalValue, insertLeast, hlt, Holding.next, Prod.mk.injEq,
      true_and]
    by_cases hall : ((hold family k).all fun g => decide (compare f.eventId g.eventId = .lt)) = true
    · rw [if_pos hall, get_insert]
      by_cases hk : k = k'
      · rw [if_pos hk, if_pos ⟨hk, hall⟩, Option.bind_some, hsel]
        rfl
      · rw [if_neg hk, if_neg (fun hc => hk hc.1), h k']
    · rw [if_neg hall, if_neg (fun hc => hall hc.2), h k']

theorem Represents.size_next (hf : materializedIdentity f = some (family, k)) :
    (enterLeast (sel f) m).size =
      m.size + if family = family' ∧ hold family k = none then 1 else 0 := by
  obtain ⟨hne, hsel⟩ | ⟨rfl, v, hsel⟩ := hs.cases hf
  · simp [enterLeast, hsel, hne]
  · simp only [enterLeast, hsel, retainCanonicalValue, size_insertLeast, h.mem_iff hs hid, true_and]
    cases hold family k <;> simp

end Represents

theorem carrierOf_eq (hf : materializedIdentity f = some (family, k)) :
    carrierOf f = if duplicateFamily family then some (family, k) else none := by
  rw [carrierOf, hf]
  by_cases hfam : duplicateFamily family = true <;> simp [hfam]

theorem Holds.mem_carriers (h : Holds hold s) (hfam : duplicateFamily family = true) :
    (family, k) ∈ s.semanticEvents ↔ (hold family k).isSome = true := by
  have hcarriers := h.carriers hfam (k := k)
  rw [mem_iff_isSome_getElem?]
  cases hids : s.semanticEvents[(family, k)]? with
  | none =>
    rw [hids] at hcarriers
    simp [Option.map_eq_none_iff.mp hcarriers]
  | some ids =>
    obtain ⟨b, hb⟩ := Option.isSome_iff_exists.mp (List.isSome_head?.mpr (h.nonempty hids))
    rw [hids, Option.bind_some, hb, Option.map_eq_some_iff] at hcarriers
    obtain ⟨g, hg, -⟩ := hcarriers
    simp [hg]

theorem Holds.carriers_next (h : Holds hold s)
    (hfam : duplicateFamily family = true) (hfresh : f.eventId ∉ s.semanticEvents.setAt (family, k)) :
    (hold.next f family k family k).map SemanticFact.eventId =
      ((s.semanticEvents.setAt (family, k)).insert f.eventId).toList.head? := by
  have hcarriers := h.carriers hfam (k := k)
  rw [setAt] at hfresh ⊢
  cases hids : s.semanticEvents[(family, k)]? with
  | none =>
    rw [hids] at hcarriers hfresh
    have hnone := Option.map_eq_none_iff.mp hcarriers
    have hempty : (∅ : BTreeSet Text).toList = [] := by simp
    rw [Option.getD_none] at hfresh ⊢
    rw [toList_insert hfresh, hempty, Holding.next, hnone]
    simp
  | some ids =>
    rw [hids, Option.getD_some] at hfresh
    obtain ⟨b, hb⟩ := Option.isSome_iff_exists.mp (List.isSome_head?.mpr (h.nonempty hids))
    rw [hids, Option.bind_some, hb, Option.map_eq_some_iff] at hcarriers
    obtain ⟨g, hg, rfl⟩ := hcarriers
    rw [Option.getD_some, head_toList_insert hfresh hb, Holding.next, hg]
    by_cases hlt : compare f.eventId g.eventId = .lt <;> simp [hlt]

/-- A fact that arrives keeps the reducer in step with what stands for the keys. -/
theorem Holds.next (h : Holds hold s) (hf : materializedIdentity f = some (family, k))
    (hfresh : ∀ key, f.eventId ∉ s.semanticEvents.setAt key) :
    Holds (hold.next f family k) (s.enter f) where
  identity := by
    intro family' k' g hg
    rw [Holding.next] at hg
    split at hg
    · rename_i hkey
      cases hg
      rw [hf, hkey.1]
    · exact h.identity hg
  captures := h.captures.next selects_captureOf h.identity hf
  requests := h.requests.next selects_requestOf h.identity hf
  targets := h.targets.next selects_targetOf h.identity hf
  carriers := by
    intro family' k' hfam
    simp only [SemanticReducer.enter, carrierOf_eq hf]
    by_cases heq : (family, k) = (family', k')
    · cases heq
      rw [if_pos hfam, enterCarrier, get_addTo, if_pos rfl, Option.bind_some]
      exact h.carriers_next hfam (hfresh _)
    · rw [Holding.next, if_neg (fun hc => heq hc.1), h.carriers hfam]
      split
      · rw [enterCarrier, get_addTo, if_neg heq]
      · rfl
  families := by
    intro key hkey
    simp only [SemanticReducer.enter, carrierOf_eq hf] at hkey
    split at hkey
    · rename_i hfam
      obtain rfl | hkey := mem_addTo.mp hkey
      · exact hfam
      · exact h.families key hkey
    · exact h.families key hkey
  nonempty := by
    intro key ids hids
    simp only [SemanticReducer.enter, carrierOf_eq hf] at hids
    split at hids
    · rw [enterCarrier, get_addTo] at hids
      split at hids
      · cases hids
        intro hnil
        have hmem : f.eventId ∈ (s.semanticEvents.setAt key).insert f.eventId :=
          mem_insert_iff.mpr (.inl rfl)
        rw [← BTreeSet.mem_toList_iff, hnil] at hmem
        cases hmem
      · exact h.nonempty hids
    · exact h.nonempty hids

def SemanticReducer.current (s : SemanticReducer) : Option (Text × CanonicalFactValue Text) :=
  if s.captures.size = 1 then s.captures.toList.head? else none

def openRequests (s : SemanticReducer) : Finset Text :=
  s.requestModes.matching fun id _ => id ∉ s.responded

def operativeRequests (s : SemanticReducer) : Finset Text :=
  s.requestModes.matching fun id mode => mode.value = .operative && id ∉ s.responded

/-- The state row counts the reducer's sets, and the requests of the two given sets. -/
structure Counted (state : MaterializedSemanticState) (s : SemanticReducer)
    (opened operative : Finset Text) : Prop where
  journalId : state.journalId = s.journalId
  revisionCount : state.revisionCount = s.captures.size
  currentRevisionId : state.currentRevisionId = s.current.map Prod.fst
  currentObjectId : state.currentObjectId = s.current.map (·.2.value)
  observationCount : state.observationCount = countFamily s.semanticEvents .observation
  assessmentCount : state.assessmentCount = countFamily s.semanticEvents .assessment
  validationCheckCount : state.validationCheckCount = countFamily s.semanticEvents .validation
  inputRequestCount : state.inputRequestCount = s.requestModes.size
  openInputRequestCount : state.openInputRequestCount = opened.card
  openOperativeInputRequestCount : state.openOperativeInputRequestCount = operative.card

variable {state : MaterializedSemanticState} {opened operative : Finset Text}

theorem countFamily_matching (events : SemanticEvents) (family : SemanticFamily) :
    countFamily events family = (events.matching fun key _ => key.1 = family).card := by
  rw [countFamily, card_matching, ← map_fst_toList_eq_keys, List.filter_map,
    List.length_map]
  rfl

theorem countFamily_addTo (events : SemanticEvents) (key : SemanticFamily × Text) (eventId : Text)
    (family : SemanticFamily) :
    countFamily (events.addTo key eventId) family =
      countFamily events family + if key.1 = family ∧ key ∉ events then 1 else 0 := by
  have hmem : ∀ (m : SemanticEvents) j, j ∈ m.matching (fun key _ => decide (key.1 = family)) ↔
      j ∈ m ∧ j.1 = family := by
    intro m j
    rw [mem_matching, mem_iff]
    simp
  have hcard := card_of_agree (s := events.matching fun key _ => key.1 = family)
    (t := (events.addTo key eventId).matching fun key _ => key.1 = family) (k := key) <| by
      intro j hj
      rw [hmem, hmem, mem_addTo]
      simp [Ne.symm hj]
  simp only [hmem, mem_addTo, true_or, true_and] at hcard
  rw [countFamily_matching, countFamily_matching]
  by_cases hfam : key.1 = family <;> by_cases hkey : key ∈ events <;>
    simp [hfam, hkey] at hcard ⊢ <;> omega

theorem Holds.countFamily_next (h : Holds hold s) (hf : materializedIdentity f = some (family, k))
    {family' : SemanticFamily} (hfam' : duplicateFamily family' = true) :
    countFamily (s.enter f).semanticEvents family' = countFamily s.semanticEvents family' +
      if family = family' ∧ hold family k = none then 1 else 0 := by
  simp only [SemanticReducer.enter, carrierOf_eq hf]
  by_cases hfam : duplicateFamily family = true
  · simp only [if_pos hfam, enterCarrier, countFamily_addTo, h.mem_carriers hfam,
      Option.not_isSome_iff_eq_none]
  · rw [if_neg hfam]
    have hne : family ≠ family' := by
      rintro rfl
      exact hfam hfam'
    simp [enterCarrier, hne]

theorem revision_of_identity (hf : materializedIdentity f = some (.revision, k)) :
    ∃ revision, f.kind = .revision revision ∧ f.revisionId = some k ∧
      captureOf f = some (k, ⟨f.eventId, revision.objectId⟩) := by
  obtain ⟨v, hv⟩ := selects_captureOf.entry hf
  unfold captureOf at hv ⊢
  cases hkind : f.kind <;> simp only [hkind] at hv ⊢ <;> try cases hv
  case revision revision =>
    obtain ⟨id, hid, hkv⟩ := Option.map_eq_some_iff.mp hv
    cases hkv
    exact ⟨revision, rfl, hid, by rw [hid]; rfl⟩

theorem current_enter_of_ne (hf : materializedIdentity f = some (family, k))
    (hne : family ≠ .revision) : (s.enter f).current = s.current := by
  have hsel : captureOf f = none := (selects_captureOf.cases hf).elim And.right fun h => absurd h.1 hne
  rw [SemanticReducer.current, SemanticReducer.current, SemanticReducer.enter, hsel]
  rfl

theorem current_of_captures {v : CanonicalFactValue Text} (hv : s.captures[k]? = some v) :
    s.current = if s.captures.size = 1 then some (k, v) else none := by
  rw [SemanticReducer.current]
  split
  · rename_i hsize
    rw [toList_of_size_one hsize hv]
    rfl
  · rfl

/-- The counters of the reducer once a fact has arrived, the current Revision apart. -/
structure Counts (s s' : SemanticReducer) (family : SemanticFamily) (new : Prop)
    [Decidable new] : Prop where
  captures : s'.captures.size = s.captures.size + if family = .revision ∧ new then 1 else 0
  requests : s'.requestModes.size = s.requestModes.size + if family = .request ∧ new then 1 else 0
  families : ∀ family', duplicateFamily family' = true →
    countFamily s'.semanticEvents family' =
      countFamily s.semanticEvents family' + if family = family' ∧ new then 1 else 0

theorem Holds.counts (h : Holds hold s) (hf : materializedIdentity f = some (family, k)) :
    Counts s (s.enter f) family (hold family k = none) where
  captures := h.captures.size_next selects_captureOf h.identity hf
  requests := h.requests.size_next selects_requestOf h.identity hf
  families _ hfam' := h.countFamily_next hf hfam'

variable (hc : Counted state s opened operative)

include hc

theorem Counted.of_counts {s' : SemanticReducer} {new : Prop} [Decidable new]
    (hcounts : Counts s s' family new) (hold : ¬ new)
    (hjournal : s'.journalId = s.journalId) {currentRevisionId currentObjectId : Option Text}
    (hrevision : currentRevisionId = s'.current.map Prod.fst)
    (hobject : currentObjectId = s'.current.map (·.2.value)) :
    Counted { state with currentRevisionId, currentObjectId } s' opened operative := by
  obtain ⟨hcaptures, hrequests, hfamilies⟩ := hcounts
  simp only [hold, and_false, if_false, Nat.add_zero] at hcaptures hrequests hfamilies
  exact {
    journalId := hc.journalId.trans hjournal.symm
    revisionCount := hc.revisionCount.trans hcaptures.symm
    currentRevisionId := hrevision
    currentObjectId := hobject
    observationCount := hc.observationCount.trans (hfamilies .observation rfl).symm
    assessmentCount := hc.assessmentCount.trans (hfamilies .assessment rfl).symm
    validationCheckCount := hc.validationCheckCount.trans (hfamilies .validation rfl).symm
    inputRequestCount := hc.inputRequestCount.trans hrequests.symm
    openInputRequestCount := hc.openInputRequestCount
    openOperativeInputRequestCount := hc.openOperativeInputRequestCount }

theorem Counted.increment (h : Holds hold s)
    (hf : materializedIdentity f = some (family, k)) (hnew : hold family k = none) :
    ∃ state', state.incrementMaterializedFamilyCount family f = .ok state' ∧
      state'.eventCount = state.eventCount ∧ Counted state' (s.enter f) opened operative := by
  obtain ⟨hcaptures, hrequests, hfamilies⟩ := h.counts hf
  simp only [hnew, and_true] at hcaptures hrequests hfamilies
  have hobservations := hfamilies .observation rfl
  have hassessments := hfamilies .assessment rfl
  have hvalidations := hfamilies .validation rfl
  by_cases hrevision : family = .revision
  · subst hrevision
    obtain ⟨revision, hkind, hid, hsel⟩ := revision_of_identity hf
    have hget : (s.enter f).captures[k]? = some ⟨f.eventId, revision.objectId⟩ := by
      have hnext := h.captures.next selects_captureOf h.identity hf k
      simpa [SemanticReducer.enter, Holding.next, hnew, hsel] using hnext
    have hcurrent : (s.enter f).current = if s.captures.size = 0 then
        some (k, ⟨f.eventId, revision.objectId⟩) else none := by
      rw [current_of_captures hget, hcaptures, if_pos rfl]
      simp
    simp only [MaterializedSemanticState.incrementMaterializedFamilyCount, hkind, hid]
    refine ⟨_, rfl, rfl, ⟨hc.journalId, ?_, ?_, ?_, ?_, ?_, ?_, ?_, hc.openInputRequestCount,
      hc.openOperativeInputRequestCount⟩⟩
    · simp [hcaptures, hc.revisionCount]
    iterate 2
      · simp only [hcurrent, hc.revisionCount]
        split <;> rfl
    all_goals simp [hobservations, hc.observationCount, hassessments, hc.assessmentCount,
      hvalidations, hc.validationCheckCount, hrequests, hc.inputRequestCount]
  · have hcurrent := current_enter_of_ne (s := s) hf hrevision
    cases family
    case revision => exact absurd rfl hrevision
    all_goals
      refine ⟨_, rfl, rfl, ⟨hc.journalId, ?_, ?_, ?_, ?_, ?_, ?_, ?_, hc.openInputRequestCount,
        hc.openOperativeInputRequestCount⟩⟩ <;>
      simp [hcaptures, hrequests, hobservations, hassessments, hvalidations, hcurrent,
        hc.revisionCount, hc.currentRevisionId, hc.currentObjectId, hc.observationCount,
        hc.assessmentCount, hc.validationCheckCount, hc.inputRequestCount]

theorem Counted.replace (h : Holds hold s)
    (hf : materializedIdentity f = some (family, k)) {g : SemanticFact} (hg : hold family k = some g)
    (hlt : compare f.eventId g.eventId = .lt) :
    ∃ state', state.replaceCurrentRevision family k f = .ok state' ∧
      state'.eventCount = state.eventCount ∧ Counted state' (s.enter f) opened operative := by
  have hcounts := h.counts hf
  have hcounted : ¬ hold family k = none := by simp [hg]
  by_cases hrevision : family = .revision
  · subst hrevision
    obtain ⟨revision, hkind, hid, hsel⟩ := revision_of_identity hf
    have hget : (s.enter f).captures[k]? = some ⟨f.eventId, revision.objectId⟩ := by
      have hnext := h.captures.next selects_captureOf h.identity hf k
      simpa [SemanticReducer.enter, Holding.next, hg, hlt, hsel] using hnext
    obtain ⟨v, -, -, hv⟩ := h.captures.of_held selects_captureOf h.identity hg
    have hcaptures : (s.enter f).captures.size = s.captures.size := by
      simpa [hg] using hcounts.captures
    have hcurrent := current_of_captures hv
    have hcurrent' := current_of_captures hget
    rw [hcaptures] at hcurrent'
    have hrevisionId := hc.currentRevisionId
    have hobjectId := hc.currentObjectId
    rw [hcurrent] at hrevisionId hobjectId
    simp only [MaterializedSemanticState.replaceCurrentRevision, hkind]
    refine ⟨_, rfl, rfl, hc.of_counts hcounts hcounted rfl ?_ ?_⟩
    · rw [hrevisionId, hcurrent']
      split <;> rfl
    · rw [hrevisionId, hobjectId, hcurrent', hc.revisionCount]
      by_cases hone : s.captures.size = 1 <;> simp [hone]
  · have hcurrent := current_enter_of_ne (s := s) hf hrevision
    refine ⟨state, ?_, rfl, hc.of_counts hcounts hcounted rfl (hcurrent ▸ hc.currentRevisionId)
      (hcurrent ▸ hc.currentObjectId)⟩
    cases family
    case revision => exact absurd rfl hrevision
    all_goals rfl

end Holds

end Pointbreak
