import Pointbreak.Event.Recorded
import Pointbreak.Projection.State
import Pointbreak.Semantic.Fact

/-!
# Semantic.State

The session state out of compact facts. The reducer over facts keeps one table of carriers for all
families and names everything by its text; the strict reducer keeps a typed table for each family.
One event and its fact keep the two in step (`Simulates.apply`), and they finish with the same
state.
-/

namespace Pointbreak

open Std BTreeMap ClassifiedFact ExtTreeMap StateReducer List

/-- The families that a fact can stand for in a stored row. -/
inductive SemanticFamily where
  | revision | observation | assessment | request | response | validation
  | commitAssociation | commitWithdrawal | refAssociation | refWithdrawal | removal | changeRecord
deriving DecidableEq

namespace SemanticFamily

def asStr : SemanticFamily → Text
  | revision => text "revision"
  | observation => text "observation"
  | assessment => text "assessment"
  | request => text "request"
  | response => text "response"
  | validation => text "validation"
  | commitAssociation => text "commit_association"
  | commitWithdrawal => text "commit_withdrawal"
  | refAssociation => text "ref_association"
  | refWithdrawal => text "ref_withdrawal"
  | removal => text "removal"
  | changeRecord => text "change_record"

def all : List SemanticFamily :=
  [revision, observation, assessment, request, response, validation, commitAssociation,
    commitWithdrawal, refAssociation, refWithdrawal, removal, changeRecord]

theorem mem_all (family : SemanticFamily) : family ∈ all := by
  cases family <;> simp [all]

theorem asStr_injective : Function.Injective asStr := by
  have h : ∀ a ∈ all, ∀ b ∈ all, a.asStr = b.asStr → a = b := by decide +kernel
  intro a b
  exact h a (mem_all a) b (mem_all b)

instance : Ord SemanticFamily := ⟨fun a b => compare a.asStr b.asStr⟩

instance : TransOrd SemanticFamily where
  eq_swap {a b} := OrientedOrd.eq_swap (a := a.asStr) (b := b.asStr)
  isLE_trans {a b c} h h' := TransOrd.isLE_trans (a := a.asStr) (b := b.asStr) (c := c.asStr) h h'

instance : LawfulEqOrd SemanticFamily where
  eq_of_compare h := asStr_injective (LawfulEqOrd.eq_of_compare h)

instance : Ord (SemanticFamily × Text) := lexOrd

instance : TransOrd (SemanticFamily × Text) :=
  inferInstanceAs (TransCmp (compareLex (compareOn Prod.fst) (compareOn Prod.snd)))

instance : LawfulEqOrd (SemanticFamily × Text) :=
  inferInstanceAs (LawfulEqCmp lexOrd.compare)

/-- The order in which the state lists duplicates. -/
def duplicateRank : SemanticFamily → Nat
  | observation => 0
  | request => 1
  | response => 2
  | assessment => 3
  | validation => 4
  | _ => 5

def duplicateLabel : SemanticFamily → Option (Text × Text)
  | observation => some (text "duplicate_semantic_observation_event", text "observation")
  | request => some (text "duplicate_semantic_input_request_open_event", text "input request")
  | response => some
      (text "duplicate_semantic_input_request_response_event", text "input request response")
  | assessment => some (text "duplicate_semantic_assessment_event", text "assessment")
  | validation => some (text "duplicate_semantic_validation_event", text "validation check")
  | _ => none

end SemanticFamily

/-! ## The snapshot -/

structure SemanticStateSnapshot where
  journalId : Text
  currentRevisionId : Option Text
  currentObjectId : Option Text
  revisionCount : Nat
  eventCount : Nat
  eventSetHash : Option Text
  observationCount : Nat
  assessmentCount : Nat
  validationCheckCount : Nat
  inputRequestCount : Nat
  openInputRequestCount : Nat
  openOperativeInputRequestCount : Nat
  diagnostics : List Json

def diagnosticValue (code message : Text) : Json :=
  .obj [(text "code", .str code), (text "message", .str message)]

def ProjectionDiagnostic.toValue (diagnostic : ProjectionDiagnostic) : Json :=
  diagnosticValue diagnostic.code diagnostic.message

def SemanticStateSnapshot.ofState (state : SessionState) : SemanticStateSnapshot where
  journalId := state.journalId.asStr
  currentRevisionId := state.currentRevisionId.map Ident.asStr
  currentObjectId := state.currentObjectId.map Ident.asStr
  revisionCount := state.revisionCount
  eventCount := state.eventCount
  eventSetHash := state.eventSetHash
  observationCount := state.observationCount
  assessmentCount := state.assessmentCount
  validationCheckCount := state.validationCheckCount
  inputRequestCount := state.inputRequestCount
  openInputRequestCount := state.openInputRequestCount
  openOperativeInputRequestCount := state.openOperativeInputRequestCount
  diagnostics := state.diagnostics.map ProjectionDiagnostic.toValue

def SemanticStateSnapshot.fromEvents {V : Type} (rt : Runtime V) (events : List (ShoreEvent V)) :
    Result SemanticStateSnapshot := do
  let state ← SessionState.fromEvents rt events
  .ok (.ofState state)

/-! ## The reducer over facts -/

def DEFAULT_JOURNAL_ID : Text := text "journal:default"

def DUPLICATE_EVENT_LIMIT : Nat := 5

abbrev CanonicalFactValue (α : Type) : Type := CanonicalValue Text α

/-- Which events carry a semantic id of a family. -/
abbrev SemanticEvents : Type := BTreeMap (SemanticFamily × Text) (BTreeSet Text)

structure SemanticReducer where
  journalId : Text := DEFAULT_JOURNAL_ID
  captures : BTreeMap Text (CanonicalFactValue Text) := ∅
  semanticEvents : SemanticEvents := ∅
  requestModes : BTreeMap Text (CanonicalFactValue AssertionMode) := ∅
  responseTargets : BTreeMap Text (CanonicalFactValue Text) := ∅

namespace SemanticReducer

variable (s : SemanticReducer) (fact : SemanticFact)

def setJournal : SemanticReducer :=
  if fact.eventType = EventType.reviewInitialized.asStr ∨ s.journalId = DEFAULT_JOURNAL_ID then
    { s with journalId := fact.journalId }
  else s

def insertSemantic (family : SemanticFamily) : SemanticResult SemanticReducer := do
  let semanticId ← required fact.semanticId (text "semantic_id")
  .ok { s with semanticEvents := s.semanticEvents.addTo (family, semanticId) fact.eventId }

def applyKind : SemanticResult SemanticReducer :=
  match fact.kind with
  | .revision revision => do
    let revisionId ← required fact.revisionId (text "revision_id")
    .ok { s with
      captures := retainCanonicalValue s.captures revisionId fact.eventId revision.objectId }
  | .observation => s.insertSemantic fact .observation
  | .assessment _ => s.insertSemantic fact .assessment
  | .inputRequestOpened _ => do
    let s ← s.insertSemantic fact .request
    let semanticId ← required fact.semanticId (text "semantic_id")
    .ok { s with
      requestModes :=
        retainCanonicalValue s.requestModes semanticId fact.eventId fact.assertionMode }
  | .inputRequestResponded response => do
    let s ← s.insertSemantic fact .response
    let semanticId ← required fact.semanticId (text "semantic_id")
    .ok { s with
      responseTargets :=
        retainCanonicalValue s.responseTargets semanticId fact.eventId response.requestId }
  | .validation _ => s.insertSemantic fact .validation
  | .commitAssociated _ | .commitWithdrawn _ | .refAssociated _ | .refWithdrawn _
  | .artifactRemoved | .other => .ok s

def apply : SemanticResult SemanticReducer := (s.setJournal fact).applyKind fact

end SemanticReducer

def duplicateGroupLE {α : Type} (a b : (SemanticFamily × Text) × α) : Prop :=
  ((compare a.1.1.duplicateRank b.1.1.duplicateRank).then (compare a.1.2 b.1.2)).isLE = true

instance {α : Type} : DecidableRel (duplicateGroupLE (α := α)) :=
  fun _ _ => inferInstanceAs (Decidable (_ = true))

/-- The diagnostic of an id that several events carry. -/
def duplicateDiagnostic (group : (SemanticFamily × Text) × BTreeSet Text) : Option Json :=
  if group.2.size < 2 then none
  else group.1.1.duplicateLabel.map fun (code, label) =>
    diagnosticValue code (duplicateMessage label group.1.2
      (listedEventIds DUPLICATE_EVENT_LIMIT group.2.size group.2.toList))

def duplicateDiagnostics (events : SemanticEvents) : List Json :=
  (events.toList.insertionSort duplicateGroupLE).filterMap duplicateDiagnostic

def countFamily (events : SemanticEvents) (family : SemanticFamily) : Nat :=
  (events.keys.filter fun key => key.1 = family).length

/-- The requests that a response answers. -/
def SemanticReducer.responded (s : SemanticReducer) : BTreeSet Text :=
  BTreeSet.collect (s.responseTargets.vals.map (·.value))

def SemanticReducer.finish (s : SemanticReducer) (eventCount : Nat) (eventSetHash : Text) :
    SemanticStateSnapshot :=
  let current := if s.captures.size = 1 then s.captures.toList.head? else none
  { journalId := s.journalId
    currentRevisionId := current.map Prod.fst
    currentObjectId := current.map (·.2.value)
    revisionCount := s.captures.size
    eventCount
    eventSetHash := some eventSetHash
    observationCount := countFamily s.semanticEvents .observation
    assessmentCount := countFamily s.semanticEvents .assessment
    validationCheckCount := countFamily s.semanticEvents .validation
    inputRequestCount := s.requestModes.size
    openInputRequestCount := (s.requestModes.keys.filter (· ∉ s.responded)).length
    openOperativeInputRequestCount := (s.requestModes.toList.filter fun (id, mode) =>
      mode.value = .operative && id ∉ s.responded).length
    diagnostics := duplicateDiagnostics s.semanticEvents }

def SemanticStateSnapshot.fromFacts (sha : Sha256) (facts : List SemanticFact) :
    SemanticResult SemanticStateSnapshot := do
  let reducer ← facts.foldlM SemanticReducer.apply {}
  .ok (reducer.finish facts.length
    (Pointbreak.eventSetHash sha (facts.map fun fact => (fact.eventId, fact.payloadHash))))

section Simulation

variable {kind : IdKind}

theorem keepsOrder_asStr : KeepsOrder (Ident.asStr : Ident kind → Text) :=
  fun _ _ => rfl

theorem surjective_asStr : Function.Surjective (Ident.asStr : Ident kind → Text) :=
  fun t => ⟨⟨t⟩, rfl⟩

def familyKey {kind : IdKind} (family : SemanticFamily) (id : Ident kind) :
    SemanticFamily × Text := (family, id.asStr)

theorem keepsOrder_familyKey (family : SemanticFamily) :
    KeepsOrder (familyKey family : Ident kind → SemanticFamily × Text) := by
  intro a b
  change (compare family family).then (compare a b) = compare a b
  rw [ReflOrd.compare_self]
  rfl

def CanonicalValue.untyped {α β : Type} (name : α → β) (c : CanonicalEventValue α) :
    CanonicalFactValue β := ⟨c.eventId.asStr, name c.value⟩

theorem renames_retain {α β : Type} {name : α → β}
    {m : BTreeMap (Ident kind) (CanonicalEventValue α)} {m' : BTreeMap Text (CanonicalFactValue β)}
    (h : Renames Ident.asStr (CanonicalValue.untyped name) m m') (id : Ident kind)
    (eventId : EventId) (value : α) :
    Renames Ident.asStr (CanonicalValue.untyped name) (retainCanonicalValue m id eventId value)
      (retainCanonicalValue m' id.asStr eventId.asStr (name value)) :=
  Renames.insertLeast keepsOrder_asStr.injective h id ⟨eventId, value⟩ fun _ _ => rfl

/-- The two reducers hold the same, one by type and one by text. -/
structure Simulates (s : StateReducer) (t : SemanticReducer) : Prop where
  journalId : t.journalId = s.journalId.asStr
  captures : Renames Ident.asStr (.untyped Ident.asStr) s.capturedRevisions t.captures
  observations : Renames (familyKey .observation) (BTreeSet.image Ident.asStr)
    s.observationEvents t.semanticEvents
  requests : Renames (familyKey .request) (BTreeSet.image Ident.asStr)
    s.inputRequestOpenEvents t.semanticEvents
  responses : Renames (familyKey .response) (BTreeSet.image Ident.asStr)
    s.inputRequestResponseEvents t.semanticEvents
  assessments : Renames (familyKey .assessment) (BTreeSet.image Ident.asStr)
    s.assessmentEvents t.semanticEvents
  validations : Renames (familyKey .validation) (BTreeSet.image Ident.asStr)
    s.validationCheckEvents t.semanticEvents
  families : ∀ key ∈ t.semanticEvents, key.1.duplicateRank < 5
  modes : Renames Ident.asStr (.untyped id) s.inputRequestModes t.requestModes
  targets : Renames Ident.asStr (.untyped Ident.asStr)
    s.inputRequestResponseTargets t.responseTargets

variable {V : Type} {rt : Runtime V} {e : ShoreEvent V} {f : SemanticFact} {s : StateReducer}
  {t : SemanticReducer}

theorem Simulates.init : Simulates {} {} where
  journalId := rfl
  captures := .empty
  observations := .empty
  requests := .empty
  responses := .empty
  assessments := .empty
  validations := .empty
  families _ h := absurd h ExtTreeMap.not_mem_empty
  modes := .empty
  targets := .empty

variable {m' : SemanticEvents} {m : BTreeMap (Ident kind) (BTreeSet EventId)}

theorem renames_beside {family family' : SemanticFamily}
    (h : Renames (familyKey family) (BTreeSet.image Ident.asStr) m m') (hne : family' ≠ family)
    {semanticId eventId : Text} :
    Renames (familyKey family) (BTreeSet.image Ident.asStr) m
      (m'.addTo (family', semanticId) eventId) := by
  refine h.of_agree fun k => ?_
  rw [get_addTo, if_neg]
  intro heq
  exact hne (congrArg Prod.fst heq)

variable {family : SemanticFamily}

theorem families_addTo {m : SemanticEvents} (h : ∀ key ∈ m, key.1.duplicateRank < 5)
    (hrank : family.duplicateRank < 5) {semanticId eventId : Text} :
    ∀ key ∈ m.addTo (family, semanticId) eventId, key.1.duplicateRank < 5 := by
  intro key hkey
  obtain rfl | hkey := mem_addTo.mp hkey
  · exact hrank
  · exact h key hkey

def StateReducer.setJournal (s : StateReducer) (e : ShoreEvent V) : StateReducer :=
  if e.eventType = .reviewInitialized then { s with journalId := e.target.journalId }
  else s.setIdentityFromEventIfDefault e

theorem StateReducer.apply_eq (hv : e.validateSchemaVersion = .ok ()) :
    s.apply rt e = (s.setJournal e).applyPayload rt e := by
  rw [StateReducer.apply, hv, StateReducer.setJournal]
  by_cases ht : e.eventType = .reviewInitialized
  · simp [ht, applyPayload, bind, Except.bind]
  · simp [ht, bind, Except.bind]

theorem Simulates.setJournal (h : Simulates s t) (hf : FactOf rt e f) :
    Simulates (s.setJournal e) (t.setJournal f) := by
  have htype : f.eventType = EventType.reviewInitialized.asStr ↔
      e.eventType = .reviewInitialized := by
    rw [hf.eventType]
    exact EventType.asStr_injective.eq_iff
  have hset : ∀ j : JournalId, Simulates { s with journalId := j } { t with journalId := j.asStr } :=
    fun _ => { h with journalId := rfl }
  unfold StateReducer.setJournal setIdentityFromEventIfDefault
    SemanticReducer.setJournal
  simp only [htype, h.journalId, hf.journalId, DEFAULT_JOURNAL_ID]
  by_cases ht : e.eventType = .reviewInitialized
  · rw [if_pos ht, if_pos (.inl ht)]
    exact hset _
  · rw [if_neg ht]
    by_cases hj : s.journalId.asStr = text "journal:default"
    · rw [if_pos hj, if_pos (.inr hj)]
      exact hset _
    · rw [if_neg hj, if_neg (not_or.mpr ⟨ht, hj⟩)]
      exact h

theorem Simulates.applyPayload (h : Simulates s t) (hf : FactOf rt e f) :
    ∃ s' t', s.applyPayload rt e = .ok s' ∧ t.applyKind f = .ok t' ∧ Simulates s' t' := by
  have hreads := hf.reads
  unfold Reads at hreads
  unfold StateReducer.applyPayload
  cases ht : e.eventType <;> simp only [ht] at hreads ⊢
  case workObjectProposed =>
    obtain ⟨p, hp, hc⟩ := hreads
    obtain ⟨engagement, object⟩ := p
    cases object with
    | revision revision hash supersedes =>
      simp only [ClassifiedFact.proposed, ClassifiedFact.mk.injEq] at hc
      refine ⟨_, _, by simp only [applyWorkObjectProposed, fromValue, hp]; rfl,
        by simp only [SemanticReducer.applyKind, hc]; rfl, ?_⟩
      rw [hf.eventId]
      exact { h with captures := renames_retain h.captures revision.id e.eventId revision.objectId }
    | taskAttempt id =>
      simp only [ClassifiedFact.proposed, ClassifiedFact.other, ClassifiedFact.mk.injEq] at hc
      exact ⟨_, _, by simp only [applyWorkObjectProposed, fromValue, hp]; rfl,
        by simp only [SemanticReducer.applyKind, hc], h⟩
  case reviewObservationRecorded | reviewAssessmentRecorded | validationCheckRecorded |
      inputRequestOpened | inputRequestResponded =>
    obtain ⟨p, hp, hc⟩ := hreads
    simp only [ClassifiedFact.observation, ClassifiedFact.assessment, ClassifiedFact.validation,
      inputRequestOpened, inputRequestResponded,
      ClassifiedFact.mk.injEq] at hc
    refine ⟨_, _, by
      simp only [applyObservationRecorded, applyAssessmentRecorded,
        applyValidationCheckRecorded, applyInputRequestOpened,
        applyInputRequestResponded, fromValue, hp]
      rfl, by simp only [SemanticReducer.applyKind, SemanticReducer.insertSemantic, hc]; rfl, ?_⟩
    simp only [hf.eventId, hf.assertionMode]
    -- the carrier enters the table of its family; the others do not see it
    exact { h with
      observations := by
        first
        | exact h.observations.addTo (keepsOrder_familyKey _).injective _ _
        | exact renames_beside h.observations (by decide)
      requests := by
        first
        | exact h.requests.addTo (keepsOrder_familyKey _).injective _ _
        | exact renames_beside h.requests (by decide)
      responses := by
        first
        | exact h.responses.addTo (keepsOrder_familyKey _).injective _ _
        | exact renames_beside h.responses (by decide)
      assessments := by
        first
        | exact h.assessments.addTo (keepsOrder_familyKey _).injective _ _
        | exact renames_beside h.assessments (by decide)
      validations := by
        first
        | exact h.validations.addTo (keepsOrder_familyKey _).injective _ _
        | exact renames_beside h.validations (by decide)
      families := families_addTo h.families (by decide)
      modes := by
        first
        | exact h.modes
        | exact renames_retain h.modes _ _ _
      targets := by
        first
        | exact h.targets
        | exact renames_retain h.targets _ _ _ }
  case revisionCommitAssociated =>
    obtain ⟨p, hp, hc⟩ := hreads
    obtain ⟨id, target, commit⟩ := p
    cases commit <;>
    · simp only [commitAssociated, ClassifiedFact.mk.injEq] at hc
      exact ⟨_, _, rfl, by simp only [SemanticReducer.applyKind, hc], h⟩
  case revisionCommitWithdrawn | revisionRefAssociated | revisionRefWithdrawn | artifactRemoved =>
    obtain ⟨p, hp, hc⟩ := hreads
    simp only [commitWithdrawn, refAssociated,
      refWithdrawn, artifactRemoved, ClassifiedFact.mk.injEq] at hc
    exact ⟨_, _, rfl, by simp only [SemanticReducer.applyKind, hc], h⟩
  all_goals
    simp only [ClassifiedFact.other, ClassifiedFact.mk.injEq] at hreads
    exact ⟨_, _, rfl, by simp only [SemanticReducer.applyKind, hreads], h⟩

/-- One event and its fact keep the reducers in step. -/
theorem Simulates.apply (h : Simulates s t) (hf : FactOf rt e f)
    (hv : e.validateSchemaVersion = .ok ()) :
    ∃ s' t', s.apply rt e = .ok s' ∧ t.apply f = .ok t' ∧ Simulates s' t' := by
  rw [apply_eq hv]
  exact (h.setJournal hf).applyPayload hf

theorem Simulates.run {E : List (ShoreEvent V)} {facts : List SemanticFact}
    (hE : List.Forall₂ (Yields rt) E facts) (hv : ∀ e ∈ E, e.validateSchemaVersion = .ok ())
    (h : Simulates s t) :
    ∃ s' t', E.foldlM (StateReducer.apply rt) s = .ok s' ∧
      facts.foldlM SemanticReducer.apply t = .ok t' ∧ Simulates s' t' := by
  induction hE generalizing s t with
  | nil => exact ⟨s, t, rfl, rfl, h⟩
  | @cons e f E facts he _ ih =>
    obtain ⟨s₁, t₁, hs, ht, h₁⟩ := h.apply he.factOf (hv e (.head _))
    obtain ⟨s', t', hs', ht', h'⟩ := ih (fun e he => hv e (.tail _ he)) h₁
    refine ⟨s', t', ?_, ?_, h'⟩
    · rw [foldlM_cons, hs]
      exact hs'
    · rw [foldlM_cons, ht]
      exact ht'

/-! ## What they finish with -/

def familyGroups (events : SemanticEvents) (family : SemanticFamily) :
    List ((SemanticFamily × Text) × BTreeSet Text) :=
  events.toList.filter fun entry => entry.1.1 = family

theorem familyGroups_eq (h : Renames (familyKey family) (BTreeSet.image Ident.asStr) m m') :
    familyGroups m' family =
      m.toList.map fun x => (familyKey family x.1, BTreeSet.image Ident.asStr x.2) := by
  refine h.toList_filter (keepsOrder_familyKey family) (fun key => key.1 = family) ?_
  intro key
  rw [decide_eq_true_eq]
  constructor
  · rintro rfl
    exact ⟨⟨key.2⟩, rfl⟩
  · rintro ⟨id, rfl⟩
    rfl

theorem countFamily_eq (h : Renames (familyKey family) (BTreeSet.image Ident.asStr) m m') :
    countFamily m' family = m.size := by
  have hkeys : (m'.keys.filter fun key => key.1 = family) =
      (familyGroups m' family).map Prod.fst := by
    rw [familyGroups, ← map_fst_toList_eq_keys, List.filter_map]
    rfl
  rw [countFamily, hkeys, familyGroups_eq h, List.length_map, List.length_map,
    length_toList]

def reportedFamilies : List SemanticFamily :=
  [.observation, .request, .response, .assessment, .validation]

theorem duplicateRank_inj {a b : SemanticFamily} (ha : a.duplicateRank < 5)
    (hab : a.duplicateRank = b.duplicateRank) : a = b := by
  have h : ∀ a ∈ SemanticFamily.all, ∀ b ∈ SemanticFamily.all, a.duplicateRank < 5 →
      a.duplicateRank = b.duplicateRank → a = b := by decide
  exact h a a.mem_all b b.mem_all ha hab

def duplicateGroupCmp {α : Type} : (SemanticFamily × Text) × α → (SemanticFamily × Text) × α →
    Ordering :=
  compareLex (compareOn (·.1.1.duplicateRank)) (compareOn (·.1.2))

instance {α : Type} : TransCmp (duplicateGroupCmp (α := α)) :=
  inferInstanceAs (TransCmp (compareLex (compareOn _) (compareOn _)))

theorem eq_of_duplicateGroupCmp {α : Type} {m : BTreeMap (SemanticFamily × Text) α}
    {x y : (SemanticFamily × Text) × α} (hrank : x.1.1.duplicateRank < 5) (hx : x ∈ m.toList)
    (hy : y ∈ m.toList) (hxy : duplicateGroupCmp x y = .eq) : x = y := by
  have hcmp := Ordering.then_eq_eq.mp hxy
  have hfam : x.1.1 = y.1.1 := duplicateRank_inj hrank (Nat.compare_eq_eq.mp hcmp.1)
  have hkey : x.1 = y.1 := Prod.ext hfam (LawfulEqOrd.eq_of_compare hcmp.2)
  have hx' := mem_toList_iff.mp hx
  have hy' := mem_toList_iff.mp hy
  rw [hkey, hy'] at hx'
  exact Prod.ext hkey (Option.some.inj hx').symm

theorem pairwise_familyGroups {events : SemanticEvents} :
    (reportedFamilies.flatMap (familyGroups events)).Pairwise
      fun x y => duplicateGroupCmp x y = .lt := by
  have hfamily : ∀ {family}, ∀ x ∈ familyGroups events family, x.1.1 = family :=
    fun _ hx => of_decide_eq_true (mem_filter.mp hx).2
  refine pairwise_flatMap.mpr ⟨?_, ?_⟩
  · intro family _
    have hordered := events.ordered_keys_toList.sublist
      (filter_sublist (p := fun entry => entry.1.1 = family))
    refine hordered.imp_of_mem ?_
    intro x y hx hy hxy
    change (compare x.1.1 y.1.1).then (compare x.1.2 y.1.2) = .lt at hxy
    change (compare x.1.1.duplicateRank y.1.1.duplicateRank).then (compare x.1.2 y.1.2) = .lt
    rw [hfamily x hx, hfamily y hy, ReflOrd.compare_self] at hxy ⊢
    exact hxy
  · have hranks : reportedFamilies.Pairwise fun a b => a.duplicateRank < b.duplicateRank := by
      decide
    refine hranks.imp ?_
    intro a b hab x hx y hy
    change (compare x.1.1.duplicateRank y.1.1.duplicateRank).then (compare x.1.2 y.1.2) = .lt
    rw [hfamily x hx, hfamily y hy, Nat.compare_eq_lt.mpr hab]
    rfl

/-- Sorting by rank and id puts the families one after the other, each in its own order. -/
theorem sort_duplicateGroups {events : SemanticEvents}
    (h : ∀ key ∈ events, key.1.duplicateRank < 5) :
    events.toList.insertionSort duplicateGroupLE =
      reportedFamilies.flatMap (familyGroups events) := by
  have hrank : ∀ x ∈ events.toList, x.1.1.duplicateRank < 5 := fun x hx =>
    h x.1 (mem_iff.mpr ⟨x.2, mem_toList_iff.mp hx⟩)
  have hmem : ∀ x, x ∈ events.toList ↔ x ∈ reportedFamilies.flatMap (familyGroups events) := by
    intro x
    simp only [mem_flatMap, familyGroups, mem_filter, decide_eq_true_eq]
    constructor
    · intro hx
      refine ⟨x.1.1, ?_, hx, rfl⟩
      have hlt := hrank x hx
      revert hlt
      cases x.1.1 <;> decide
    · rintro ⟨_, -, hx, -⟩
      exact hx
  have hnodup : (reportedFamilies.flatMap (familyGroups events)).Nodup := by
    refine pairwise_familyGroups.imp ?_
    intro x y hxy hne
    have hself : duplicateGroupCmp y y = .eq := ReflCmp.compare_self
    rw [hne, hself] at hxy
    cases hxy
  have hnodup' : events.toList.Nodup := .of_map _ (nodup_fst events)
  refine insertionSort_eq_of_perm duplicateGroupCmp (fun _ _ => Iff.rfl)
    ((perm_ext_iff_of_nodup hnodup' hnodup).mpr hmem) ?_ ?_
  · intro x hx y hy hxy
    exact eq_of_duplicateGroupCmp (hrank x hx) hx hy hxy
  · refine pairwise_familyGroups.imp ?_
    intro x y hxy
    rw [hxy]
    rfl

theorem filterMap_duplicateDiagnostic {code label : Text}
    (h : Renames (familyKey family) (BTreeSet.image Ident.asStr) m m')
    (hlabel : family.duplicateLabel = some (code, label)) :
    (familyGroups m' family).filterMap duplicateDiagnostic =
      (duplicateSemanticDiagnostics code label m).map ProjectionDiagnostic.toValue := by
  rw [familyGroups_eq h, filterMap_map, duplicateSemanticDiagnostics, map_filterMap]
  congr 1
  funext x
  simp only [Function.comp_apply, duplicateDiagnostic, familyKey, hlabel,
    BTreeSet.size_image keepsOrder_asStr, BTreeSet.toList_image keepsOrder_asStr, Option.map_some]
  split <;> rfl

theorem Simulates.diagnostics (h : Simulates s t) (n : Nat) (hash : Text) :
    (s.finish n hash).diagnostics.map ProjectionDiagnostic.toValue =
      duplicateDiagnostics t.semanticEvents := by
  rw [duplicateDiagnostics, sort_duplicateGroups h.families, filterMap_flatMap]
  simp only [reportedFamilies, flatMap_cons, flatMap_nil, append_nil,
    filterMap_duplicateDiagnostic h.observations rfl, filterMap_duplicateDiagnostic h.requests rfl,
    filterMap_duplicateDiagnostic h.responses rfl, filterMap_duplicateDiagnostic h.assessments rfl,
    filterMap_duplicateDiagnostic h.validations rfl]
  simp only [StateReducer.finish, map_append, append_assoc]
  rfl

theorem Simulates.mem_responded (h : Simulates s t) {id : InputRequestId} :
    id.asStr ∈ t.responded ↔
      id ∈ BTreeSet.collect (s.inputRequestResponseTargets.vals.map (·.value)) := by
  rw [SemanticReducer.responded, vals, vals, h.targets.toList_eq keepsOrder_asStr surjective_asStr]
  simp [BTreeSet.mem_collect, CanonicalValue.untyped, keepsOrder_asStr.injective.eq_iff]

theorem Simulates.finish (h : Simulates s t) (n : Nat) (hash : Text) :
    SemanticStateSnapshot.ofState (s.finish n hash) = t.finish n hash := by
  have hcaptures := h.captures.toList_eq keepsOrder_asStr surjective_asStr
  have hmodes := h.modes.toList_eq keepsOrder_asStr surjective_asStr
  simp only [SemanticStateSnapshot.ofState, SemanticReducer.finish, h.diagnostics,
    SemanticStateSnapshot.mk.injEq, ← map_fst_toList_eq_keys, hcaptures, hmodes]
  simp only [StateReducer.finish, countFamily_eq h.observations, countFamily_eq h.assessments,
    countFamily_eq h.validations, h.captures.size_eq keepsOrder_asStr surjective_asStr,
    h.modes.size_eq keepsOrder_asStr surjective_asStr, and_true, true_and]
  refine ⟨h.journalId.symm, ?_, ?_, ?_, ?_⟩
  · split <;> simp [Function.comp_def]
  · split <;> simp [Function.comp_def, CanonicalValue.untyped]
  · rw [List.map_map, List.filter_map, List.length_map, ← map_fst_toList_eq_keys,
      List.filter_map, List.length_map]
    simp only [Function.comp_def, h.mem_responded]
  · rw [List.filter_map, List.length_map]
    simp only [Function.comp_def, h.mem_responded, CanonicalValue.untyped, id]

end Simulation

/-- Strict replay of valid events and the reducer over their facts give one state. -/
theorem state_parity {V : Type} {rt : Runtime V} {E : List (ShoreEvent V)}
    {facts : List SemanticFact} (hfacts : List.Forall₂ (Yields rt) E facts)
    (hvalid : ∀ e ∈ E, e.validateSchemaVersion = .ok ()) :
    ∃ snapshot, SemanticStateSnapshot.fromEvents rt E = .ok snapshot ∧
      SemanticStateSnapshot.fromFacts rt.sha256 facts = .ok snapshot := by
  obtain ⟨s, t, hs, ht, h⟩ := Simulates.run hfacts hvalid .init
  have hentries : facts.map (fun f => (f.eventId, f.payloadHash)) =
      E.map fun e => (e.eventId.asStr, e.payloadHash) := by
    clear hs ht hvalid
    induction hfacts with
    | nil => rfl
    | cons he _ ih => rw [map_cons, map_cons, ih, he.factOf.eventId, he.factOf.payloadHash]
  refine ⟨t.finish E.length (eventSetHashForEvents rt.sha256 E), ?_, ?_⟩
  · simp only [SemanticStateSnapshot.fromEvents, SessionState.fromEvents, hs]
    rw [← h.finish]
    rfl
  · simp only [SemanticStateSnapshot.fromFacts, ht, hentries, ← hfacts.length_eq]
    rfl

section Reopened

open Recorded

def readFact (e : ShoreEvent WirePayload) : SemanticResult SemanticFact :=
  SemanticFact.fromEvent runtime e ⟨1, 1⟩ (Text.hexOf 64 0 [])

theorem yields_of_readFact {E : List (ShoreEvent WirePayload)} {facts : List SemanticFact}
    (h : E.mapM readFact = .ok facts) : List.Forall₂ (Yields runtime) E facts :=
  (Result.forall₂_of_mapM h).imp fun _ _ hf => ⟨⟨1, 1⟩, Text.hexOf 64 0 [], hf⟩

/-- A request with two carriers that is answered, and one that stays open. -/
def reopened : List (ShoreEvent WirePayload) :=
  journal 1 [proposed 1, opened 1 1, opened 2 1, opened 1 1, assessed 1 1 .accepted [],
    responded 1 1]

theorem reopened_parity :
    ∃ facts snapshot, List.Forall₂ (Yields runtime) reopened facts ∧
      SemanticStateSnapshot.fromEvents runtime reopened = .ok snapshot ∧
      SemanticStateSnapshot.fromFacts sha facts = .ok snapshot ∧
      snapshot.openInputRequestCount = 1 ∧ snapshot.diagnostics.length = 1 := by
  have hread : ∃ facts, reopened.mapM readFact = .ok facts ∧
      (∀ e ∈ reopened, e.validateSchemaVersion = .ok ()) ∧
      ∃ snapshot, SemanticStateSnapshot.fromEvents runtime reopened = .ok snapshot ∧
        snapshot.openInputRequestCount = 1 ∧ snapshot.diagnostics.length = 1 := by
    decide +kernel
  obtain ⟨facts, hfacts, hvalid, snapshot, hE, hstate⟩ := hread
  have hyields := yields_of_readFact hfacts
  obtain ⟨_, hE', hF⟩ := state_parity hyields hvalid
  cases hE.symm.trans hE'
  exact ⟨facts, snapshot, hyields, hE, hF, hstate⟩

end Reopened

end Pointbreak
