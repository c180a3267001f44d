import Pointbreak.Semantic.State
import Pointbreak.Lib.JsonDecode
import Pointbreak.Lib.Tally
import Pointbreak.Store.EventStore
import Pointbreak.Store.Recorded

/-!
# Projection.StateOrder

What the order of the log can change in the session state. The marks that events leave in the tables
commute, and the event set is hashed in sorted order; only the journal id is taken from the last
initialization, or from the first event that names a journal
(`session_state_order_independent_iff`).
-/

namespace Pointbreak

open Std KeyedLog BTreeMap SessionState List Result

/-- What an event enters in the tables of the reducer. -/
inductive StateMark where
  | captured (revisionId : RevisionId) (objectId : ObjectId)
  | observed (id : ObservationId)
  | assessed (id : AssessmentId)
  | checked (id : ValidationCheckId)
  | opened (id : InputRequestId)
  | responded (id : InputRequestResponseId) (request : InputRequestId)
  | unmarked

namespace StateReducer

variable {V : Type}

def mark (s : StateReducer) (eventId : EventId) (mode : AssertionMode) :
    StateMark → StateReducer
  | .captured revisionId objectId =>
    { s with
      capturedRevisions := retainCanonicalValue s.capturedRevisions revisionId eventId objectId }
  | .observed id => { s with observationEvents := s.observationEvents.addTo id eventId }
  | .assessed id => { s with assessmentEvents := s.assessmentEvents.addTo id eventId }
  | .checked id => { s with validationCheckEvents := s.validationCheckEvents.addTo id eventId }
  | .opened id =>
    { s with
      inputRequestOpenEvents := s.inputRequestOpenEvents.addTo id eventId
      inputRequestModes := retainCanonicalValue s.inputRequestModes id eventId mode }
  | .responded id request =>
    { s with
      inputRequestResponseEvents := s.inputRequestResponseEvents.addTo id eventId
      inputRequestResponseTargets :=
        retainCanonicalValue s.inputRequestResponseTargets id eventId request }
  | .unmarked => s

def readMark (rt : Runtime V) (e : ShoreEvent V) : Result StateMark :=
  match e.eventType with
  | .workObjectProposed => do
    match (← fromValue rt.workObjectProposed e.payload).workObject with
    | .revision revision _ _ => .ok (.captured revision.id revision.objectId)
    | .taskAttempt _ => .ok .unmarked
  | .reviewObservationRecorded => do
    .ok (.observed (← fromValue rt.reviewObservationRecorded e.payload).observationId)
  | .reviewAssessmentRecorded => do
    .ok (.assessed (← fromValue rt.reviewAssessmentRecorded e.payload).assessmentId)
  | .validationCheckRecorded => do
    .ok (.checked (← fromValue rt.validationCheckRecorded e.payload).validationCheckId)
  | .inputRequestOpened => do
    .ok (.opened (← decodeInputRequestOpenedPayload rt e.payload).inputRequestId)
  | .inputRequestResponded => do
    let payload ← fromValue rt.inputRequestResponded e.payload
    .ok (.responded payload.inputRequestResponseId payload.inputRequestId)
  | _ => .ok .unmarked

def readMarked (rt : Runtime V) (e : ShoreEvent V) : Result (ShoreEvent V × StateMark) := do
  e.validateSchemaVersion
  .ok (e, ← readMark rt e)

variable {rt : Runtime V} {s : StateReducer} {e : ShoreEvent V}

theorem applyPayload_eq :
    s.applyPayload rt e = (readMark rt e).map (s.mark e.eventId e.assertionMode) := by
  unfold applyPayload readMark
  cases e.eventType with
  | workObjectProposed =>
    simp only [applyWorkObjectProposed]
    cases fromValue rt.workObjectProposed e.payload with
    | error err => rfl
    | ok payload => cases h : payload.workObject <;> simp [bind, Except.bind, h, Except.map, mark]
  | reviewObservationRecorded =>
    simp only [applyObservationRecorded]
    cases fromValue rt.reviewObservationRecorded e.payload <;> rfl
  | reviewAssessmentRecorded =>
    simp only [applyAssessmentRecorded]
    cases fromValue rt.reviewAssessmentRecorded e.payload <;> rfl
  | validationCheckRecorded =>
    simp only [applyValidationCheckRecorded]
    cases fromValue rt.validationCheckRecorded e.payload <;> rfl
  | inputRequestOpened =>
    simp only [applyInputRequestOpened]
    cases decodeInputRequestOpenedPayload rt e.payload <;> rfl
  | inputRequestResponded =>
    simp only [applyInputRequestResponded]
    cases fromValue rt.inputRequestResponded e.payload <;> rfl
  | _ => rfl

theorem apply_eq_readMarked (s : StateReducer) (e : ShoreEvent V) :
    s.apply rt e = (readMarked rt e).map fun x =>
      (s.setJournal x.1).mark x.1.eventId x.1.assertionMode x.2 := by
  cases hv : e.validateSchemaVersion with
  | error err => rw [apply, readMarked, hv]; rfl
  | ok u =>
    rw [apply_eq hv, applyPayload_eq, readMarked, hv]
    cases readMark rt e <;> rfl

theorem mark_comm {d d' : EventId} (hne : d ≠ d') (m m' : AssertionMode) (x y : StateMark)
    (s : StateReducer) : (s.mark d m x).mark d' m' y = (s.mark d' m' y).mark d m x := by
  have hretain : ∀ {κ α : Type} [Ord κ] [TransOrd κ] [LawfulEqOrd κ] [DecidableEq κ]
      (t : BTreeMap κ (CanonicalEventValue α)) (k k' : κ) (v v' : α),
      retainCanonicalValue (retainCanonicalValue t k d v) k' d' v' =
        retainCanonicalValue (retainCanonicalValue t k' d' v') k d v :=
    fun t k k' v v' => insertLeast_comm hne
  -- different tables never meet; within one table each kind of entry commutes with itself
  cases x <;> cases y <;>
    first | rfl | simp only [mark, hretain, addTo_comm _ _ _ d d']

def journalAfter (j : JournalId) (e : ShoreEvent V) : JournalId :=
  if e.eventType = .reviewInitialized ∨ j = ⟨text "journal:default"⟩ then e.target.journalId else j

theorem setJournal_eq (s : StateReducer) (e : ShoreEvent V) :
    s.setJournal e = { s with journalId := journalAfter s.journalId e } := by
  have hdefault : s.journalId.asStr = text "journal:default" ↔
      s.journalId = ⟨text "journal:default"⟩ := by
    cases s.journalId
    simp
  rw [setJournal, setIdentityFromEventIfDefault, journalAfter]
  by_cases hinit : e.eventType = .reviewInitialized <;>
    by_cases hj : s.journalId = ⟨text "journal:default"⟩ <;> simp [hinit, hdefault, hj]

theorem foldl_marks (m : ShoreEvent V → StateMark) (E : List (ShoreEvent V)) (s : StateReducer)
    (j : JournalId) :
    E.foldl (fun s e => (s.setJournal e).mark e.eventId e.assertionMode (m e))
        { s with journalId := j } =
      { E.foldl (fun s e => s.mark e.eventId e.assertionMode (m e)) s with
        journalId := E.foldl journalAfter j } := by
  induction E generalizing s j with
  | nil => rfl
  | cons e E ih =>
    have hstep : { s with journalId := journalAfter j e }.mark e.eventId e.assertionMode (m e) =
        { s.mark e.eventId e.assertionMode (m e) with journalId := journalAfter j e } := by
      cases m e <;> rfl
    rw [foldl_cons, setJournal_eq]
    exact (congrArg (List.foldl _ · E) hstep).trans (ih _ _)

end StateReducer

section Journal

open StateReducer

variable {V : Type}

def stateJournal (E : List (ShoreEvent V)) : JournalId :=
  E.foldl journalAfter ⟨text "journal:default"⟩

/-- The event belongs to the journal that stands for no journal. -/
def InDefaultJournal (e : ShoreEvent V) : Prop := e.target.journalId = ⟨text "journal:default"⟩

instance : DecidablePred (InDefaultJournal (V := V)) := fun _ => inferInstanceAs (Decidable (_ = _))

/-- The events agree on the journal: initializations all name one, the default one only when no
event names another; and without initializations at most one is named besides the default. -/
structure JournalSettled (E : List (ShoreEvent V)) : Prop where
  initialized : ∀ e ∈ E, ∀ e' ∈ E, e.eventType = .reviewInitialized →
    e'.eventType = .reviewInitialized → e.target.journalId = e'.target.journalId
  default : ∀ e ∈ E, ∀ e' ∈ E, e.eventType = .reviewInitialized → InDefaultJournal e →
    InDefaultJournal e'
  named : (∀ e ∈ E, e.eventType ≠ .reviewInitialized) → ∀ e ∈ E, ∀ e' ∈ E,
    ¬ InDefaultJournal e → ¬ InDefaultJournal e' → e.target.journalId = e'.target.journalId

theorem journalAfter_default (e : ShoreEvent V) :
    journalAfter ⟨text "journal:default"⟩ e = e.target.journalId := if_pos (.inr rfl)

theorem stateJournal_append (E : List (ShoreEvent V)) (e : ShoreEvent V) :
    stateJournal (E ++ [e]) = journalAfter (stateJournal E) e := by
  rw [stateJournal, foldl_append, foldl_cons, foldl_nil, ← stateJournal]

variable {j : JournalId} {E : List (ShoreEvent V)}

theorem stateJournal_of_initialized (hj : j ≠ ⟨text "journal:default"⟩)
    (h : ∀ e ∈ E, e.eventType = .reviewInitialized → e.target.journalId = j)
    (hsome : ∃ e ∈ E, e.eventType = .reviewInitialized) : stateJournal E = j := by
  induction E using List.reverseRecOn with
  | nil => simp at hsome
  | append_singleton E e ih =>
    rw [stateJournal_append, journalAfter]
    by_cases hinit : e.eventType = .reviewInitialized
    · rw [if_pos (.inl hinit)]
      exact h e (by simp) hinit
    · have hE : stateJournal E = j := by
        refine ih (fun e' he' => h e' (mem_append_left _ he')) ?_
        simpa [or_and_right, exists_or, hinit] using hsome
      rw [hE, if_neg (not_or.mpr ⟨hinit, hj⟩)]

theorem foldl_journalAfter_named (hj : j ≠ ⟨text "journal:default"⟩)
    (hnone : ∀ e ∈ E, e.eventType ≠ .reviewInitialized) : E.foldl journalAfter j = j := by
  induction E with
  | nil => rfl
  | cons e E ih =>
    have hstay : journalAfter j e = j := if_neg (not_or.mpr ⟨hnone e (.head _), hj⟩)
    rw [foldl_cons, hstay]
    exact ih fun e' he' => hnone e' (.tail _ he')

theorem stateJournal_of_named (hnone : ∀ e ∈ E, e.eventType ≠ .reviewInitialized)
    (h : ∀ e ∈ E, ¬ InDefaultJournal e → e.target.journalId = j)
    (hsome : ∃ e ∈ E, ¬ InDefaultJournal e) : stateJournal E = j := by
  induction E with
  | nil => simp at hsome
  | cons e E ih =>
    have hnone' : ∀ e' ∈ E, e'.eventType ≠ .reviewInitialized :=
      fun e' he' => hnone e' (.tail _ he')
    rw [stateJournal, foldl_cons, journalAfter_default]
    by_cases hdefault : InDefaultJournal e
    · have hdefault' : e.target.journalId = ⟨text "journal:default"⟩ := hdefault
      rw [hdefault', ← stateJournal]
      refine ih hnone' (fun e' he' => h e' (.tail _ he')) ?_
      simpa [hdefault] using hsome
    · rw [← h e (.head _) hdefault]
      exact foldl_journalAfter_named hdefault hnone'

theorem stateJournal_of_default (h : ∀ e ∈ E, InDefaultJournal e) :
    stateJournal E = ⟨text "journal:default"⟩ := by
  induction E using List.reverseRecOn with
  | nil => rfl
  | append_singleton E e ih =>
    rw [stateJournal_append, ih fun e' he' => h e' (mem_append_left _ he'),
      journalAfter_default, h e (by simp)]

theorem JournalSettled.stateJournal_perm {E E' : List (ShoreEvent V)} (h : JournalSettled E)
    (hp : E.Perm E') : stateJournal E' = stateJournal E := by
  suffices hj : ∃ j, ∀ E', E.Perm E' → stateJournal E' = j by
    obtain ⟨j, hj⟩ := hj
    rw [hj E' hp, hj E (.refl E)]
  by_cases hdefault : ∀ e ∈ E, InDefaultJournal e
  · exact ⟨_, fun E' hp => stateJournal_of_default fun e he => hdefault e (hp.mem_iff.mpr he)⟩
  · simp only [not_forall] at hdefault
    obtain ⟨n, hn, hnamed⟩ := hdefault
    by_cases hinit : ∃ e ∈ E, e.eventType = .reviewInitialized
    · obtain ⟨i, hi, hinit⟩ := hinit
      exact ⟨_, fun E' hp => stateJournal_of_initialized
        (fun hj => hnamed (h.default i hi n hn hinit hj))
        (fun e he ht => h.initialized e (hp.mem_iff.mpr he) i hi ht hinit)
        ⟨i, hp.mem_iff.mp hi, hinit⟩⟩
    · have hnone : ∀ e ∈ E, e.eventType ≠ .reviewInitialized :=
        fun e he ht => hinit ⟨e, he, ht⟩
      exact ⟨_, fun E' hp => stateJournal_of_named (fun e he => hnone e (hp.mem_iff.mpr he))
        (fun e he hne => h.named hnone e (hp.mem_iff.mpr he) n hn hne hnamed)
        ⟨n, hp.mem_iff.mp hn, hnamed⟩⟩

theorem exists_perm_last {e : ShoreEvent V} (he : e ∈ E) :
    ∃ rest : List (ShoreEvent V), E.Perm (rest ++ [e]) ∧ ∀ e' ∈ E, e' = e ∨ e' ∈ rest := by
  obtain ⟨l, r, rfl⟩ := append_of_mem he
  have hp : (l ++ e :: r).Perm ((l ++ r) ++ [e]) :=
    perm_middle.trans (perm_append_singleton e (l ++ r)).symm
  refine ⟨l ++ r, hp, fun e' he' => ?_⟩
  have hmem := hp.mem_iff.mp he'
  rw [mem_append, mem_singleton] at hmem
  exact hmem.symm

/-- Where every order finds the same journal, the events agree on it. -/
theorem journalSettled_of_perm (h : ∀ E', E.Perm E' → stateJournal E' = stateJournal E) :
    JournalSettled E := by
  have hinit : ∀ e ∈ E, e.eventType = .reviewInitialized →
      stateJournal E = e.target.journalId := by
    intro e he ht
    obtain ⟨rest, hp, -⟩ := exists_perm_last he
    rw [← h _ hp, stateJournal_append]
    exact if_pos (.inl ht)
  refine ⟨fun e he e' he' ht ht' => ?_, fun e he e' he' ht hdefault => ?_,
    fun hnone e he e' he' hne hne' => ?_⟩
  · rw [← hinit e he ht, ← hinit e' he' ht']
  · by_cases ht' : e'.eventType = .reviewInitialized
    · exact (hinit e' he' ht').symm.trans ((hinit e he ht).trans hdefault)
    · -- the initialization comes last but one, the other event last
      obtain ⟨rest, hp, hmem⟩ := exists_perm_last he'
      obtain rfl | hrest := hmem e he
      · exact absurd ht ht'
      · obtain ⟨rest', hp', -⟩ := exists_perm_last hrest
        have hlast := h _ (hp.trans (hp'.append_right [e']))
        have hbefore : stateJournal (rest' ++ [e]) = ⟨text "journal:default"⟩ := by
          rw [stateJournal_append]
          exact (if_pos (.inl ht)).trans hdefault
        rw [stateJournal_append, hbefore, journalAfter_default, hinit e he ht] at hlast
        exact hlast.trans hdefault
  · have hfirst : ∀ e ∈ E, ¬ InDefaultJournal e → stateJournal E = e.target.journalId := by
      intro e he hne
      obtain ⟨rest, hp, -⟩ := exists_perm_last he
      have hp' : E.Perm (e :: rest) := hp.trans (perm_append_singleton e rest)
      rw [← h _ hp', stateJournal, foldl_cons, journalAfter_default]
      exact foldl_journalAfter_named hne fun e' he' =>
        hnone e' (hp'.mem_iff.mpr (.tail _ he'))
    rw [← hfirst e he hne, ← hfirst e' he' hne']

end Journal

section EventSet

variable {V : Type}

def eventSetEntries (E : List (ShoreEvent V)) : List (Text × Text) :=
  E.map fun e => (e.eventId.asStr, e.payloadHash)

def eventSetMaterial (entries : List (Text × Text)) : Json :=
  .obj [(text "schema", .str (text "shore.event-set.v1")),
    (text "events", .arr ((entries.insertionSort eventSetEntryLE).map fun entry =>
      .obj [(text "eventId", .str entry.1), (text "payloadHash", .str entry.2)]))]

theorem eventSetEntryLE_iff (a b : Text × Text) :
    eventSetEntryLE a b ↔ (lexOrd.compare a b).isLE = true := Iff.rfl

theorem eventSetMaterial_canonical_inj {entries entries' : List (Text × Text)}
    (h : (eventSetMaterial entries).canonical = (eventSetMaterial entries').canonical) :
    entries.insertionSort eventSetEntryLE = entries'.insertionSort eventSetEntryLE := by
  have hf := Json.canonicalFields_of_canonical [text "schema", text "events"] rfl rfl
    (by decide +kernel) h
  simp only [Json.canonicalFields, List.cons.injEq, Prod.mk.injEq] at hf
  obtain ⟨-, ⟨-, hevents⟩, -⟩ := hf
  refine Json.arr_map_canonical_inj (fun a b hab => ?_) hevents
  have hf := Json.canonicalFields_of_canonical [text "eventId", text "payloadHash"] rfl rfl
    (by decide +kernel) hab
  simp only [Json.canonicalFields, Json.canonical_str, List.cons.injEq, Prod.mk.injEq,
    Json.str.injEq, true_and, and_true] at hf
  exact Prod.ext hf.1 hf.2

theorem nodup_eventSetEntries {E : List (ShoreEvent V)} (h : (E.map (·.eventId)).Nodup) :
    (eventSetEntries E).Nodup := by
  refine List.Nodup.of_map (f := fun entry : Text × Text => (⟨entry.1⟩ : EventId)) ?_
  rw [eventSetEntries, map_map]
  exact h

theorem eventSetHash_perm (sha : Sha256) {entries entries' : List (Text × Text)}
    (hp : entries.Perm entries') : eventSetHash sha entries = eventSetHash sha entries' := by
  rw [eventSetHash, eventSetHash, (insertionSort_inj eventSetEntryLE_iff).mpr hp]

theorem eventSetHash_eq_iff {sha : Sha256} {E E' : List (ShoreEvent V)}
    (hcf : CollisionFree sha
      [eventSetMaterial (eventSetEntries E), eventSetMaterial (eventSetEntries E')])
    (hE : (E.map (·.eventId)).Nodup) (hE' : (E'.map (·.eventId)).Nodup) :
    eventSetHashForEvents sha E = eventSetHashForEvents sha E' ↔
      ∀ entry, entry ∈ eventSetEntries E ↔ entry ∈ eventSetEntries E' := by
  rw [← perm_ext_iff_of_nodup (nodup_eventSetEntries hE) (nodup_eventSetEntries hE')]
  constructor
  · intro h
    have hmaterial := hcf (eventSetMaterial (eventSetEntries E)) (by simp)
      (eventSetMaterial (eventSetEntries E')) (by simp) h
    exact (insertionSort_inj eventSetEntryLE_iff).mp (eventSetMaterial_canonical_inj hmaterial)
  · exact eventSetHash_perm sha

end EventSet

section State

open StateReducer

variable {V : Type} {rt : Runtime V} {E E' : List (ShoreEvent V)}

/-- The payload decodes, if it is of a type that the reducer reads. -/
def Decodes (rt : Runtime V) (e : ShoreEvent V) : Prop :=
  match e.eventType with
  | .workObjectProposed => ∃ payload, rt.workObjectProposed e.payload = .ok payload
  | .reviewObservationRecorded => ∃ payload, rt.reviewObservationRecorded e.payload = .ok payload
  | .reviewAssessmentRecorded => ∃ payload, rt.reviewAssessmentRecorded e.payload = .ok payload
  | .validationCheckRecorded => ∃ payload, rt.validationCheckRecorded e.payload = .ok payload
  | .inputRequestOpened => rt.hasMode e.payload = false ∧
      ∃ payload, rt.inputRequestOpened e.payload = .ok payload
  | .inputRequestResponded => ∃ payload, rt.inputRequestResponded e.payload = .ok payload
  | _ => True

/-- The schema of the event is known and its payload decodes. -/
structure Applies (rt : Runtime V) (e : ShoreEvent V) : Prop where
  schema : e.schema = EVENT_SCHEMA
  version : e.version = EVENT_VERSION
  payload : Decodes rt e

variable {e : ShoreEvent V}

theorem decodes_iff : Decodes rt e ↔ ∃ mark, readMark rt e = .ok mark := by
  unfold Decodes readMark
  cases e.eventType with
  | workObjectProposed =>
    simp only [bind_eq_ok, fromValue_eq_ok]
    constructor
    · rintro ⟨payload, hpayload⟩
      cases hobject : payload.workObject with
      | revision => exact ⟨_, payload, hpayload, by rw [hobject]⟩
      | taskAttempt => exact ⟨_, payload, hpayload, by rw [hobject]⟩
    · rintro ⟨_, payload, hpayload, -⟩
      exact ⟨payload, hpayload⟩
  | inputRequestOpened =>
    simp only [decodeInputRequestOpenedPayload, bind_eq_ok, ensure_eq_ok,
      fromValue_eq_ok, Bool.not_eq_true', exists_const]
    constructor
    · rintro ⟨hmode, payload, hpayload⟩
      exact ⟨_, payload, ⟨hmode, hpayload⟩, rfl⟩
    · rintro ⟨_, payload, ⟨hmode, hpayload⟩, -⟩
      exact ⟨hmode, payload, hpayload⟩
  | reviewObservationRecorded | reviewAssessmentRecorded | validationCheckRecorded
  | inputRequestResponded =>
    simp only [bind_eq_ok, fromValue_eq_ok]
    constructor
    · rintro ⟨payload, hpayload⟩
      exact ⟨_, payload, hpayload, rfl⟩
    · rintro ⟨_, payload, hpayload, -⟩
      exact ⟨payload, hpayload⟩
  | _ => exact iff_of_true trivial ⟨_, rfl⟩

theorem applies_iff : Applies rt e ↔ ∃ x, readMarked rt e = .ok x := by
  have hknown : e.validateSchemaVersion = .ok () ↔
      e.schema = EVENT_SCHEMA ∧ e.version = EVENT_VERSION := by
    simp [ShoreEvent.validateSchemaVersion]
  simp only [readMarked, bind_eq_ok]
  constructor
  · rintro ⟨hschema, hversion, hdecodes⟩
    obtain ⟨mark, hmark⟩ := decodes_iff.mp hdecodes
    exact ⟨_, (), hknown.mpr ⟨hschema, hversion⟩, mark, hmark, rfl⟩
  · rintro ⟨_, _, hvalid, mark, hmark, -⟩
    obtain ⟨hschema, hversion⟩ := hknown.mp hvalid
    exact ⟨hschema, hversion, decodes_iff.mpr ⟨mark, hmark⟩⟩

def markOf (rt : Runtime V) (e : ShoreEvent V) : StateMark :=
  (readMark rt e).toOption.getD .unmarked

theorem apply_of_applies (h : Applies rt e) (s : StateReducer) :
    s.apply rt e =
      .ok ((s.setJournal e).mark e.eventId e.assertionMode (markOf rt e)) := by
  obtain ⟨x, hx⟩ := applies_iff.mp h
  rw [apply_eq_readMarked, hx]
  rw [readMarked, bind_eq_ok] at hx
  obtain ⟨-, -, hx⟩ := hx
  rw [bind_eq_ok] at hx
  obtain ⟨m, hm, hx⟩ := hx
  cases hx
  rw [markOf, hm]
  rfl

def marked (rt : Runtime V) (E : List (ShoreEvent V)) : StateReducer :=
  E.foldl (fun s e => s.mark e.eventId e.assertionMode (markOf rt e)) {}

theorem marked_perm (hids : (E.map (·.eventId)).Nodup) (hp : E.Perm E') :
    marked rt E = marked rt E' := by
  refine hp.foldl_eq' (fun e he e' he' s => ?_) ({} : StateReducer)
  by_cases hsame : e = e'
  · rw [hsame]
  · refine (mark_comm (fun hid => hsame ?_) _ _ _ _ s).symm
    exact inj_on_of_nodup_map hids he he' hid.symm

theorem fromEvents_of_applies (h : ∀ e ∈ E, Applies rt e) :
    SessionState.fromEvents rt E = .ok ({ marked rt E with journalId := stateJournal E }.finish
      E.length (eventSetHashForEvents rt.sha256 E)) := by
  have hrun := foldlM_eq_ok (fun s e he => apply_of_applies (h e he) s) ({} : StateReducer)
  rw [fromEvents, hrun]
  have hsplit := foldl_marks (markOf rt) E {} ⟨text "journal:default"⟩
  exact congrArg (fun s => Except.ok (StateReducer.finish s _ _)) hsplit

theorem fromEvents_of_not_applies (he : e ∈ E) (h : ¬ Applies rt e) :
    (SessionState.fromEvents rt E).toOption = none := by
  cases hstate : fromEvents rt E with
  | error err => rfl
  | ok state =>
    rw [fromEvents, bind_eq_ok] at hstate
    obtain ⟨s, hs, -⟩ := hstate
    exact absurd (applies_iff.mpr (((foldlM_read apply_eq_readMarked).mp hs).1 e he)) h

/-- Every order gives one state, or none at all, exactly when the events agree on the journal or
one of them cannot be applied; and the event set hash tells exactly which events there are. -/
theorem session_state_order_independent_iff (rt : Runtime V) (E : List (ShoreEvent V))
    (hids : (E.map (·.eventId)).Nodup) :
    ((∀ E', E.Perm E' →
        (SessionState.fromEvents rt E').toOption = (SessionState.fromEvents rt E).toOption) ↔
      ((∀ e ∈ E, Applies rt e) → JournalSettled E)) ∧
    ∀ E' : List (ShoreEvent V), (E'.map (·.eventId)).Nodup →
      CollisionFree rt.sha256
        [eventSetMaterial (eventSetEntries E), eventSetMaterial (eventSetEntries E')] →
      (eventSetHashForEvents rt.sha256 E = eventSetHashForEvents rt.sha256 E' ↔
        ∀ entry, entry ∈ eventSetEntries E ↔ entry ∈ eventSetEntries E') := by
  refine ⟨⟨fun h happlies => ?_, fun h E' hp => ?_⟩,
    fun E' hids' hcf => eventSetHash_eq_iff hcf hids hids'⟩
  · refine journalSettled_of_perm fun E' hp => ?_
    have hstates := h E' hp
    rw [fromEvents_of_applies happlies,
      fromEvents_of_applies fun e he => happlies e (hp.mem_iff.mpr he)] at hstates
    exact congrArg SessionState.journalId (Option.some.inj hstates)
  · by_cases happlies : ∀ e ∈ E, Applies rt e
    · rw [fromEvents_of_applies happlies,
        fromEvents_of_applies fun e he => happlies e (hp.mem_iff.mpr he),
        (h happlies).stateJournal_perm hp, ← marked_perm hids hp, ← hp.length_eq,
        eventSetHashForEvents, ← eventSetHash_perm rt.sha256 (hp.map _)]
      rfl
    · simp only [not_forall] at happlies
      obtain ⟨e, he, hfails⟩ := happlies
      rw [fromEvents_of_not_applies he hfails, fromEvents_of_not_applies (hp.mem_iff.mp he) hfails]

end State

section TwoJournals

open StoreRecorded

def initializes (j : Text) : StoredEvent StorePayload :=
  let started := event .reviewInitialized (EventType.reviewInitialized.typeCode ++ text ":" ++ j)
    (.other (text "initialized"))
  { started with target := { started.target with journalId := ⟨j⟩ } }

def twoJournals : List (StoredEvent StorePayload) :=
  [initializes (text "journal:a"), initializes (text "journal:b")]

/-- Two valid events in two orders give two states. -/
theorem two_journals_tell_the_order :
    (∀ e ∈ twoJournals, validateEvent runtime e = .ok ()) ∧
    ((twoJournals.map StoredEvent.toShoreEvent).map (·.eventId)).Nodup ∧
    (SessionState.fromEvents runtime.toRuntime
        (twoJournals.map StoredEvent.toShoreEvent)).toOption.map (·.journalId) =
      some ⟨text "journal:b"⟩ ∧
    (SessionState.fromEvents runtime.toRuntime
        (twoJournals.map StoredEvent.toShoreEvent).reverse).toOption.map (·.journalId) =
      some ⟨text "journal:a"⟩ := by
  decide +kernel

def oneJournal : List (ShoreEvent StorePayload) :=
  ([initializes (text "journal:a"), event .workObjectProposed (text "t:02:01")
      (.wire (Recorded.proposed 1)), event .inputRequestOpened (text "t:05:01")
      (.wire (Recorded.opened 1 1))]).map StoredEvent.toShoreEvent

theorem one_journal_order_independent :
    (∀ E', oneJournal.Perm E' →
      (SessionState.fromEvents runtime.toRuntime E').toOption =
        (SessionState.fromEvents runtime.toRuntime oneJournal).toOption) ∧
    (SessionState.fromEvents runtime.toRuntime oneJournal).toOption.isSome = true ∧
    eventSetHashForEvents checksum oneJournal ≠ eventSetHashForEvents checksum oneJournal.tail := by
  have hfacts : (oneJournal.map (·.eventId)).Nodup ∧ (oneJournal.tail.map (·.eventId)).Nodup ∧
      (fromEvents runtime.toRuntime oneJournal).toOption.isSome = true ∧
      ([eventSetMaterial (eventSetEntries oneJournal),
        eventSetMaterial (eventSetEntries oneJournal.tail)].map
          (sha256JsonPrefixed checksum)).Nodup ∧
      ¬ ∀ entry ∈ eventSetEntries oneJournal, entry ∈ eventSetEntries oneJournal.tail := by
    decide +kernel
  obtain ⟨hids, htail, hstate, hhashes, hless⟩ := hfacts
  have hsettled : JournalSettled oneJournal := by constructor <;> decide +kernel
  have hmain := session_state_order_independent_iff runtime.toRuntime oneJournal hids
  refine ⟨hmain.1.mpr fun _ => hsettled, hstate, fun hsame => ?_⟩
  have hset := (hmain.2 oneJournal.tail htail (collisionFree_of_nodup hhashes)).mp hsame
  exact hless fun entry hentry => (hset entry).mp hentry

end TwoJournals

end Pointbreak
