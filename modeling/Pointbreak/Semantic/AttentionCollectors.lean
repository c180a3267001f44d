import Pointbreak.Lib.Listing
import Pointbreak.Semantic.Attention

/-!
# Semantic.AttentionCollectors

The collectors of the attention snapshot, side by side. Each family of carriers that strict replay
keeps is put beside the facts that the other side keeps, and each collector is then shown to read
the same off both.
-/

namespace Pointbreak

open Std BTreeMap KeyedLog CarrierFamily Result SemanticFact AssessmentRecord List

section Families

variable {V : Type} {rt : Runtime V} {E : List (ShoreEvent V)} {facts : List SemanticFact}
  {e : ShoreEvent V} {f : SemanticFact}

def requestRecordOf (rt : Runtime V) (e : ShoreEvent V) : Option (InputRequestOpenRecord V) :=
  if e.eventType = .inputRequestOpened then
    (decodeInputRequestOpenedPayload rt e.payload).toOption.bind fun payload =>
      e.target.trackId.map fun trackId => { event := e, payload, trackId }
  else none

theorem requestRecordOf_eq_some {w : InputRequestOpenRecord V} :
    requestRecordOf rt e = some w ↔ e.eventType = .inputRequestOpened ∧
      decodeInputRequestOpenedPayload rt e.payload = .ok w.payload ∧
      e.target.trackId = some w.trackId ∧ w.event = e := by
  obtain ⟨event, payload, trackId⟩ := w
  simp only [requestRecordOf, Option.ite_none_right_eq_some, Option.bind_eq_some_iff,
    Option.map_eq_some_iff, toOption_eq_some, InputRequestOpenRecord.mk.injEq]
  refine and_congr_right fun _ => ⟨?_, ?_⟩
  · rintro ⟨p, hp, t, htrack, rfl, rfl, rfl⟩
    exact ⟨hp, htrack, rfl⟩
  · rintro ⟨hp, htrack, rfl⟩
    exact ⟨payload, hp, trackId, htrack, rfl, rfl, rfl⟩

def requestFamily (rt : Runtime V) : CarrierFamily V (InputRequestOpenRecord V) InputRequestId where
  recordOf := requestRecordOf rt
  event record := record.event
  key record := record.payload.inputRequestId
  event_recordOf _ _ h := (requestRecordOf_eq_some.mp h).2.2.2

def responseRecordOf (rt : Runtime V) (e : ShoreEvent V) : Option (InputRequestResponseRecord V) :=
  if e.eventType = .inputRequestResponded then
    (rt.inputRequestResponded e.payload).toOption.map fun payload => { event := e, payload }
  else none

theorem responseRecordOf_eq_some {w : InputRequestResponseRecord V} :
    responseRecordOf rt e = some w ↔ e.eventType = .inputRequestResponded ∧
      rt.inputRequestResponded e.payload = .ok w.payload ∧ w.event = e := by
  obtain ⟨event, payload⟩ := w
  simp only [responseRecordOf, Option.ite_none_right_eq_some, Option.map_eq_some_iff,
    toOption_eq_some, InputRequestResponseRecord.mk.injEq]
  refine and_congr_right fun _ => ⟨?_, ?_⟩
  · rintro ⟨p, hp, rfl, rfl⟩
    exact ⟨hp, rfl⟩
  · rintro ⟨hp, rfl⟩
    exact ⟨payload, hp, rfl, rfl⟩

def responseFamily (rt : Runtime V) :
    CarrierFamily V (InputRequestResponseRecord V) InputRequestResponseId where
  recordOf := responseRecordOf rt
  event record := record.event
  key record := record.payload.inputRequestResponseId
  event_recordOf _ _ h := (responseRecordOf_eq_some.mp h).2.2

def validationRecordOf (rt : Runtime V) (e : ShoreEvent V) : Option (ValidationRecord V) :=
  if e.eventType = .validationCheckRecorded then
    (rt.validationCheckRecorded e.payload).toOption.bind fun payload =>
      e.target.trackId.map fun trackId => { event := e, payload, trackId }
  else none

variable {w : ValidationRecord V}

theorem validationRecordOf_eq_some :
    validationRecordOf rt e = some w ↔ e.eventType = .validationCheckRecorded ∧
      rt.validationCheckRecorded e.payload = .ok w.payload ∧
      e.target.trackId = some w.trackId ∧ w.event = e := by
  obtain ⟨event, payload, trackId⟩ := w
  simp only [validationRecordOf, Option.ite_none_right_eq_some, Option.bind_eq_some_iff,
    Option.map_eq_some_iff, toOption_eq_some, ValidationRecord.mk.injEq]
  refine and_congr_right fun _ => ⟨?_, ?_⟩
  · rintro ⟨p, hp, t, htrack, rfl, rfl, rfl⟩
    exact ⟨hp, htrack, rfl⟩
  · rintro ⟨hp, htrack, rfl⟩
    exact ⟨payload, hp, trackId, htrack, rfl, rfl, rfl⟩

def validationFamily (rt : Runtime V) : CarrierFamily V (ValidationRecord V) ValidationCheckId where
  recordOf := validationRecordOf rt
  event record := record.event
  key record := record.payload.validationCheckId
  event_recordOf _ _ h := (validationRecordOf_eq_some.mp h).2.2.2

def captureId (rt : Runtime V) (e : ShoreEvent V) : Option RevisionId :=
  if e.eventType = .workObjectProposed then
    (rt.workObjectProposed e.payload).toOption.bind fun payload =>
      match payload.workObject with
      | .revision revision _ _ => some revision.id
      | .taskAttempt _ => none
  else none

def captureFamily (rt : Runtime V) : CarrierFamily V (ShoreEvent V) RevisionId where
  recordOf e := (captureId rt e).map fun _ => e
  event := id
  key e := (captureId rt e).getD ⟨[]⟩
  event_recordOf e w h := by
    obtain ⟨_, -, rfl⟩ := Option.map_eq_some_iff.mp h
    rfl

/-- Every assessment, every request and every check is on a track. -/
def AllTracked (E : List (ShoreEvent V)) : Prop :=
  ∀ e ∈ E, e.eventType = .reviewAssessmentRecorded ∨ e.eventType = .inputRequestOpened ∨
    e.eventType = .validationCheckRecorded → e.target.trackId.isSome

theorem requestRecords_eq {kept : InputRequestRepresentatives V}
    (h : E.foldlM (collectInputRequestRecord rt) {} = .ok kept) :
    kept.requestRecords = (requestFamily rt).table E ∧
      kept.responseRecords = (responseFamily rt).table E := by
  obtain ⟨-, rfl⟩ := (foldlM_read (collectInputRequestRecord_eq rt)).mp h
  have hstep : ∀ (kept : InputRequestRepresentatives V) (e : ShoreEvent V),
      ((readInputRequest rt e).toOption.elim kept (enterInputRequest kept)).requestRecords =
        (requestFamily rt).enter kept.requestRecords e ∧
      ((readInputRequest rt e).toOption.elim kept (enterInputRequest kept)).responseRecords =
        (responseFamily rt).enter kept.responseRecords e := by
    intro kept e
    unfold readInputRequest CarrierFamily.enter requestFamily responseFamily
    simp only [requestRecordOf, responseRecordOf]
    cases ht : e.eventType <;> simp only [reduceCtorEq, if_false, if_true] <;>
      try exact ⟨rfl, rfl⟩
    case inputRequestOpened =>
      cases decodeInputRequestOpenedPayload rt e.payload with
      | error x => exact ⟨rfl, rfl⟩
      | ok payload => cases e.target.trackId <;> exact ⟨rfl, rfl⟩
    case inputRequestResponded =>
      unfold fromValue
      cases rt.inputRequestResponded e.payload <;> exact ⟨rfl, rfl⟩
  exact ⟨(foldl_hom (·.requestRecords) fun kept e => (hstep kept e).1.symm).symm,
    (foldl_hom (·.responseRecords) fun kept e => (hstep kept e).2.symm).symm⟩

theorem validationRecords_eq_ok (h : List.Forall₂ (FactOf rt) E facts)
    {records : BTreeMap ValidationCheckId (ValidationRecord V)} :
    (E.filter fun event => event.eventType = .validationCheckRecorded).foldlM
        (collectValidationRecord rt) ∅ = .ok records ↔
      (∀ e ∈ E, e.eventType = .validationCheckRecorded → e.target.trackId.isSome) ∧
        records = (validationFamily rt).table E := by
  have hdecode : ∀ e ∈ E, e.eventType = .validationCheckRecorded →
      ∃ p, rt.validationCheckRecorded e.payload = .ok p := by
    intro e he ht
    obtain ⟨f, hf⟩ := exists_factOf h he
    have hreads := hf.reads
    simp only [Reads, ht] at hreads
    obtain ⟨p, hp, -⟩ := hreads
    exact ⟨p, hp⟩
  refine foldlM_filter_eq_ok (fun e => e.target.trackId.isSome) ?_ ?_ ?_
  · intro e _ ht
    simp [validationFamily, validationRecordOf, ht]
  · intro e he ht htrack m
    obtain ⟨p, hp⟩ := hdecode e he ht
    obtain ⟨trackId, htrack⟩ := Option.isSome_iff_exists.mp htrack
    simp only [collectValidationRecord, CarrierFamily.enter, validationFamily, validationRecordOf,
      fromValue, hp, htrack, ht]
    rfl
  · intro e he ht htrack m m' hm
    obtain ⟨p, hp⟩ := hdecode e he ht
    rw [Option.not_isSome_iff_eq_none] at htrack
    simp only [collectValidationRecord, fromValue, hp, htrack] at hm
    cases hm

theorem captures_eq_ok (h : List.Forall₂ (FactOf rt) E facts) :
    (E.filter fun event => event.eventType = .workObjectProposed).foldlM
        (captureRepresentative rt) ∅ = .ok ((captureFamily rt).table E) := by
  refine (foldlM_filter_eq_ok (fun _ => True) ?_ ?_ ?_).mpr
    ⟨fun _ _ _ => trivial, rfl⟩
  · intro e _ ht
    simp [captureFamily, captureId, ht]
  · intro e he ht _ m
    obtain ⟨f, hf⟩ := exists_factOf h he
    have hreads := hf.reads
    simp only [Reads, ht] at hreads
    obtain ⟨⟨engagement, object⟩, hp, -⟩ := hreads
    cases object with
    | revision revision hash supersedes =>
      have hid : captureId rt e = some revision.id := by simp [captureId, ht, hp, Except.toOption]
      simp only [captureRepresentative, CarrierFamily.enter, captureFamily, hid, fromValue, hp]
      simp only [Except.mapError, bind, Except.bind, Option.map_some, Option.elim_some, hid,
        Option.getD_some]
      rfl
    | taskAttempt id =>
      have hid : captureId rt e = none := by simp [captureId, ht, hp, Except.toOption]
      simp only [captureRepresentative, CarrierFamily.enter, captureFamily, hid, fromValue, hp]
      rfl
  · intro e _ _ hfit
    exact absurd trivial hfit

/-- The Revision of a request, unless it is one of a task. -/
def InputRequestOpenRecord.subject (w : InputRequestOpenRecord V) : Option RevisionId :=
  if w.payload.taskTarget.isSome then none else some w.payload.target.revisionOf

theorem subjectRevisionId_of_request {w : InputRequestOpenRecord V}
    (hw : requestRecordOf rt w.event = some w) :
    w.event.subjectRevisionId rt = .ok w.subject := by
  obtain ⟨ht, hp, -, -⟩ := requestRecordOf_eq_some.mp hw
  rw [ShoreEvent.subjectRevisionId, reconstructSubject, ht]
  simp only [hp, InputRequestOpenRecord.subject]
  cases htask : w.payload.taskTarget <;> simp only [bind, Except.bind, htask] <;> rfl

/-- What the fact of an opened request says of its record. -/
structure RequestedBy (w : InputRequestOpenRecord V) (f : SemanticFact) : Prop where
  eventId : f.eventId = w.event.eventId.asStr
  occurredAt : f.occurredAt = w.event.occurredAt
  actorId : f.actorId = w.event.writer.actorId.asStr
  assertionMode : f.assertionMode = w.event.assertionMode
  trackId : f.trackId = some w.trackId.asStr
  revisionId : f.revisionId = w.subject.map Ident.asStr
  semanticId : f.semanticId = some w.payload.inputRequestId.asStr
  kind : f.kind = .inputRequestOpened ⟨w.payload.reasonCode, w.payload.title⟩

theorem requestedBy_of_factOf {w : InputRequestOpenRecord V} (hw : requestRecordOf rt e = some w)
    (hf : FactOf rt e f) : RequestedBy w f := by
  obtain ⟨ht, hp, htrack, rfl⟩ := requestRecordOf_eq_some.mp hw
  have hreads := hf.reads
  simp only [Reads, ht] at hreads
  obtain ⟨p, hp', hc⟩ := hreads
  cases hp.symm.trans hp'
  simp only [ClassifiedFact.inputRequestOpened, ClassifiedFact.mk.injEq] at hc
  obtain ⟨hrev, hid, -, hkind⟩ := hc
  refine ⟨hf.eventId, hf.occurredAt, hf.actorId, hf.assertionMode, ?_, ?_, hid, hkind⟩
  · rw [hf.trackId, htrack]
    rfl
  · rw [hrev, InputRequestOpenRecord.subject]
    split <;> rfl

def enterRequestFact (requests : BTreeMap Text SemanticFact) (fact : SemanticFact) :
    SemanticResult (BTreeMap Text SemanticFact) :=
  match fact.kind with
  | .inputRequestOpened _ => do
    let id ← required fact.semanticId (text "semantic_id")
    .ok (replaceLowest requests id fact)
  | _ => .ok requests

def enterResponseFact (responses : BTreeMap Text SemanticFact) (fact : SemanticFact) :
    SemanticResult (BTreeMap Text SemanticFact) :=
  match fact.kind with
  | .inputRequestResponded _ => do
    let id ← required fact.semanticId (text "semantic_id")
    .ok (replaceLowest responses id fact)
  | _ => .ok responses

theorem foldlM_requestFold {requests responses requests' responses' : BTreeMap Text SemanticFact}
    (hreq : facts.foldlM enterRequestFact requests = .ok requests')
    (hres : facts.foldlM enterResponseFact responses = .ok responses') :
    facts.foldlM RequestFold.enter ⟨requests, responses⟩ = .ok ⟨requests', responses'⟩ := by
  induction facts generalizing requests responses with
  | nil =>
    cases hreq
    cases hres
    rfl
  | cons f facts ih =>
    rw [foldlM_cons, bind_eq_ok] at hreq hres
    obtain ⟨m, hm, hreq⟩ := hreq
    obtain ⟨m', hm', hres⟩ := hres
    have hstep : RequestFold.enter ⟨requests, responses⟩ f = .ok ⟨m, m'⟩ := by
      unfold RequestFold.enter
      unfold enterRequestFact at hm
      unfold enterResponseFact at hm'
      cases hk : f.kind <;> simp only [hk, bind_eq_ok, Except.ok.injEq] at hm hm' ⊢ <;>
        first
        | (subst hm hm'; rfl)
        | skip
      · obtain ⟨id, hid, rfl⟩ := hm
        subst hm'
        exact ⟨id, hid, rfl⟩
      · obtain ⟨id, hid, rfl⟩ := hm'
        subst hm
        exact ⟨id, hid, rfl⟩
    rw [foldlM_cons, hstep]
    exact ih hreq hres

theorem enterRequestFact_eq (htracked : AllTracked E) (he : e ∈ E) (hf : FactOf rt e f)
    (m : BTreeMap Text SemanticFact) :
    enterRequestFact m f = .ok ((requestFamily rt).enterFact Ident.asStr m e f) := by
  have hkind := hf.kindOf
  unfold enterRequestFact enterFact
  by_cases ht : e.eventType = .inputRequestOpened
  · have hreads := hf.reads
    simp only [Reads, ht] at hreads
    obtain ⟨p, hp, -⟩ := hreads
    obtain ⟨trackId, htrack⟩ := Option.isSome_iff_exists.mp (htracked e he (.inr (.inl ht)))
    have hw : requestRecordOf rt e = some ⟨e, p, trackId⟩ :=
      requestRecordOf_eq_some.mpr ⟨ht, hp, htrack, rfl⟩
    have hc := requestedBy_of_factOf hw hf
    simp only [hc.kind, hc.semanticId, requestFamily, hw]
    rfl
  · have hnone : requestRecordOf rt e = none := by simp [requestRecordOf, ht]
    simp only [requestFamily, hnone, Option.elim_none]
    split
    · rename_i request hk
      rw [hk] at hkind
      exact absurd hkind ht
    · rfl

/-- What the fact of a response says of its record. -/
structure AnsweredBy (w : InputRequestResponseRecord V) (f : SemanticFact) : Prop where
  semanticId : f.semanticId = some w.payload.inputRequestResponseId.asStr
  kind : f.kind = .inputRequestResponded ⟨w.payload.inputRequestId.asStr⟩

theorem answeredBy_of_factOf {w : InputRequestResponseRecord V}
    (hw : responseRecordOf rt e = some w) (hf : FactOf rt e f) : AnsweredBy w f := by
  obtain ⟨ht, hp, rfl⟩ := responseRecordOf_eq_some.mp hw
  have hreads := hf.reads
  simp only [Reads, ht] at hreads
  obtain ⟨p, hp', hc⟩ := hreads
  cases hp.symm.trans hp'
  simp only [ClassifiedFact.inputRequestResponded, ClassifiedFact.mk.injEq] at hc
  exact ⟨hc.2.1, hc.2.2.2⟩

theorem enterResponseFact_eq (hf : FactOf rt e f) (m : BTreeMap Text SemanticFact) :
    enterResponseFact m f = .ok ((responseFamily rt).enterFact Ident.asStr m e f) := by
  have hkind := hf.kindOf
  unfold enterResponseFact enterFact
  by_cases ht : e.eventType = .inputRequestResponded
  · have hreads := hf.reads
    simp only [Reads, ht] at hreads
    obtain ⟨p, hp, -⟩ := hreads
    have hw : responseRecordOf rt e = some ⟨e, p⟩ := responseRecordOf_eq_some.mpr ⟨ht, hp, rfl⟩
    have hc := answeredBy_of_factOf hw hf
    simp only [hc.kind, hc.semanticId, responseFamily, hw]
    rfl
  · have hnone : responseRecordOf rt e = none := by simp [responseRecordOf, ht]
    simp only [responseFamily, hnone, Option.elim_none]
    split
    · rename_i response hk
      rw [hk] at hkind
      exact absurd hkind ht
    · rfl

/-- What the fact of a check says of its record. -/
structure CheckedBy (w : ValidationRecord V) (f : SemanticFact) : Prop where
  occurredAt : f.occurredAt = w.event.occurredAt
  actorId : f.actorId = w.event.writer.actorId.asStr
  trackId : f.trackId = some w.trackId.asStr
  revisionId : f.revisionId = some w.payload.revisionId.asStr
  semanticId : f.semanticId = some w.payload.validationCheckId.asStr
  kind : f.kind = .validation ⟨w.payload.checkName, w.payload.status, w.payload.exitCode,
    w.payload.completedAt, w.payload.logArtifactContentHashes⟩

theorem checkedBy_of_factOf (hw : validationRecordOf rt e = some w) (hf : FactOf rt e f) :
    CheckedBy w f := by
  obtain ⟨ht, hp, htrack, rfl⟩ := validationRecordOf_eq_some.mp hw
  have hreads := hf.reads
  simp only [Reads, ht] at hreads
  obtain ⟨p, hp', hc⟩ := hreads
  cases hp.symm.trans hp'
  simp only [ClassifiedFact.validation, ClassifiedFact.mk.injEq] at hc
  obtain ⟨hrev, hid, -, hkind⟩ := hc
  refine ⟨hf.occurredAt, hf.actorId, ?_, hrev, hid, hkind⟩
  rw [hf.trackId, htrack]
  rfl

theorem enterValidation_eq (htracked : AllTracked E) (he : e ∈ E) (hf : FactOf rt e f)
    (m : BTreeMap Text SemanticFact) :
    enterValidation m f = .ok ((validationFamily rt).enterFact Ident.asStr m e f) := by
  have hkind := hf.kindOf
  unfold enterValidation enterFact
  by_cases ht : e.eventType = .validationCheckRecorded
  · have hreads := hf.reads
    simp only [Reads, ht] at hreads
    obtain ⟨p, hp, -⟩ := hreads
    obtain ⟨trackId, htrack⟩ := Option.isSome_iff_exists.mp (htracked e he (.inr (.inr ht)))
    have hw : validationRecordOf rt e = some ⟨e, p, trackId⟩ :=
      validationRecordOf_eq_some.mpr ⟨ht, hp, htrack, rfl⟩
    have hc := checkedBy_of_factOf hw hf
    simp only [hc.kind, hc.semanticId, validationFamily, hw]
    rfl
  · have hnone : validationRecordOf rt e = none := by simp [validationRecordOf, ht]
    simp only [validationFamily, hnone, Option.elim_none]
    split
    · rename_i validation hk
      rw [hk] at hkind
      exact absurd hkind ht
    · rfl

theorem enterCapture_eq (hf : FactOf rt e f) (m : BTreeMap RevisionId SemanticFact) :
    enterCapture m f = .ok ((captureFamily rt).enterFact id m e f) := by
  have hkind := hf.kindOf
  have hreads := hf.reads
  unfold enterCapture enterFact
  by_cases ht : e.eventType = .workObjectProposed
  · simp only [Reads, ht] at hreads
    obtain ⟨⟨engagement, object⟩, hp, hc⟩ := hreads
    cases object with
    | revision revision hash supersedes =>
      have hid : captureId rt e = some revision.id := by simp [captureId, ht, hp, Except.toOption]
      simp only [ClassifiedFact.proposed, ClassifiedFact.mk.injEq] at hc
      obtain ⟨hrev, -, -, hk⟩ := hc
      simp only [hk, hrev, captureFamily, hid, Option.map_some, Option.elim_some, id]
      simp only [Option.getD_some]
      rfl
    | taskAttempt id =>
      have hid : captureId rt e = none := by simp [captureId, ht, hp, Except.toOption]
      simp only [ClassifiedFact.proposed, ClassifiedFact.other, ClassifiedFact.mk.injEq] at hc
      simp only [hc.2.2.2, captureFamily, hid]
      rfl
  · have hid : captureId rt e = none := by simp [captureId, ht]
    simp only [captureFamily, hid, Option.map_none, Option.elim_none]
    split
    · rename_i revision hk
      rw [hk] at hkind
      exact absurd hkind ht
    · rfl

def answeredIds (responses : BTreeMap InputRequestResponseId (InputRequestResponseRecord V)) :
    BTreeSet InputRequestId :=
  BTreeSet.collect (responses.vals.map (·.payload.inputRequestId))

def openRow (answered : BTreeSet InputRequestId)
    (entry : InputRequestId × InputRequestOpenRecord V) :
    Option ((InputRequestId × InputRequestOpenRecord V) × RevisionId) :=
  if entry.1 ∈ answered then none else entry.2.subject.map fun r => (entry, r)

def openRows (rt : Runtime V) (E : List (ShoreEvent V)) :
    List ((InputRequestId × InputRequestOpenRecord V) × RevisionId) :=
  ((requestFamily rt).table E).toList.filterMap
    (openRow (answeredIds ((responseFamily rt).table E)))

def rowRecord (row : (InputRequestId × InputRequestOpenRecord V) × RevisionId) : RequestRecord where
  revisionId := row.2.asStr
  inputRequestId := row.1.1.asStr
  mode := row.1.2.event.assertionMode
  reasonCode := row.1.2.payload.reasonCode
  title := row.1.2.payload.title
  trackId := row.1.2.trackId.asStr
  openedBy := row.1.2.event.writer.actorId.asStr
  observedAt := row.1.2.event.occurredAt
  eventId := row.1.2.event.eventId.asStr

theorem collectRequests_eq_ok (h : List.Forall₂ (FactOf rt) E facts) :
    (∃ records, collectInputRequestProjectionRecords rt E = .ok records) ↔
      ∀ e ∈ E, e.eventType = .inputRequestOpened → e.target.trackId.isSome := by
  have hread : (∃ records, collectInputRequestProjectionRecords rt E = .ok records) ↔
      ∀ e ∈ E, ∃ x, readInputRequest rt e = .ok x := by
    simp [collectInputRequestProjectionRecords, bind_eq_ok,
      foldlM_read (collectInputRequestRecord_eq rt)]
  rw [hread]
  refine forall₂_congr fun e he => ?_
  obtain ⟨f, hf⟩ := exists_factOf h he
  have hreads := hf.reads
  unfold Reads at hreads
  unfold readInputRequest
  cases ht : e.eventType <;>
    simp only [ht, reduceCtorEq, false_implies, iff_true, true_implies] at hreads ⊢ <;>
    try exact ⟨none, rfl⟩
  case inputRequestOpened =>
    obtain ⟨p, hp, -⟩ := hreads
    cases e.target.trackId <;> simp [hp, okOr, bind, Except.bind]
  case inputRequestResponded =>
    obtain ⟨p, hp, -⟩ := hreads
    exact ⟨some (.inr ⟨e, p⟩), by rw [fromValue, hp]; rfl⟩

theorem requests_of_collect {records : InputRequestProjectionRecords V}
    (h : collectInputRequestProjectionRecords rt E = .ok records) :
    records.requestRecords = (requestFamily rt).table E ∧
      ∀ q, q ∈ records.responses ↔ q ∈ answeredIds ((responseFamily rt).table E) := by
  simp only [collectInputRequestProjectionRecords, bind_eq_ok, Except.ok.injEq] at h
  obtain ⟨kept, hkept, rfl⟩ := h
  obtain ⟨hreq, hres⟩ := requestRecords_eq hkept
  refine ⟨hreq, fun q => ?_⟩
  rw [answeredIds, BTreeSet.mem_collect, ← hres]
  simp only [ExtTreeMap.mem_map, mem_map, mem_iff]
  constructor
  · rintro ⟨group, hgroup⟩
    exact (get_grouped_eq_some.mp hgroup).2
  · exact fun h => ⟨_, get_grouped_eq_some.mpr ⟨rfl, h⟩⟩

theorem openInputRequestItems_eq {records : InputRequestProjectionRecords V}
    (h : collectInputRequestProjectionRecords rt E = .ok records) (supersession : SupersessionView) :
    openInputRequestItems rt records supersession =
      .ok ((openRows rt E).map fun row => row.1.2.item supersession row.1.1 row.2) := by
  obtain ⟨hreq, hanswered⟩ := requests_of_collect h
  have hitem : ∀ entry ∈ records.requestRecords.toList,
      openInputRequestItem rt records supersession entry = .ok
        ((openRow (answeredIds ((responseFamily rt).table E)) entry).map
          fun row => row.1.2.item supersession row.1.1 row.2) := by
    intro entry hentry
    rw [hreq, mem_toList_iff] at hentry
    unfold openInputRequestItem openRow
    simp only [hanswered, subjectRevisionId_of_request (of_table hentry).1]
    split
    · rfl
    · cases entry.2.subject <;> rfl
  rw [openInputRequestItems, mapM_eq_ok hitem, hreq]
  simp only [bind, Except.bind, filterMap_map, openRows, map_filterMap]
  rfl

theorem requestFold_of_tracked (h : List.Forall₂ (FactOf rt) E facts) (htracked : AllTracked E) :
    ∃ pairs fold, facts.foldlM RequestFold.enter {} = .ok fold ∧
      (requestFamily rt).Pairs rt Ident.asStr pairs ((requestFamily rt).table E) fold.requests ∧
      ∀ q : InputRequestId,
        q.asStr ∈ BTreeSet.collect (fold.responses.vals.filterMap SemanticFact.respondedTo) ↔
          q ∈ answeredIds ((responseFamily rt).table E) := by
  obtain ⟨pairs, requests, hreq, hpairs⟩ := CarrierFamily.run h keepsOrder_asStr.injective
    fun e he f hf m => enterRequestFact_eq htracked he hf m
  obtain ⟨pairs', responses, hres, hpairs'⟩ := CarrierFamily.run h keepsOrder_asStr.injective
    fun e _ f hf m => enterResponseFact_eq hf m
  refine ⟨pairs, ⟨requests, responses⟩, foldlM_requestFold hreq hres, hpairs, fun q => ?_⟩
  have hvals : ((responseFamily rt).table E).vals = pairs'.vals.map Prod.fst :=
    hpairs'.records.vals_eq (fun _ _ => rfl) Function.surjective_id
  have hfacts : responses.vals = pairs'.vals.map Prod.snd :=
    hpairs'.facts.vals_eq keepsOrder_asStr surjective_asStr
  have hkind : ∀ x ∈ pairs'.vals, x.2.respondedTo = some x.1.payload.inputRequestId.asStr := by
    intro x hx
    obtain ⟨i, hi⟩ := mem_vals_iff.mp hx
    obtain ⟨hw, -, hf⟩ := hpairs'.carried i x hi
    rw [respondedTo, (answeredBy_of_factOf hw hf).kind]
  rw [answeredIds, BTreeSet.mem_collect, BTreeSet.mem_collect, hvals, hfacts]
  simp only [filterMap_map, map_map, mem_filterMap, mem_map, Function.comp]
  refine exists_congr fun x => and_congr_right fun hx => ?_
  rw [hkind x hx, Option.some.injEq]
  exact keepsOrder_asStr.injective.eq_iff

theorem openRequestRecords_eq (h : List.Forall₂ (FactOf rt) E facts) (htracked : AllTracked E) :
    openRequestRecords facts = .ok (((openRows rt E).map rowRecord).insertionSort requestRecordLE,
      BTreeSet.collect ((openRows rt E).map fun row => row.1.1)) := by
  obtain ⟨pairs, fold, hfold, hpairs, hanswered⟩ := requestFold_of_tracked h htracked
  have htable : ((requestFamily rt).table E).toList = pairs.toList.map fun x => (x.1, x.2.1) :=
    hpairs.records.toList_eq (fun _ _ => rfl) Function.surjective_id
  have hrecord : ∀ x ∈ pairs.toList, openRequestRecord
      (BTreeSet.collect (fold.responses.vals.filterMap respondedTo))
      (x.1.asStr, x.2.2) = .ok ((openRow (answeredIds ((responseFamily rt).table E))
        (x.1, x.2.1)).map rowRecord) := by
    intro x hx
    obtain ⟨hw, hkey, hf⟩ := hpairs.carried x.1 x.2 (mem_toList_iff.mp hx)
    have hc := requestedBy_of_factOf hw hf
    unfold openRequestRecord openRow
    simp only [hanswered, hc.revisionId, hc.kind]
    split
    · rfl
    · cases x.2.1.subject with
      | none => rfl
      | some r =>
        simp only [Option.map_some, hc.trackId, required_some, rowRecord, hc.eventId, hc.actorId,
          hc.occurredAt, hc.assertionMode]
        rfl
  have hrows : (pairs.toList.map fun x => (openRow (answeredIds ((responseFamily rt).table E))
      (x.1, x.2.1)).map rowRecord).filterMap id = (openRows rt E).map rowRecord := by
    rw [openRows, htable, filterMap_map, map_filterMap, filterMap_map]
    rfl
  have hmap : fold.requests.toList.mapM (openRequestRecord
      (BTreeSet.collect (fold.responses.vals.filterMap respondedTo))) =
      .ok (pairs.toList.map fun x => (openRow (answeredIds ((responseFamily rt).table E))
        (x.1, x.2.1)).map rowRecord) := by
    rw [hpairs.facts.toList_eq keepsOrder_asStr surjective_asStr, mapM_map]
    exact mapM_eq_ok hrecord
  rw [openRequestRecords, hfold]
  simp only [bind, Except.bind, hmap, hrows, map_map]
  rfl

theorem capturedAt_of_facts (h : List.Forall₂ (FactOf rt) E facts) :
    ∃ strict kept, capturedAtMap rt E = .ok strict ∧ facts.foldlM enterCapture ∅ = .ok kept ∧
      ∀ r : RevisionId, strict[r]? = kept[r]?.map (·.occurredAt) := by
  obtain ⟨pairs, kept, hkept, hpairs⟩ := CarrierFamily.run h Function.injective_id
    fun e _ f hf m => enterCapture_eq hf m
  refine ⟨_, kept, by rw [capturedAtMap, captures_eq_ok h]; rfl, hkept, fun r => ?_⟩
  rw [ExtTreeMap.getElem?_map]
  have hrecord := hpairs.records r
  have hfact := hpairs.facts r
  rw [id] at hrecord hfact
  rw [hrecord, hfact, Option.map_map, Option.map_map]
  cases hx : pairs[r]? with
  | none => rfl
  | some x => exact congrArg some (hpairs.carried r x hx).2.2.occurredAt.symm

section Assessments

variable {attention : BTreeMap RevisionId (List AttentionAssessmentRecord)}
  {records : BTreeMap RevisionId (List AssessmentRecord)} (supersession : SupersessionView)

/-- Each Revision has the same current assessments. -/
def SameRecords (attention : BTreeMap RevisionId (List AttentionAssessmentRecord))
    (records : BTreeMap RevisionId (List AssessmentRecord)) : Prop :=
  ∀ r : RevisionId, attention[r]?.getD [] = (records[r]?.getD []).map (·.asAttention)

variable (h : SameRecords attention records)

include h

theorem threadHeadsAllAssessed_eq (r : RevisionId) :
    threadHeadsAllAssessed id attention supersession r =
      threadHeadsAllAssessed AssessmentRecord.asAttention records supersession r := by
  have hany : ∀ head : RevisionId,
      (attention[head]?.any fun l => l.any fun record => (id record).revisionScoped) =
        records[head]?.any fun l => l.any fun record =>
          (asAttention record).revisionScoped := by
    intro head
    have hhead := congrArg (List.any · (·.revisionScoped)) (h head)
    rw [any_map] at hhead
    cases ha : attention[head]? <;> cases hr : records[head]? <;> rw [ha, hr] at hhead <;>
      exact hhead
  unfold threadHeadsAllAssessed
  simp only [hany]

theorem ambiguousAssessmentItems_eq : ambiguousAssessmentItems id attention supersession =
    ambiguousAssessmentItems AssessmentRecord.asAttention records supersession := by
  unfold ambiguousAssessmentItems
  rw [filterMap_eq_flatMap_toList, filterMap_eq_flatMap_toList]
  refine flatMap_toList_eq
    (fun r l => (ambiguousItem id attention supersession (r, l)).toList)
    (fun r l => (ambiguousItem asAttention records supersession (r, l)).toList)
    (fun r => rfl) (fun r => rfl) fun r => ?_
  simp [ambiguousItem, h r, threadHeadsAllAssessed_eq supersession h, Function.comp_def, id]

theorem staleAssessmentItems_eq : staleAssessmentItems id attention supersession =
    staleAssessmentItems AssessmentRecord.asAttention records supersession := by
  refine flatMap_toList_eq
    (fun r l => staleItemsOf id attention supersession (r, l))
    (fun r l => staleItemsOf asAttention records supersession (r, l))
    (fun r => by simp [staleItemsOf]) (fun r => by simp [staleItemsOf]) fun r => ?_
  simp [staleItemsOf, h r, threadHeadsAllAssessed_eq supersession h, Function.comp_def, id]

theorem assessmentSubsumesFailure_eq (r : RevisionId) (failureTime : Text) :
    assessmentSubsumesFailure id (attention[r]?.getD []) failureTime =
      assessmentSubsumesFailure AssessmentRecord.asAttention (records[r]?.getD []) failureTime := by
  simp [assessmentSubsumesFailure, h r, Function.comp_def, id]

theorem followUpOutstandingItems_eq (openIds : BTreeSet InputRequestId) :
    followUpOutstandingItems id attention supersession openIds =
      followUpOutstandingItems AssessmentRecord.asAttention records supersession openIds := by
  refine flatMap_toList_eq
    (fun r l => l.filterMap fun record => followUpItem supersession openIds r (id record))
    (fun r l => l.filterMap fun record =>
      followUpItem supersession openIds r (asAttention record))
    (fun r => rfl) (fun r => rfl) fun r => ?_
  rw [h r, filterMap_map]
  rfl

end Assessments

theorem failedFactItem_of_checkedBy (h : CheckedBy w f) (supersession : SupersessionView)
    (r : RevisionId) (maxTime : Text) :
    failedFactItem supersession r maxTime f =
      .ok (if w.sortTime = maxTime && w.payload.status.isFailing then
        some (w.item supersession r) else none) := by
  have htime : w.payload.completedAt.getD w.event.occurredAt = w.sortTime := rfl
  rw [failedFactItem, h.kind]
  simp only [h.occurredAt, h.semanticId, h.trackId, h.actorId, required_some, htime]
  by_cases hmax : w.sortTime = maxTime
  · cases hfail : w.payload.status.isFailing with
    | false => simp
    | true =>
      subst hmax
      simp only [ne_eq, not_true_eq_false, decide_false, decide_true, Bool.not_true, Bool.or_self,
        Bool.and_self, if_true]
      rfl
  · simp [hmax]

theorem failedFactGroup_eq {attention : BTreeMap RevisionId (List AttentionAssessmentRecord)}
    {records : BTreeMap RevisionId (List AssessmentRecord)} (hsame : SameRecords attention records)
    (supersession : SupersessionView) (key : RevisionId × TrackId × Text)
    (checks : List (ValidationRecord V × SemanticFact)) (h : ∀ x ∈ checks, CheckedBy x.1 x.2) :
    failedFactGroup supersession records (key, checks.map Prod.snd) =
      .ok (failedGroupItems supersession attention (key, checks.map Prod.fst)) := by
  have htimes : (((checks.map Prod.snd).filterMap validationTime).filter
      (·.1 ≠ .skipped)).map Prod.snd =
      ((checks.map Prod.fst).filter (·.payload.status ≠ .skipped)).map (·.sortTime) := by
    have htime : (checks.map Prod.snd).filterMap validationTime =
        checks.map fun x => (x.1.payload.status, x.1.sortTime) := by
      rw [filterMap_map, ← filterMap_eq_map]
      refine filterMap_congr fun x hx => ?_
      rw [Function.comp_apply, validationTime, (h x hx).kind, (h x hx).occurredAt]
      rfl
    rw [htime, filter_map, filter_map, map_map, map_map]
    rfl
  -- both sides sort by the id of the check
  have hsorted : (checks.map Prod.snd).insertionSort semanticIdLE =
      (checks.insertionSort fun x y => validationRecordLE x.1 y.1).map Prod.snd := by
    refine (map_insertionSort _ _ _ _ fun x hx y hy => ?_).symm
    rw [semanticIdLE, (h x hx).semanticId, (h y hy).semanticId]
    rfl
  have hsorted' : (checks.map Prod.fst).insertionSort validationRecordLE =
      (checks.insertionSort fun x y => validationRecordLE x.1 y.1).map Prod.fst :=
    (map_insertionSort (fun x y => validationRecordLE x.1 y.1) validationRecordLE Prod.fst _
      fun x _ y _ => Iff.rfl).symm
  unfold failedFactGroup failedGroupItems
  simp only [htimes, hsorted, hsorted', assessmentSubsumesFailure_eq hsame]
  by_cases hhead : key.1 ∉ supersession.heads
  · rw [if_pos hhead, if_pos hhead]
  rw [if_neg hhead, if_neg hhead]
  cases maxText (((checks.map Prod.fst).filter (·.payload.status ≠ .skipped)).map
    (·.sortTime)) with
  | none => rfl
  | some maxTime =>
    have hitem : ∀ x ∈ checks.insertionSort fun x y => validationRecordLE x.1 y.1,
        failedFactItem supersession key.1 maxTime x.2 =
          .ok (if x.1.sortTime = maxTime && x.1.payload.status.isFailing then
            some (x.1.item supersession key.1) else none) := fun x hx =>
      failedFactItem_of_checkedBy (h x ((mem_insertionSort _).mp hx)) _ _ _
    have hitems : ((checks.insertionSort fun x y => validationRecordLE x.1 y.1).map
        Prod.snd).mapM (failedFactItem supersession key.1 maxTime) = .ok
          ((checks.insertionSort fun x y => validationRecordLE x.1 y.1).map fun x =>
            if x.1.sortTime = maxTime && x.1.payload.status.isFailing then
              some (x.1.item supersession key.1) else none) := by
      rw [mapM_map]
      exact mapM_eq_ok hitem
    simp only [hitems, bind, Except.bind, filter_map, map_map, filterMap_map]
    split
    · rfl
    · rw [← filterMap_eq_map, filterMap_filter]
      rfl

theorem failedValidationItems_eq (h : List.Forall₂ (FactOf rt) E facts) (htracked : AllTracked E)
    {attention : BTreeMap RevisionId (List AttentionAssessmentRecord)}
    {records : BTreeMap RevisionId (List AssessmentRecord)} (hsame : SameRecords attention records)
    (supersession : SupersessionView) :
    ∃ items, failedValidationItems rt E supersession attention = .ok items ∧
      failedValidationItemsFromFacts facts records supersession = .ok items := by
  obtain ⟨pairs, kept, hkept, hpairs⟩ := CarrierFamily.run h keepsOrder_asStr.injective
    fun e he f hf m => enterValidation_eq htracked he hf m
  have htable := (validationRecords_eq_ok h).mpr
    ⟨fun e he ht => htracked e he (.inr (.inr ht)), rfl⟩
  have hvals : ((validationFamily rt).table E).vals = pairs.vals.map Prod.fst :=
    hpairs.records.vals_eq (fun _ _ => rfl) Function.surjective_id
  have hfacts : kept.vals = pairs.vals.map Prod.snd :=
    hpairs.facts.vals_eq keepsOrder_asStr surjective_asStr
  have hchecked : ∀ x ∈ pairs.vals, CheckedBy x.1 x.2 := by
    intro x hx
    obtain ⟨i, hi⟩ := mem_vals_iff.mp hx
    obtain ⟨hw, -, hf⟩ := hpairs.carried i x hi
    exact checkedBy_of_factOf hw hf
  let group := fun key => pairs.vals.filter fun x => x.1.groupKey = key
  have hgroup : ∀ key, ∀ x ∈ group key, CheckedBy x.1 x.2 :=
    fun key x hx => hchecked x (mem_filter.mp hx).1
  have hstrict : ∀ key : RevisionId × TrackId × Text,
      (groupValidations ((validationFamily rt).table E).vals)[key]?.getD [] =
        (group key).map Prod.fst := by
    intro key
    refine getD_grouped.trans ?_
    rw [map_id', hvals, filter_map]
    rfl
  obtain ⟨groups, hgroups, hcompact⟩ : ∃ groups, kept.vals.foldlM groupValidation ∅ = .ok groups ∧
      ∀ key : RevisionId × TrackId × Text, groups[key]?.getD [] = (group key).map Prod.snd := by
    rw [hfacts, foldlM_map]
    have hput : ∀ (groups : ValidationGroups SemanticFact), ∀ x ∈ pairs.vals,
        groupValidation groups x.2 =
          .ok (groups.alter x.1.groupKey fun group => some (group.getD [] ++ [x.2])) := by
      intro groups x hx
      have hc := hchecked x hx
      rw [groupValidation, hc.kind]
      simp only [hc.revisionId, hc.trackId, required_some]
      rfl
    refine ⟨_, foldlM_eq_ok hput ∅, fun key => ?_⟩
    exact getD_grouped
  have hgroupItems := fun key => failedFactGroup_eq hsame supersession key _ (hgroup key)
  have hitems : ∀ entry ∈ groups.toList, failedFactGroup supersession records entry =
      .ok ((failedFactGroup supersession records entry).toOption.getD []) := by
    intro entry hentry
    have hlist : entry = (entry.1, (group entry.1).map Prod.snd) := by
      rw [← hcompact, mem_toList_iff.mp hentry]
      rfl
    rw [hlist, hgroupItems]
    rfl
  refine ⟨_, by rw [failedValidationItems, htable]; rfl, ?_⟩
  rw [failedValidationItemsFromFacts, hkept]
  simp only [bind, Except.bind, hgroups, mapM_eq_ok hitems, Except.ok.injEq,
    ← flatMap_def]
  refine (flatMap_toList_eq (fun key l => failedGroupItems supersession attention (key, l))
    (fun key l => (failedFactGroup supersession records (key, l)).toOption.getD [])
    (fun key => ?_) (fun key => ?_) fun key => ?_).symm
  · simp [failedGroupItems, maxText]
  · simp [failedFactGroup, maxText, Except.toOption]
  · rw [hstrict, hcompact, hgroupItems]
    rfl

end Families

end Pointbreak
