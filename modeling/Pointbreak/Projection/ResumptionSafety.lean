import Pointbreak.Projection.ResumptionOutline
import Pointbreak.Store.Recorded

/-!
# Projection.ResumptionSafety

What a permission to resume means. Every operative request of the attempt has then been answered by
one response that satisfies it, provided that the carriers of a response id do not disagree about
the request (`resumption_answered_iff`).
-/

namespace Pointbreak

open Std KeyedLog List

section Answered

variable {V B : Type} (rt : StoreRuntime V B) (events : List (StoredEvent V))
  (taskAttemptId : WorkObjectId) (reader : ResumptionReader)

/-- The request is on the attempt, or on a checkpoint that was captured under it. -/
def OfAttempt (request : TaskInputRequestView) : Prop :=
  match request.target with
  | .task (.taskAttempt id) => id = taskAttemptId
  | .task (.checkpoint id) => ∃ event ∈ events, ∃ checkpoint,
      checkpointOf rt taskAttemptId event = some checkpoint ∧ checkpoint.checkpointId = id
  | .review _ | .journal => False

structure HoldsUp (request : TaskInputRequestView) : Prop where
  opened : request ∈ events.filterMap (taskRequestOf rt)
  operative : request.mode = .operative
  ofAttempt : OfAttempt rt events taskAttemptId request

/-- Of the responses that name the request there is one id; its lowest carrier names the request and
satisfies it. -/
structure SettledBy (attempt : AttemptState) (request : TaskInputRequestView)
    (responseId : InputRequestResponseId) (record : TaskInputRequestResponseRecord) : Prop where
  only : ∀ id, ∀ answer ∈ answersUnder rt events reader.trustSet id,
    answer.1 = request.inputRequestId → id = responseId
  lowest : lowestCarrier (answersUnder rt events reader.trustSet responseId) =
    some (request.inputRequestId, record)
  satisfies : Satisfies reader attempt request record

/-- A response id that has a carrier for the request is seen first, and lowest, for the request. -/
def CarriersAgreeOn (inputRequestId : InputRequestId) : Prop :=
  ∀ id, ∀ answer ∈ answersUnder rt events reader.trustSet id, answer.1 = inputRequestId →
    (answersUnder rt events reader.trustSet id).head?.map Prod.fst = some inputRequestId ∧
      (lowestCarrier (answersUnder rt events reader.trustSet id)).map Prod.fst = some inputRequestId

variable {rt events taskAttemptId reader} {request : TaskInputRequestView}

theorem HoldsUp.response {projection : AgentResumptionProjection}
    (h : agentResumptionWithPrincipalPolicy rt events taskAttemptId reader = .ok projection)
    (hmay : projection.mayResume = true) (hrequest : HoldsUp rt events taskAttemptId request) :
    ∃ responseId record,
      standsFor (answersUnder rt events reader.trustSet responseId) =
        some (request.inputRequestId, record) ∧
      (∀ id other, standsFor (answersUnder rt events reader.trustSet id) =
        some (request.inputRequestId, other) → id = responseId) ∧
      Satisfies reader (attemptStateOf rt taskAttemptId events) request record := by
  obtain ⟨front, back, hviews⟩ := append_of_mem hrequest.opened
  obtain ⟨-, record, hrecord, hsatisfies⟩ :=
    ((mayResume_iff h).mp hmay).2 front request back hviews hrequest.operative
  obtain ⟨responseId, hstands, honly⟩ := responsesTo_eq_singleton.mp hrecord
  exact ⟨responseId, record, hstands, honly, hsatisfies⟩

theorem settledBy_iff {attempt : AttemptState}
    {responseId : InputRequestResponseId} {record : TaskInputRequestResponseRecord}
    (hstands : standsFor (answersUnder rt events reader.trustSet responseId) =
      some (request.inputRequestId, record))
    (honly : ∀ id other, standsFor (answersUnder rt events reader.trustSet id) =
      some (request.inputRequestId, other) → id = responseId)
    (hsatisfies : Satisfies reader attempt request record) :
    (∃ id record, SettledBy rt events reader attempt request id record) ↔
      CarriersAgreeOn rt events reader request.inputRequestId := by
  obtain ⟨hfirst, hlowest⟩ := standsFor_eq_some.mp hstands
  obtain ⟨first, hmem, hnamed⟩ := mem_of_head_fst hfirst
  constructor
  · rintro ⟨id, record', hsettled⟩ id' answer hanswer hname
    obtain rfl := hsettled.only id' answer hanswer hname
    -- the id that counts for the request is the one that names it
    obtain rfl := hsettled.only responseId first hmem hnamed
    rw [hsettled.lowest]
    exact ⟨hfirst, rfl⟩
  · intro hagree
    obtain ⟨-, hlow⟩ := hagree responseId first hmem hnamed
    obtain ⟨⟨owner, record'⟩, hcarrier, hrecord⟩ := Option.map_eq_some_iff.mp hlowest
    rw [hcarrier] at hlow
    cases hlow
    cases hrecord
    refine ⟨responseId, record', ⟨fun id answer hanswer hname => ?_, hcarrier, hsatisfies⟩⟩
    obtain ⟨hfirst', -⟩ := hagree id answer hanswer hname
    obtain ⟨⟨owner', other⟩, hother⟩ := standsFor_isSome (ne_nil_of_mem hanswer)
    obtain ⟨howner, -⟩ := standsFor_eq_some.mp hother
    rw [hfirst'] at howner
    cases howner
    exact honly id other hother

/-- A permission to resume means that the attempt was proposed and that every operative request that
holds it up was answered by one response that satisfies it, exactly when the carriers of a response
id agree on each of these requests. -/
theorem resumption_answered_iff {projection : AgentResumptionProjection}
    (h : agentResumptionWithPrincipalPolicy rt events taskAttemptId reader = .ok projection)
    (hmay : projection.mayResume = true) :
    ((∃ event ∈ events, proposes rt taskAttemptId event = true) ∧
      ∃ summary, taskAttemptSummaryFromEvents rt events taskAttemptId reader.readerActorId =
          .ok (some summary) ∧
        ∀ request, HoldsUp rt events taskAttemptId request →
          ∃ id record, SettledBy rt events reader summary.attemptState request id record) ↔
      ∀ request, HoldsUp rt events taskAttemptId request →
        CarriersAgreeOn rt events reader request.inputRequestId := by
  obtain ⟨hproposed, -⟩ := (mayResume_iff h).mp hmay
  obtain ⟨hread, -⟩ := agentResumption_eq_ok.mp h
  constructor
  · rintro ⟨-, summary, hsummary, hsettled⟩ request hrequest
    obtain ⟨responseId, record, hstands, honly, hsatisfies⟩ := hrequest.response h hmay
    refine (settledBy_iff hstands honly hsatisfies).mp ?_
    rw [← attemptState_eq hsummary]
    exact hsettled request hrequest
  · intro hagree
    obtain ⟨envelope, hattempt⟩ := Option.isSome_iff_exists.mp (attemptFold_isSome.mpr hproposed)
    obtain ⟨summary, hsummary⟩ : ∃ summary, taskAttemptSummaryFromEvents rt events taskAttemptId
        reader.readerActorId = .ok (some summary) := by
      simp only [taskAttemptSummaryFromEvents_eq_ok, Option.map_eq_some_iff]
      exact ⟨_, hread, envelope, hattempt, rfl⟩
    refine ⟨hproposed, summary, hsummary, fun request hrequest => ?_⟩
    obtain ⟨responseId, record, hstands, honly, hsatisfies⟩ := hrequest.response h hmay
    rw [attemptState_eq hsummary]
    exact (settledBy_iff hstands honly hsatisfies).mpr (hagree request hrequest)

theorem carriersAgreeOn_of_names {named inputRequestId : InputRequestId}
    (h : ∀ event ∈ events, (answerOf rt events reader.trustSet event).all fun answer =>
      answer.2.1 = named) : CarriersAgreeOn rt events reader inputRequestId := by
  have hnamed : ∀ id, ∀ answer ∈ answersUnder rt events reader.trustSet id, answer.1 = named := by
    intro id answer hanswer
    obtain ⟨event, hevent, hsome⟩ := mem_entries.mp hanswer
    have hall := h event hevent
    rw [hsome] at hall
    exact of_decide_eq_true hall
  rintro id answer hanswer rfl
  obtain ⟨first, hfirst⟩ := Option.isSome_iff_exists.mp
    (isSome_head?.mpr (ne_nil_of_mem hanswer))
  obtain ⟨lowest, hmem, hlowest⟩ := lowestCarrier_isSome (ne_nil_of_mem hanswer)
  rw [hfirst, hlowest, Option.map_some, Option.map_some, hnamed id first (mem_of_head? hfirst),
    hnamed id lowest hmem, hnamed id answer hanswer]
  exact ⟨rfl, rfl⟩

end Answered

section Imports

variable {V B : Type} (rt : StoreRuntime V B) (trustSet : TrustSet)

/-- A response that was ingested, and that no signature makes valid for the reader. -/
structure UnverifiedImport (events : List (StoredEvent V)) (event : StoredEvent V) : Prop
    extends Unverified rt events trustSet event where
  eventType : event.eventType = .inputRequestResponded
  schema : event.validateSchemaVersion = .ok ()
  payload : ∃ payload, rt.inputRequestResponded event.payload = .ok payload
  ingested : event.ingest.isSome = true

/-- A response id that was there before is first seen for an operative request exactly if it was
before. -/
def KeepsOwners (before after : List (StoredEvent V)) : Prop :=
  ∀ id, answersUnder rt before trustSet id ≠ [] →
    ∀ request ∈ before.filterMap (taskRequestOf rt), request.mode = .operative →
      ((answersUnder rt after trustSet id).head?.map Prod.fst = some request.inputRequestId ↔
        (answersUnder rt before trustSet id).head?.map Prod.fst = some request.inputRequestId)

variable {rt trustSet} {left right whole : List (StoredEvent V)} {taskAttemptId : WorkObjectId}
  {reader : ResumptionReader} {events : List (StoredEvent V)}

theorem imports_no_carriers
    (himports : ∀ event ∈ right, UnverifiedImport rt reader.trustSet whole event) :
    ∀ event ∈ right, event.eventType ≠ .eventSignatureRecorded := by
  intro event hevent
  rw [(himports event hevent).eventType]
  exact EventType.noConfusion

section Mixed

variable (hmix : Interleaves left right whole)
  (himports : ∀ event ∈ right, UnverifiedImport rt reader.trustSet whole event)
  (hids : ∀ event ∈ left, ∀ other ∈ right, other.eventId.asStr ≠ event.eventId.asStr)
  {index : CosignatureIndex V} (hindex : CosignatureIndex.build rt whole = .ok index)
include hmix himports hids hindex

theorem import_not_binding {event : StoredEvent V} (hevent : event ∈ right) :
    ∃ named record, readTaskResponse rt whole reader.trustSet event = .ok (named, record) ∧
      reader.identityBinding record = false := by
  have himport := himports event hevent
  obtain ⟨payload, hpayload⟩ := himport.payload
  obtain ⟨target, htarget, hsame, hevidence⟩ :=
    responseBindingEvidence_eq reader.trustSet hindex (hmix.mem_iff.mpr (.inr hevent))
  have hright : target ∈ right := by
    rcases hmix.mem_iff.mp htarget with hleft | hright
    · exact absurd hsame.symm (hids target hleft event hevent)
    · exact hright
  have hvalid := (himports target hright).toUnverified.hasValidMember hindex
  refine ⟨_, _, by rw [readTaskResponse, fromValue, hpayload, hevidence]; rfl, ?_⟩
  simp [ResumptionReader.identityBinding, responseIdentityIsBinding, himport.ingested, hvalid]

/-- With imports in between, the lowest carrier of a response, if it binds, is the one of before. -/
theorem lowestCarrier_before {id : InputRequestResponseId}
    {lowest : InputRequestId × TaskInputRequestResponseRecord}
    (hcarrier : lowestCarrier (answersUnder rt whole reader.trustSet id) = some lowest)
    (hbinding : reader.identityBinding lowest.2 = true) :
    lowestCarrier (answersUnder rt left reader.trustSet id) = some lowest := by
  have hwoven : Interleaves (answersUnder rt left reader.trustSet id)
      (entries (answerOf rt whole reader.trustSet) id right)
      (answersUnder rt whole reader.trustSet id) := by
    have hleft : answersUnder rt left reader.trustSet id =
        entries (answerOf rt whole reader.trustSet) id left := by
      refine filterMap_congr fun event hevent => ?_
      rw [answerOf_congr (cosignaturesForEvent_of_interleaves hmix (imports_no_carriers himports)
        (hids event hevent))]
    rw [hleft]
    exact hmix.filterMap _
  -- an import would not bind
  have hleft : lowest ∈ answersUnder rt left reader.trustSet id := by
    rcases hwoven.mem_iff.mp (leastBy_mem hcarrier) with hleft | hright
    · exact hleft
    · obtain ⟨event, hevent, hsome⟩ := mem_entries.mp hright
      obtain ⟨-, hread, -⟩ := answerOf_eq_some.mp hsome
      obtain ⟨named, record, hread', hnot⟩ := import_not_binding hmix himports hids hindex hevent
      rw [hread] at hread'
      cases hread'
      rw [hbinding] at hnot
      cases hnot
  have hsame : (answersUnder rt whole reader.trustSet id).filter (fun answer =>
      answer.2.envelope.eventId.asStr = lowest.2.envelope.eventId.asStr) =
      (answersUnder rt left reader.trustSet id).filter fun answer =>
        answer.2.envelope.eventId.asStr = lowest.2.envelope.eventId.asStr := by
    refine hwoven.filter_eq fun answer hright => decide_eq_false ?_
    obtain ⟨other, hother, hsome⟩ := mem_entries.mp hright
    obtain ⟨event, hevent, hsome'⟩ := mem_entries.mp hleft
    rw [readTaskResponse_envelope (answerOf_eq_some.mp hsome).2.1,
      readTaskResponse_envelope (answerOf_eq_some.mp hsome').2.1]
    exact hids event hevent other hother
  exact leastBy_of_filter hcarrier (fun answer hmem => hwoven.mem_iff.mpr (.inl hmem)) hsame.symm

end Mixed

section Condition

variable (rt taskAttemptId reader)

/-- Every operative request of before is opened once, and satisfied by what answers it afterwards. -/
def Released (before after : List (StoredEvent V)) : Prop :=
  ∀ front request back, before.filterMap (taskRequestOf rt) = front ++ request :: back →
    request.mode = .operative → request.inputRequestId ∉ front.map (·.inputRequestId) ∧
      ∃ id record, SoleAnswer rt after reader.trustSet request.inputRequestId id record ∧
        Satisfies reader (attemptStateOf rt taskAttemptId before) request record

end Condition

theorem mayResume_iff_released {projection : AgentResumptionProjection}
    (h : agentResumptionWithPrincipalPolicy rt events taskAttemptId reader = .ok projection) :
    projection.mayResume = true ↔ (∃ event ∈ events, proposes rt taskAttemptId event = true) ∧
      Released rt taskAttemptId reader events events := by
  rw [mayResume_iff h, Released]
  refine and_congr_right fun _ => forall₃_congr fun front request back => forall₂_congr fun _ _ =>
    and_congr_right fun _ => ?_
  rw [exists_comm]
  simp only [exists_and_right, exists_soleAnswer]

section Whole

variable (hmix : Interleaves left right whole)
  (himports : ∀ event ∈ right, UnverifiedImport rt reader.trustSet whole event)
include hmix himports

theorem attemptFold_of_imports :
    attemptFold rt taskAttemptId whole = attemptFold rt taskAttemptId left := by
  refine attemptFold_of_interleaves hmix fun event hevent => ?_
  simp [proposes, checkpointOf, (himports event hevent).eventType]

theorem proposed_of_imports : (∃ event ∈ whole, proposes rt taskAttemptId event = true) ↔
    ∃ event ∈ left, proposes rt taskAttemptId event = true := by
  rw [← attemptFold_isSome, attemptFold_of_imports hmix himports, attemptFold_isSome]

theorem released_of_imports : Released rt taskAttemptId reader whole whole ↔
    Released rt taskAttemptId reader left whole := by
  have hviews : whole.filterMap (taskRequestOf rt) = left.filterMap (taskRequestOf rt) := by
    refine hmix.filterMap_eq fun event hevent => ?_
    simp [taskRequestOf, (himports event hevent).eventType]
  rw [Released, Released, hviews, attemptStateOf, attemptStateOf,
    attemptFold_of_imports hmix himports]

theorem attemptRead_of_imports (h : AttemptRead rt taskAttemptId left) :
    AttemptRead rt taskAttemptId whole := by
  intro event hevent
  rcases hmix.mem_iff.mp hevent with hleft | hright
  · exact h event hleft
  · refine ⟨none, ?_⟩
    rw [readTaskAttemptEvent, (himports event hright).schema, (himports event hright).eventType]
    rfl

theorem inputsRead_of_imports (h : InputsRead rt left taskAttemptId reader.trustSet) :
    InputsRead rt whole taskAttemptId reader.trustSet ↔ (right ≠ [] → CarriersRead rt left) := by
  have hcarriers : CarriersRead rt whole ↔ CarriersRead rt left := by
    rw [carriersRead_iff, carriersRead_iff,
      build_of_interleaves hmix (imports_no_carriers himports)]
  obtain ⟨hreads, hbrings⟩ := inputsRead_iff.mp h
  have hreads' : ∀ event ∈ whole, ReadsInput rt event := by
    intro event hevent
    rcases hmix.mem_iff.mp hevent with hleft | hright
    · exact hreads event hleft
    · have himport := himports event hright
      exact ⟨himport.schema, by simp [himport.eventType], fun _ => himport.payload⟩
  have hresponse : BringsResponse whole ↔ BringsResponse left ∨ right ≠ [] := by
    simp only [BringsResponse, hmix.mem_iff, or_and_right, exists_or]
    refine or_congr_right ⟨?_, fun hne => ?_⟩
    · rintro ⟨event, hevent, -⟩
      exact ne_nil_of_mem hevent
    · obtain ⟨event, hevent⟩ := exists_mem_of_ne_nil _ hne
      exact ⟨event, hevent, (himports event hevent).eventType⟩
  rw [inputsRead_iff, hcarriers, hresponse, or_imp]
  exact ⟨fun hall => hall.2.2, fun himport => ⟨hreads', hbrings, himport⟩⟩

theorem Released.before (hcarriers : CarriersRead rt left)
    (hids : ∀ event ∈ left, ∀ other ∈ right, other.eventId.asStr ≠ event.eventId.asStr)
    (howners : KeepsOwners rt reader.trustSet left whole)
    (h : Released rt taskAttemptId reader left whole) :
    Released rt taskAttemptId reader left left := by
  obtain ⟨index, hindex⟩ := carriersRead_iff.mp hcarriers
  rw [← build_of_interleaves hmix (imports_no_carriers himports)] at hindex
  intro front request back hsplit hmode
  obtain ⟨honce, id, record, hanswered, hsatisfies⟩ := h front request back hsplit hmode
  have hrequest : request ∈ left.filterMap (taskRequestOf rt) := by
    rw [hsplit]
    exact mem_append_right _ (.head _)
  obtain ⟨lowest, hcarrier, rfl⟩ := Option.map_eq_some_iff.mp hanswered.lowest
  -- what satisfies the request was there before the imports
  have hbefore := lowestCarrier_before hmix himports hids hindex hcarrier hsatisfies.binding
  have hne := ne_nil_of_mem (leastBy_mem hbefore)
  refine ⟨honce, id, lowest.2, ⟨?_, fun id' hid' => ?_, by rw [hbefore]; rfl⟩, hsatisfies⟩
  · exact (howners id hne request hrequest hmode).mp hanswered.first
  · obtain ⟨answer, hanswer, -⟩ := mem_of_head_fst hid'
    exact hanswered.only id'
      ((howners id' (ne_nil_of_mem hanswer) request hrequest hmode).mpr hid')

end Whole

theorem keepsOwners_append
    (hcarriers : ∀ event ∈ right, event.eventType ≠ .eventSignatureRecorded) :
    KeepsOwners rt trustSet left (left ++ right) := by
  intro id hne request _ _
  rw [answersUnder_append (fun event hevent => cosignaturesForEvent_append hcarriers hevent),
    head?_append_of_ne_nil _ hne]

end Imports

namespace StoreRecorded

def attemptId : WorkObjectId := ⟨text "task:attempt"⟩

def taskEvent (eventId : Text) (payload : WirePayload) : StoredEvent StorePayload :=
  { event payload.eventType eventId (.wire payload) with
    eventId := ⟨eventId⟩
    assertionMode := .operative }

def attempted (id : WorkObjectId) : WirePayload :=
  .workObjectProposed { engagementId := ⟨text "engagement"⟩, workObject := .taskAttempt id }

def requestPayload (inputRequestId : Text) (id : WorkObjectId) : InputRequestOpenedPayload where
  inputRequestId := ⟨inputRequestId⟩
  target := .revision ⟨text "rev"⟩
  taskTarget := some (.taskAttempt id)
  reasonCode := .unsafeAction
  title := text "delete?"
  body := none
  bodyContentType := .textPlain
  bodyArtifactPath := none
  bodyContentHash := none

def asked (inputRequestId : Text) (id : WorkObjectId) : WirePayload :=
  .inputRequestOpened (requestPayload inputRequestId id)

def answered (responseId inputRequestId : Text) (outcome : InputRequestResponseOutcome) :
    WirePayload :=
  .inputRequestResponded
    { inputRequestResponseId := ⟨responseId⟩, inputRequestId := ⟨inputRequestId⟩,
      revisionId := none, taskTarget := some (.taskAttempt attemptId), outcome, reason := none,
      reasonContentType := .textPlain, reasonArtifactPath := none, reasonContentHash := none }

def localReader : ResumptionReader where
  readerActorId := ⟨text "actor:agent:worker"⟩
  trustSet := {}
  bindingPolicy := .localAndVerified
  delegationMap := none
  principalPolicy := .none

def approvedTask : List (StoredEvent StorePayload) :=
  [taskEvent (text "evt:1") (attempted attemptId), taskEvent (text "evt:2") (asked (text "A") attemptId),
    taskEvent (text "evt:5") (answered (text "r") (text "A") .approved)]

def retargetedTask : List (StoredEvent StorePayload) :=
  approvedTask ++ [taskEvent (text "evt:4") (answered (text "r") (text "B") .approved)]

def projectionOf (events : List (StoredEvent StorePayload)) : Option AgentResumptionProjection :=
  (agentResumptionWithPrincipalPolicy runtime.toStoreRuntime events attemptId localReader).toOption

variable {events : List (StoredEvent StorePayload)}

theorem projectionOf_map {α : Type} {read : AgentResumptionProjection → α} {value : α}
    (h : (projectionOf events).map read = some value) :
    ∃ projection, agentResumptionWithPrincipalPolicy runtime.toStoreRuntime events attemptId
      localReader = .ok projection ∧ read projection = value := by
  obtain ⟨projection, hprojection, hread⟩ := Option.map_eq_some_iff.mp h
  exact ⟨projection, Result.toOption_eq_some.mp hprojection, hread⟩

theorem approved_task_answered : ∃ projection,
    agentResumptionWithPrincipalPolicy runtime.toStoreRuntime approvedTask attemptId localReader =
      .ok projection ∧ projection.mayResume = true ∧
    ((∃ event ∈ approvedTask, proposes runtime.toStoreRuntime attemptId event = true) ∧
      ∃ summary, taskAttemptSummaryFromEvents runtime.toStoreRuntime approvedTask attemptId
          localReader.readerActorId = .ok (some summary) ∧
        ∀ request, HoldsUp runtime.toStoreRuntime approvedTask attemptId request →
          ∃ id record, SettledBy runtime.toStoreRuntime approvedTask localReader
            summary.attemptState request id record) := by
  obtain ⟨projection, hprojection, hmay⟩ :=
    projectionOf_map
      (by decide +kernel : (projectionOf approvedTask).map (·.mayResume) = some true)
  refine ⟨projection, hprojection, hmay, (resumption_answered_iff hprojection hmay).mpr ?_⟩
  intro request _
  have hnames : ∀ event ∈ approvedTask, (answerOf runtime.toStoreRuntime approvedTask {} event).all
      (fun answer => answer.2.1 = ⟨text "A"⟩) = true := by decide +kernel
  exact carriersAgreeOn_of_names hnames

/-- The agent may resume on an approval whose lowest carrier is for another request. -/
theorem retargeted_task_resumes : ∃ projection,
    agentResumptionWithPrincipalPolicy runtime.toStoreRuntime retargetedTask attemptId localReader =
      .ok projection ∧ projection.mayResume = true ∧
    ¬ ((∃ event ∈ retargetedTask, proposes runtime.toStoreRuntime attemptId event = true) ∧
      ∃ summary, taskAttemptSummaryFromEvents runtime.toStoreRuntime retargetedTask attemptId
          localReader.readerActorId = .ok (some summary) ∧
        ∀ request, HoldsUp runtime.toStoreRuntime retargetedTask attemptId request →
          ∃ id record, SettledBy runtime.toStoreRuntime retargetedTask localReader
            summary.attemptState request id record) := by
  obtain ⟨projection, hprojection, hmay⟩ := projectionOf_map
    (by decide +kernel : (projectionOf retargetedTask).map (·.mayResume) = some true)
  refine ⟨projection, hprojection, hmay, ?_⟩
  rintro ⟨-, summary, -, hsettled⟩
  obtain ⟨request, hrequest, hname⟩ : ∃ request,
      HoldsUp runtime.toStoreRuntime retargetedTask attemptId request ∧
        request.inputRequestId = ⟨text "A"⟩ :=
    ⟨taskInputRequestView (taskEvent (text "evt:2") (asked (text "A") attemptId))
      (.task (.taskAttempt attemptId)) (requestPayload (text "A") attemptId),
      ⟨by decide +kernel, rfl, rfl⟩, rfl⟩
  obtain ⟨id, record, hsettled⟩ := hsettled request hrequest
  have hlowest := hsettled.lowest
  have hfirst : ∃ answer ∈ answersUnder runtime.toStoreRuntime retargetedTask {} ⟨text "r"⟩,
      answer.1 = ⟨text "A"⟩ := mem_of_head_fst (by decide +kernel)
  obtain ⟨answer, hanswer, hnamed⟩ := hfirst
  obtain rfl := hsettled.only _ answer hanswer (hnamed.trans hname.symm)
  have hother : (lowestCarrier (answersUnder runtime.toStoreRuntime retargetedTask {}
      ⟨text "r"⟩)).map Prod.fst = some ⟨text "B"⟩ := by decide +kernel
  have hsame := (congrArg (Option.map Prod.fst) hlowest).symm.trans hother
  rw [Option.map_some, hname] at hsame
  exact absurd (Option.some.inj hsame) (by decide : (⟨text "A"⟩ : InputRequestId) ≠ ⟨text "B"⟩)

def blockedTask : List (StoredEvent StorePayload) :=
  [taskEvent (text "evt:1") (attempted attemptId), taskEvent (text "evt:2") (asked (text "A") attemptId),
    taskEvent (text "evt:3") (answered (text "r") (text "B") .approved)]

def importedAnswer : StoredEvent StorePayload :=
  { taskEvent (text "evt:4") (answered (text "r") (text "A") .rejected) with
    ingest := some { via := .ingestEvents, receivedAt := now } }

theorem importedAnswer_unverified
    (hcarriers : ∀ event ∈ events, event.eventType ≠ .eventSignatureRecorded) :
    UnverifiedImport runtime.toStoreRuntime {} events importedAnswer where
  inline := by decide
  detached carrier hcarrier := absurd hcarrier.eventType (hcarriers _ hcarrier.mem)
  eventType := rfl
  schema := rfl
  payload := ⟨_, rfl⟩
  ingested := rfl

theorem blockedTask_held : ∃ projection,
    agentResumptionWithPrincipalPolicy runtime.toStoreRuntime blockedTask attemptId localReader =
      .ok projection ∧ projection.mayResume = false :=
  projectionOf_map (by decide +kernel)

def mixedTask : List (StoredEvent StorePayload) :=
  [taskEvent (text "evt:1") (attempted attemptId), taskEvent (text "evt:2") (asked (text "A") attemptId),
    importedAnswer, taskEvent (text "evt:3") (answered (text "r") (text "B") .approved)]

end StoreRecorded

end Pointbreak
