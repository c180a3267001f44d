import Pointbreak.Projection.Task

/-!
# Projection.Resumption

When an agent may resume. The collection of requests and responses is put in closed form: the
requests are those that the events open (`taskRequestOf`), and a response id stands for the record
of its lowest event id, with the request that its first carrier names (`standsFor`).
-/

namespace Pointbreak

open Std KeyedLog Result List

variable {V B : Type} (rt : StoreRuntime V B)

section Facts

/-- The request that an event opens on a task subject. -/
def taskRequestOf (event : StoredEvent V) : Option TaskInputRequestView :=
  if event.eventType = .inputRequestOpened then
    (decodeInputRequestOpenedPayload rt.toRuntime event.payload).toOption.bind fun payload =>
      payload.taskTarget.map fun target => taskInputRequestView event (.task target) payload
  else none

def answerOf (events : List (StoredEvent V)) (trustSet : TrustSet) (event : StoredEvent V) :
    Option (InputRequestResponseId × InputRequestId × TaskInputRequestResponseRecord) :=
  if event.eventType = .inputRequestResponded then
    (readTaskResponse rt events trustSet event).toOption.map fun answer =>
      (answer.2.responseId, answer)
  else none

def proposes (taskAttemptId : WorkObjectId) (event : StoredEvent V) : Bool :=
  event.eventType = .workObjectProposed &&
    (fromValue rt.workObjectProposed event.payload).toOption.any fun payload =>
      payload.workObject = .taskAttempt taskAttemptId

def checkpointOf (taskAttemptId : WorkObjectId) (event : StoredEvent V) :
    Option TaskCheckpointSummary :=
  if event.eventType = .taskCheckpointCaptured then
    (fromValue rt.taskCheckpointCaptured event.payload).toOption.bind fun payload =>
      if payload.parentTaskAttemptId = taskAttemptId then
        some (taskCheckpointSummary (.fromEvent event) payload)
      else none
  else none

variable {rt} {event : StoredEvent V} {taskAttemptId : WorkObjectId}

theorem taskRequestOf_eq_some {view : TaskInputRequestView} :
    taskRequestOf rt event = some view ↔ event.eventType = .inputRequestOpened ∧
      ∃ payload target, decodeInputRequestOpenedPayload rt.toRuntime event.payload = .ok payload ∧
        payload.taskTarget = some target ∧
        taskInputRequestView event (.task target) payload = view := by
  simp [taskRequestOf, Option.bind_eq_some_iff, toOption_eq_some]

theorem proposes_eq_true : proposes rt taskAttemptId event = true ↔
    event.eventType = .workObjectProposed ∧ ∃ payload,
      rt.workObjectProposed event.payload = .ok payload ∧
        payload.workObject = .taskAttempt taskAttemptId := by
  simp [proposes, Option.any_eq_true, toOption_eq_some]

theorem checkpointOf_eq_some {checkpoint : TaskCheckpointSummary} :
    checkpointOf rt taskAttemptId event = some checkpoint ↔
      event.eventType = .taskCheckpointCaptured ∧ ∃ payload,
        rt.taskCheckpointCaptured event.payload = .ok payload ∧
          payload.parentTaskAttemptId = taskAttemptId ∧
          taskCheckpointSummary (.fromEvent event) payload = checkpoint := by
  simp [checkpointOf, Option.bind_eq_some_iff, toOption_eq_some]

end Facts

/-- The record of the lowest event id, with the request that its carrier names. -/
abbrev lowestCarrier (answers : List (InputRequestId × TaskInputRequestResponseRecord)) :
    Option (InputRequestId × TaskInputRequestResponseRecord) :=
  leastBy compare (fun answer => answer.2.envelope.eventId.asStr) answers

/-- The request is taken from the first carrier, the record from the lowest. -/
def standsFor (answers : List (InputRequestId × TaskInputRequestResponseRecord)) :
    Option (InputRequestId × TaskInputRequestResponseRecord) :=
  answers.head?.bind fun first => (lowestCarrier answers).map fun lowest => (first.1, lowest.2)

variable {answers : List (InputRequestId × TaskInputRequestResponseRecord)}

theorem lowestCarrier_isSome (h : answers ≠ []) :
    ∃ lowest ∈ answers, lowestCarrier answers = some lowest :=
  leastBy_isSome h

theorem foldl_representResponse (answers : List (InputRequestId × TaskInputRequestResponseRecord)) :
    answers.foldl (fun old answer => some (representResponse answer.1 answer.2 old)) none =
      standsFor answers := by
  induction answers using List.reverseRecOn with
  | nil => rfl
  | append_singleton answers answer ih =>
    have hlast : lowestCarrier (answers ++ [answer]) =
        some ((lowestCarrier answers).elim answer fun lowest =>
          if compare answer.2.envelope.eventId.asStr lowest.2.envelope.eventId.asStr = .lt then answer
          else lowest) := leastBy_append_singleton answers answer
    rw [foldl_append, ih, foldl_cons, foldl_nil, standsFor, standsFor, hlast]
    cases answers with
    | nil => rfl
    | cons first rest =>
      obtain ⟨lowest, -, hlowest⟩ := lowestCarrier_isSome (cons_ne_nil first rest)
      simp only [hlowest, head?_cons, Option.bind_some, Option.map_some, cons_append,
        Option.elim_some, representResponse]
      split <;> rfl

theorem standsFor_eq_some {owner : InputRequestId} {record : TaskInputRequestResponseRecord} :
    standsFor answers = some (owner, record) ↔
      answers.head?.map Prod.fst = some owner ∧
        (lowestCarrier answers).map Prod.snd = some record := by
  rw [standsFor]
  cases answers.head? with
  | none => simp
  | some first => simp [and_comm]

theorem standsFor_isSome (h : answers ≠ []) :
    ∃ representative, standsFor answers = some representative := by
  obtain ⟨lowest, -, hlowest⟩ := lowestCarrier_isSome h
  cases answers with
  | nil => exact absurd rfl h
  | cons first rest => exact ⟨_, by rw [standsFor, hlowest]; rfl⟩

theorem mem_of_head_fst {owner : InputRequestId} (h : answers.head?.map Prod.fst = some owner) :
    ∃ answer ∈ answers, answer.1 = owner := by
  obtain ⟨answer, hanswer, hfst⟩ := Option.map_eq_some_iff.mp h
  exact ⟨answer, mem_of_head? hanswer, hfst⟩

section Collection

variable (events : List (StoredEvent V)) (taskAttemptId : WorkObjectId) (trustSet : TrustSet)

def inputFactOf (event : StoredEvent V) : Option TaskInputFact :=
  ((taskRequestOf rt event).map .request).or
    ((answerOf rt events trustSet event).map fun answer => .response answer.2.1 answer.2.2)

def answersUnder (responseId : InputRequestResponseId) :
    List (InputRequestId × TaskInputRequestResponseRecord) :=
  entries (answerOf rt events trustSet) responseId events

def representatives :
    BTreeMap InputRequestResponseId (InputRequestId × TaskInputRequestResponseRecord) :=
  (events.foldl (fun (fold : TaskInputFold) event =>
    fold.put (inputFactOf rt events trustSet event)) {}).responseRepresentatives

def responsesTo (inputRequestId : InputRequestId) : List TaskInputRequestResponseRecord :=
  ((representatives rt events trustSet).vals.filter fun representative =>
    representative.1 = inputRequestId).map Prod.snd

def InputsRead : Prop :=
  ∀ event ∈ events, ∃ fact, readTaskInputEvent rt events taskAttemptId trustSet event = .ok fact

variable {rt events taskAttemptId trustSet} {event : StoredEvent V}

theorem readTaskInputRequest_eq_ok (htype : event.eventType = .inputRequestOpened)
    {view : Option TaskInputRequestView} : readTaskInputRequest rt taskAttemptId event = .ok view ↔
      (∃ payload, decodeInputRequestOpenedPayload rt.toRuntime event.payload = .ok payload) ∧
        taskRequestOf rt event = view := by
  rw [readTaskInputRequest, eventTargetsTaskAttempt, reconstructSubject, htype, taskRequestOf,
    if_pos htype]
  cases hdecode : decodeInputRequestOpenedPayload rt.toRuntime event.payload with
  | error e => simp [Bind.bind, Except.bind]
  | ok payload =>
    cases htarget : payload.taskTarget <;>
      simp [Bind.bind, Except.bind, Except.toOption, htarget]

theorem readTaskInputEvent_eq_fact {fact : Option TaskInputFact}
    (h : readTaskInputEvent rt events taskAttemptId trustSet event = .ok fact) :
    fact = inputFactOf rt events trustSet event := by
  rw [readTaskInputEvent, bind_eq_ok] at h
  obtain ⟨_, -, h⟩ := h
  rw [inputFactOf]
  split at h
  · rename_i htype
    obtain ⟨view, hview, ⟨⟩⟩ := bind_eq_ok.mp h
    obtain ⟨-, rfl⟩ := (readTaskInputRequest_eq_ok htype).mp hview
    simp [answerOf, htype]
  · rename_i htype
    have hrequest : taskRequestOf rt event = none := by simp [taskRequestOf, htype]
    simp only [bind_eq_ok, Except.ok.injEq] at h
    obtain ⟨answer, hanswer, rfl⟩ := h
    simp [hrequest, answerOf, htype, hanswer, Except.toOption]
  · rename_i hopened hresponded
    cases h
    rw [taskRequestOf, if_neg hopened, answerOf, if_neg hresponded]
    rfl

variable {answer : InputRequestId × TaskInputRequestResponseRecord}

theorem answerOf_eq_some {id : InputRequestResponseId} :
    answerOf rt events trustSet event = some (id, answer) ↔
      event.eventType = .inputRequestResponded ∧
        readTaskResponse rt events trustSet event = .ok answer ∧ answer.2.responseId = id := by
  simp [answerOf, toOption_eq_some]

theorem readTaskResponse_envelope (h : readTaskResponse rt events trustSet event = .ok answer) :
    answer.2.envelope = .fromEvent event := by
  simp only [readTaskResponse, bind_eq_ok, Except.ok.injEq] at h
  obtain ⟨payload, -, evidence, -, rfl⟩ := h
  rfl

theorem get_representatives (responseId : InputRequestResponseId) :
    (representatives rt events trustSet)[responseId]? =
      standsFor (answersUnder rt events trustSet responseId) := by
  rw [← foldl_representResponse]
  refine get_foldl_alter TaskInputFold.responseRepresentatives
    (fun old (answer : InputRequestId × TaskInputRequestResponseRecord) =>
      representResponse answer.1 answer.2 old) ?_ events {} responseId
  intro fold event
  cases hanswer : answerOf rt events trustSet event with
  | none =>
    rw [inputFactOf, hanswer]
    cases taskRequestOf rt event <;> rfl
  | some answer =>
    obtain ⟨responseId', owner, record⟩ := answer
    obtain ⟨htype, -, rfl⟩ := answerOf_eq_some.mp hanswer
    have hrequest : taskRequestOf rt event = none := by simp [taskRequestOf, htype]
    rw [inputFactOf, hanswer, hrequest]
    simp only [Option.map_none, Option.map_some, Option.none_or, TaskInputFold.put]
    rfl

theorem getD_responsesByInputRequest (inputRequestId : InputRequestId) :
    (responsesByInputRequest (representatives rt events trustSet).vals)[inputRequestId]?.getD [] =
      responsesTo rt events trustSet inputRequestId :=
  getD_grouped

theorem collectTaskInputRequestRecords_eq_ok {records : List TaskInputRequestRecord} :
    collectTaskInputRequestRecords rt events taskAttemptId trustSet = .ok records ↔
      InputsRead rt events taskAttemptId trustSet ∧
        assignResponses (responsesByInputRequest (representatives rt events trustSet).vals)
          (events.filterMap (taskRequestOf rt)) = records := by
  have hviews : (events.foldl (fun (fold : TaskInputFold) event =>
      fold.put (inputFactOf rt events trustSet event)) {}).requestViews =
      events.filterMap (taskRequestOf rt) := by
    refine list_foldl (fun fold : TaskInputFold => fold.requestViews) _ (taskRequestOf rt) ?_ _ {}
    intro fold event
    rw [inputFactOf]
    cases taskRequestOf rt event with
    | some view => rfl
    | none => cases answerOf rt events trustSet event <;> simp [TaskInputFold.put]
  have hput {event} {fact : Option TaskInputFact}
      (hfact : readTaskInputEvent rt events taskAttemptId trustSet event = .ok fact)
      (fold : TaskInputFold) : fold.put fact = fold.put (inputFactOf rt events trustSet event) := by
    rw [readTaskInputEvent_eq_fact hfact]
  simp only [collectTaskInputRequestRecords, bind_eq_ok, foldlM_read_eq hput, and_assoc,
    exists_and_left, exists_eq_left', hviews, Except.ok.injEq]
  rfl

theorem mem_assignResponses {groups : BTreeMap InputRequestId (List TaskInputRequestResponseRecord)}
    {views : List TaskInputRequestView} {record : TaskInputRequestRecord} :
    record ∈ assignResponses groups views ↔ ∃ front view back, views = front ++ view :: back ∧
      record = { view, responses :=
        if view.inputRequestId ∈ front.map (·.inputRequestId) then []
        else groups[view.inputRequestId]?.getD [] } := by
  induction views generalizing groups with
  | nil => simp [assignResponses]
  | cons view views ih =>
    have herase : ∀ (front : List TaskInputRequestView) (id : InputRequestId),
        (if id ∈ (view :: front).map (·.inputRequestId) then [] else groups[id]?.getD []) =
          if id ∈ front.map (·.inputRequestId) then []
          else (groups.erase view.inputRequestId)[id]?.getD [] := by
      intro front id
      simp only [map_cons, mem_cons, BTreeMap.get_erase]
      by_cases hsame : id = view.inputRequestId
      · simp [hsame]
      · simp [hsame, Ne.symm hsame]
    rw [assignResponses, mem_cons, ih]
    constructor
    · rintro (rfl | ⟨front, later, back, rfl, rfl⟩)
      · exact ⟨[], view, views, rfl, by simp⟩
      · exact ⟨view :: front, later, back, rfl, by rw [herase]⟩
    · rintro ⟨front, later, back, hviews, rfl⟩
      cases front with
      | nil =>
        cases hviews
        exact .inl (by simp)
      | cons first front =>
        cases hviews
        exact .inr ⟨front, later, back, rfl, by rw [herase]⟩

section Verdict

variable {reader : ResumptionReader} {attempt : AttemptState}

/-- The response is as the resumption rule wants it. -/
structure Satisfies (reader : ResumptionReader) (attempt : AttemptState)
    (view : TaskInputRequestView) (response : TaskInputRequestResponseRecord) : Prop where
  approved : response.outcome = .approved
  operative : response.envelope.assertionMode = .operative
  binding : reader.identityBinding response = true
  sufficient : reader.principalOk response = true
  fresh : (attempt.freshness view response).isStale = false

variable {records : List TaskInputRequestRecord}

theorem earliestRecord_eq_none : earliestRecord records = none ↔ records = [] := by
  induction records using List.reverseRecOn with
  | nil => simp [earliestRecord]
  | append_singleton records record ih =>
    rw [earliestRecord, foldl_append, foldl_cons, foldl_nil]
    split
    · simp
    · split <;> simp

theorem satisfies_iff {view : TaskInputRequestView} {response : TaskInputRequestResponseRecord} :
    Satisfies reader attempt view response ↔
      reader.permits response = true ∧ (attempt.freshness view response).isStale = false := by
  simp only [ResumptionReader.permits, Bool.and_eq_true, decide_eq_true_eq]
  constructor
  · intro h
    exact ⟨⟨⟨⟨h.binding, h.sufficient⟩, h.operative⟩, h.approved⟩, h.fresh⟩
  · rintro ⟨⟨⟨⟨hbinding, hsufficient⟩, hoperative⟩, happroved⟩, hfresh⟩
    exact ⟨happroved, hoperative, hbinding, hsufficient, hfresh⟩

end Verdict

end Collection

section Reading

variable (events : List (StoredEvent V))

def CarriersRead : Prop :=
  ∀ event ∈ events, event.eventType = .eventSignatureRecorded →
    ∃ payload, rt.eventSignatureRecorded event.payload = .ok payload

def BringsResponse : Prop := ∃ event ∈ events, event.eventType = .inputRequestResponded

/-- What the request pass asks of an event by itself. -/
structure ReadsInput (event : StoredEvent V) : Prop where
  schema : event.validateSchemaVersion = .ok ()
  opened : event.eventType = .inputRequestOpened →
    ∃ payload, decodeInputRequestOpenedPayload rt.toRuntime event.payload = .ok payload
  responded : event.eventType = .inputRequestResponded →
    ∃ payload, rt.inputRequestResponded event.payload = .ok payload

variable {rt events} {event : StoredEvent V} {trustSet : TrustSet} {taskAttemptId : WorkObjectId}

theorem carriersRead_iff :
    CarriersRead rt events ↔ ∃ index, CosignatureIndex.build rt events = .ok index := by
  refine .trans (forall₂_congr fun event _ => ?_) groupM_isOk.symm
  rw [readCarrier]
  split
  · rename_i htype
    simp [htype, fromValue_eq_ok]
  · rename_i htype
    simp [htype]

theorem exists_found (hevent : event ∈ events) : ∃ target,
      (events.find? fun other => other.eventId.asStr = event.eventId.asStr) = some target := by
  rw [← Option.isSome_iff_exists, find?_isSome]
  exact ⟨event, hevent, decide_eq_true rfl⟩

variable (trustSet) in
theorem responseBindingEvidence_eq
    {index : CosignatureIndex V} (hindex : CosignatureIndex.build rt events = .ok index)
    (hevent : event ∈ events) :
    ∃ target ∈ events, target.eventId.asStr = event.eventId.asStr ∧
      responseBindingEvidence rt events event trustSet = .ok
        { cosignatures := index.cosignaturesForTarget rt target trustSet,
          inlineStatus := (index.cosignaturesForTarget rt target trustSet).inlineStatus.getD
            (if event.signature.isSome then .invalid else .unsigned),
          ingested := event.ingest.isSome } := by
  obtain ⟨target, htarget⟩ := exists_found hevent
  refine ⟨target, mem_of_find?_eq_some htarget, by simpa using find?_some htarget, ?_⟩
  rw [responseBindingEvidence, cosignaturesForEvent, htarget]
  simp only [hindex]
  rfl

theorem readTaskResponse_isOk (hevent : event ∈ events) :
    (∃ answer, readTaskResponse rt events trustSet event = .ok answer) ↔
      (∃ payload, rt.inputRequestResponded event.payload = .ok payload) ∧ CarriersRead rt events := by
  rw [carriersRead_iff]
  constructor
  · rintro ⟨answer, hanswer⟩
    simp only [readTaskResponse, responseBindingEvidence, bind_eq_ok] at hanswer
    obtain ⟨payload, hpayload, -, ⟨set, hset, -⟩, -⟩ := hanswer
    obtain ⟨target, htarget⟩ := exists_found hevent
    rw [cosignaturesForEvent, htarget] at hset
    obtain ⟨index, hindex, -⟩ := bind_eq_ok.mp hset
    exact ⟨⟨payload, fromValue_eq_ok.mp hpayload⟩, index, hindex⟩
  · rintro ⟨⟨payload, hpayload⟩, index, hindex⟩
    obtain ⟨target, -, -, hevidence⟩ := responseBindingEvidence_eq trustSet hindex hevent
    exact ⟨_, by rw [readTaskResponse, fromValue, hpayload, hevidence]; rfl⟩

theorem readTaskInputEvent_isOk (hevent : event ∈ events) :
    (∃ fact, readTaskInputEvent rt events taskAttemptId trustSet event = .ok fact) ↔
      ReadsInput rt event ∧
        (event.eventType = .inputRequestResponded → CarriersRead rt events) := by
  have hanswer : (∃ answer, readTaskResponse rt events trustSet event = .ok answer) ↔ _ :=
    readTaskResponse_isOk hevent
  simp only [readTaskInputEvent, bind_eq_ok]
  constructor
  · rintro ⟨fact, _, hschema, hfact⟩
    split at hfact
    · rename_i htype
      obtain ⟨view, hview, -⟩ := bind_eq_ok.mp hfact
      obtain ⟨hdecodes, -⟩ := (readTaskInputRequest_eq_ok htype).mp hview
      exact ⟨⟨hschema, fun _ => hdecodes, by simp [htype]⟩, by simp [htype]⟩
    · rename_i htype
      obtain ⟨answer, hread, -⟩ := bind_eq_ok.mp hfact
      obtain ⟨hpayload, hcarriers⟩ := hanswer.mp ⟨answer, hread⟩
      exact ⟨⟨hschema, by simp [htype], fun _ => hpayload⟩, fun _ => hcarriers⟩
    · rename_i hopened hresponded
      exact ⟨⟨hschema, fun h => absurd h hopened, fun h => absurd h hresponded⟩,
        fun h => absurd h hresponded⟩
  · rintro ⟨hreads, hcarriers⟩
    simp only [hreads.schema, exists_const]
    split
    · rename_i htype
      have hview : readTaskInputRequest rt taskAttemptId event = .ok _ :=
        (readTaskInputRequest_eq_ok htype).mpr ⟨hreads.opened htype, rfl⟩
      simp [hview]
    · rename_i htype
      obtain ⟨answer, hread⟩ := hanswer.mpr ⟨hreads.responded htype, hcarriers htype⟩
      simp [hread]
    · simp

/-- The input events can be read, each by itself, and the carriers if there is a response. -/
theorem inputsRead_iff : InputsRead rt events taskAttemptId trustSet ↔
    (∀ event ∈ events, ReadsInput rt event) ∧
      (BringsResponse events → CarriersRead rt events) := by
  constructor
  · intro h
    refine ⟨fun event hevent => ((readTaskInputEvent_isOk hevent).mp (h event hevent)).1, ?_⟩
    rintro ⟨event, hevent, htype⟩
    exact ((readTaskInputEvent_isOk hevent).mp (h event hevent)).2 htype
  · rintro ⟨hreads, hcarriers⟩ event hevent
    exact (readTaskInputEvent_isOk hevent).mpr
      ⟨hreads event hevent, fun htype => hcarriers ⟨event, hevent, htype⟩⟩

end Reading

section Attempt

variable (taskAttemptId : WorkObjectId) (events : List (StoredEvent V))

def attemptStep (fold : TaskAttemptFold) (event : StoredEvent V) : TaskAttemptFold where
  attempt := if proposes rt taskAttemptId event then some (.fromEvent event) else fold.attempt
  checkpoints := (checkpointOf rt taskAttemptId event).elim fold.checkpoints fun summary =>
    fold.checkpoints.insert summary.checkpointId summary

def attemptFold : TaskAttemptFold := events.foldl (attemptStep rt taskAttemptId) {}

def attemptStateOf : AttemptState :=
  let latest := latestOf ((attemptFold rt taskAttemptId events).checkpoints.vals.insertionSort
    checkpointLE)
  { taskAttemptId, latestCheckpoint := latest.map (·.checkpointId),
    latestCheckpointFingerprint := latest.bind (·.checkpointFingerprint) }

def AttemptRead : Prop :=
  ∀ event ∈ events, ∃ fact, readTaskAttemptEvent rt taskAttemptId event = .ok fact

variable {rt taskAttemptId events}

theorem put_eq_attemptStep {event : StoredEvent V} {fact : Option TaskAttemptFact}
    (h : readTaskAttemptEvent rt taskAttemptId event = .ok fact) (fold : TaskAttemptFold) :
    fold.put fact = attemptStep rt taskAttemptId fold event := by
  rw [readTaskAttemptEvent, bind_eq_ok] at h
  obtain ⟨_, -, h⟩ := h
  split at h
  · rename_i htype
    obtain ⟨payload, hpayload, h⟩ := bind_eq_ok.mp h
    have hcheckpoint : checkpointOf rt taskAttemptId event = none := by simp [checkpointOf, htype]
    cases hobject : payload.workObject <;> rw [hobject] at h <;> cases h
    · simp [attemptStep, hcheckpoint, proposes, htype, hpayload, Except.toOption, hobject,
        TaskAttemptFold.put]
    · next id =>
      by_cases hid : id = taskAttemptId <;>
        simp [attemptStep, hcheckpoint, proposes, htype, hpayload, Except.toOption, hobject, hid,
          TaskAttemptFold.put]
  · rename_i htype
    obtain ⟨payload, hpayload, h⟩ := bind_eq_ok.mp h
    cases h
    by_cases hid : payload.parentTaskAttemptId = taskAttemptId <;>
      simp [attemptStep, checkpointOf, proposes, htype, hpayload, Except.toOption, hid,
        TaskAttemptFold.put, taskCheckpointSummary]
  · rename_i htype
    obtain ⟨payload, hpayload, h⟩ := bind_eq_ok.mp h
    cases h
    simp [attemptStep, checkpointOf, proposes, htype, TaskAttemptFold.put]
  · rename_i hproposed hcheckpoint hobservation
    cases h
    have hno : proposes rt taskAttemptId event = false := by
      rw [proposes, decide_eq_false hproposed, Bool.false_and]
    have hnone : checkpointOf rt taskAttemptId event = none := by
      rw [checkpointOf, if_neg hcheckpoint]
    simp [attemptStep, hno, hnone, TaskAttemptFold.put]

theorem attempt_foldl (log : List (StoredEvent V)) (fold : TaskAttemptFold) :
    (log.foldl (attemptStep rt taskAttemptId) fold).attempt.isSome = true ↔
      fold.attempt.isSome = true ∨ ∃ event ∈ log, proposes rt taskAttemptId event = true := by
  induction log generalizing fold with
  | nil => simp
  | cons event log ih =>
    rw [foldl_cons, ih]
    cases hproposes : proposes rt taskAttemptId event <;> simp [attemptStep, hproposes]

theorem attemptFold_isSome : (attemptFold rt taskAttemptId events).attempt.isSome = true ↔
    ∃ event ∈ events, proposes rt taskAttemptId event = true := by
  rw [attemptFold, attempt_foldl]
  simp

variable {readerActorId : ActorId}

theorem taskAttemptSummaryFromEvents_eq_ok {result : Option TaskAttemptSummary} :
    taskAttemptSummaryFromEvents rt events taskAttemptId readerActorId = .ok result ↔
      AttemptRead rt taskAttemptId events ∧
        (attemptFold rt taskAttemptId events).attempt.map (fun attemptEvent =>
          let checkpoints := (attemptFold rt taskAttemptId events).checkpoints.vals.insertionSort
            checkpointLE
          { readerActorId, taskAttemptId, attemptEvent, latestCheckpoint := latestOf checkpoints,
            checkpoints }) = result := by
  simp only [taskAttemptSummaryFromEvents, bind_eq_ok, foldlM_read_eq put_eq_attemptStep,
    and_assoc, exists_and_left, exists_eq_left']
  rw [← attemptFold]
  refine and_congr_right fun _ => ?_
  cases (attemptFold rt taskAttemptId events).attempt <;> simp

theorem attemptState_eq {summary : TaskAttemptSummary}
    (h : taskAttemptSummaryFromEvents rt events taskAttemptId readerActorId = .ok (some summary)) :
    summary.attemptState = attemptStateOf rt taskAttemptId events := by
  obtain ⟨-, h⟩ := taskAttemptSummaryFromEvents_eq_ok.mp h
  obtain ⟨envelope, -, rfl⟩ := Option.map_eq_some_iff.mp h
  rfl

end Attempt

section Projection

variable (events : List (StoredEvent V)) (taskAttemptId : WorkObjectId) (reader : ResumptionReader)

def operativeRecords : List TaskInputRequestRecord :=
  (assignResponses (responsesByInputRequest (representatives rt events reader.trustSet).vals)
    (events.filterMap (taskRequestOf rt))).filter fun record => record.view.mode = .operative

variable {rt events taskAttemptId reader} {projection : AgentResumptionProjection}

theorem agentResumption_eq_ok :
    agentResumptionWithPrincipalPolicy rt events taskAttemptId reader = .ok projection ↔
      AttemptRead rt taskAttemptId events ∧
        if ∃ event ∈ events, proposes rt taskAttemptId event = true then
          InputsRead rt events taskAttemptId reader.trustSet ∧
            resumptionOver reader (attemptStateOf rt taskAttemptId events)
              (operativeRecords rt events reader) = projection
        else noAttemptProjection reader taskAttemptId = projection := by
  simp only [agentResumptionWithPrincipalPolicy, bind_eq_ok,
    taskAttemptSummaryFromEvents_eq_ok, ← attemptFold_isSome, and_assoc, exists_and_left,
    exists_eq_left']
  refine and_congr_right fun _ => ?_
  cases (attemptFold rt taskAttemptId events).attempt with
  | none => simp
  | some envelope =>
    simp only [Option.map_some, Option.isSome_some, if_true, bind_eq_ok,
      collectTaskInputRequestRecords_eq_ok, and_assoc, exists_and_left, exists_eq_left',
      Except.ok.injEq]
    rfl

variable {trustSet : TrustSet} {inputRequestId : InputRequestId}
  {record : TaskInputRequestResponseRecord}

theorem responsesTo_eq_singleton :
    responsesTo rt events trustSet inputRequestId = [record] ↔
      ∃ responseId, standsFor (answersUnder rt events trustSet responseId) =
          some (inputRequestId, record) ∧
        ∀ id other, standsFor (answersUnder rt events trustSet id) = some (inputRequestId, other) →
          id = responseId := by
  rw [responsesTo, map_eq_singleton_iff]
  simp only [BTreeMap.filter_vals_eq_singleton, get_representatives, decide_eq_true_eq,
    Prod.exists, Prod.forall]
  constructor
  · rintro ⟨_, _, ⟨responseId, hstands, rfl, honly⟩, rfl⟩
    exact ⟨responseId, hstands, fun id other hother => honly id _ other hother rfl⟩
  · rintro ⟨responseId, hstands, honly⟩
    refine ⟨_, _, ⟨responseId, hstands, rfl, ?_⟩, rfl⟩
    rintro id _ other hother rfl
    exact honly id other hother

theorem mem_responsesTo :
    record ∈ responsesTo rt events trustSet inputRequestId ↔
      ∃ id, standsFor (answersUnder rt events trustSet id) = some (inputRequestId, record) := by
  simp only [responsesTo, mem_map, mem_filter, BTreeMap.mem_vals_iff,
    get_representatives, decide_eq_true_eq]
  simp

section Names

variable (rt events trustSet)

/-- The first carrier of the response id names the request. -/
def FirstNames (id : InputRequestResponseId) (inputRequestId : InputRequestId) : Prop :=
  (answersUnder rt events trustSet id).head?.map Prod.fst = some inputRequestId

/-- One response id is first seen for the request, and this is the record of its lowest carrier. -/
structure SoleAnswer (inputRequestId : InputRequestId) (responseId : InputRequestResponseId)
    (record : TaskInputRequestResponseRecord) : Prop where
  first : FirstNames rt events trustSet responseId inputRequestId
  only : ∀ id, FirstNames rt events trustSet id inputRequestId → id = responseId
  lowest : (lowestCarrier (answersUnder rt events trustSet responseId)).map Prod.snd = some record

end Names

theorem exists_soleAnswer :
    (∃ responseId, SoleAnswer rt events trustSet inputRequestId responseId record) ↔
      responsesTo rt events trustSet inputRequestId = [record] := by
  rw [responsesTo_eq_singleton]
  refine exists_congr fun responseId => ?_
  constructor
  · intro h
    exact ⟨standsFor_eq_some.mpr ⟨h.first, h.lowest⟩,
      fun id other hother => h.only id (standsFor_eq_some.mp hother).1⟩
  · rintro ⟨hstands, honly⟩
    obtain ⟨hfirst, hlowest⟩ := standsFor_eq_some.mp hstands
    refine ⟨hfirst, fun id hid => ?_, hlowest⟩
    obtain ⟨answer, hanswer, -⟩ := Option.map_eq_some_iff.mp hid
    obtain ⟨lowest, -, hleast⟩ := lowestCarrier_isSome (ne_nil_of_mem (mem_of_head? hanswer))
    exact honly id lowest.2 (standsFor_eq_some.mpr ⟨hid, by rw [hleast]; rfl⟩)

end Projection

section More

variable {rt} {taskAttemptId : WorkObjectId} {trustSet : TrustSet}

theorem attemptFold_of_interleaves {left right whole : List (StoredEvent V)}
    (hmix : Interleaves left right whole)
    (hsilent : ∀ event ∈ right, proposes rt taskAttemptId event = false ∧
      checkpointOf rt taskAttemptId event = none) :
    attemptFold rt taskAttemptId whole = attemptFold rt taskAttemptId left := by
  refine hmix.foldl_eq (fun event hevent fold => ?_) _
  obtain ⟨hproposes, hcheckpoint⟩ := hsilent event hevent
  simp [attemptStep, hproposes, hcheckpoint]

section Congr

variable {events events' : List (StoredEvent V)} {event : StoredEvent V}
  (hsame : cosignaturesForEvent rt events event.eventId.asStr trustSet =
    cosignaturesForEvent rt events' event.eventId.asStr trustSet)
include hsame

theorem readTaskResponse_congr :
    readTaskResponse rt events trustSet event = readTaskResponse rt events' trustSet event := by
  rw [readTaskResponse, readTaskResponse, responseBindingEvidence, responseBindingEvidence, hsame]

theorem answerOf_congr : answerOf rt events trustSet event = answerOf rt events' trustSet event := by
  rw [answerOf, answerOf, readTaskResponse_congr hsame]

end Congr

theorem answersUnder_append {front back : List (StoredEvent V)}
    (hsame : ∀ event ∈ front, cosignaturesForEvent rt (front ++ back) event.eventId.asStr trustSet =
      cosignaturesForEvent rt front event.eventId.asStr trustSet)
    (responseId : InputRequestResponseId) :
    answersUnder rt (front ++ back) trustSet responseId = answersUnder rt front trustSet responseId ++
      entries (answerOf rt (front ++ back) trustSet) responseId back := by
  rw [answersUnder, entries_append]
  congr 1
  refine filterMap_congr fun event hevent => ?_
  rw [answerOf_congr (hsame event hevent)]

end More

end Pointbreak
