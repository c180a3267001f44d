import Pointbreak.Projection.ResumptionSafety

/-!
# Projection.ResumptionFrame

What an attempt has to do with the events of another. The request pass takes the requests of every
task subject, so an attempt is held up by the requests of the others; `other_attempt_apart` says
what keeps the two apart.
-/

namespace Pointbreak

open Std KeyedLog List Result

variable {inputRequestId : InputRequestId}

section Open

variable {V B : Type} (rt : StoreRuntime V B) (events : List (StoredEvent V))
  (attempt : WorkObjectId)

def respondsTo (event : StoredEvent V) : Option InputRequestId :=
  if event.eventType = .inputRequestResponded then
    (fromValue rt.inputRequestResponded event.payload).toOption.map (·.inputRequestId)
  else none

def IsAnswered (inputRequestId : InputRequestId) : Prop :=
  ∃ event ∈ events, respondsTo rt event = some inputRequestId

instance (inputRequestId : InputRequestId) : Decidable (IsAnswered rt events inputRequestId) :=
  inferInstanceAs (Decidable (∃ event ∈ events, respondsTo rt event = some inputRequestId))

def unanswered : List TaskInputRequestView :=
  (events.filterMap (taskRequestOf rt)).filter fun view => ¬ IsAnswered rt events view.inputRequestId

def openFactOf (event : StoredEvent V) : Option (TaskInputRequestView ⊕ InputRequestId) :=
  ((taskRequestOf rt event).map .inl).or ((respondsTo rt event).map .inr)

def OpenRead : Prop :=
  ∀ event ∈ events, ∃ fact, readOpenRequestEvent rt attempt event = .ok fact

variable {rt events attempt} {event : StoredEvent V}

theorem respondsTo_eq_some :
    respondsTo rt event = some inputRequestId ↔ event.eventType = .inputRequestResponded ∧
      ∃ payload, rt.inputRequestResponded event.payload = .ok payload ∧
        payload.inputRequestId = inputRequestId := by
  simp [respondsTo, toOption_eq_some]

theorem readOpenRequestEvent_eq_fact {fact : Option (TaskInputRequestView ⊕ InputRequestId)}
    (h : readOpenRequestEvent rt attempt event = .ok fact) : fact = openFactOf rt event := by
  rw [readOpenRequestEvent, bind_eq_ok] at h
  obtain ⟨_, -, h⟩ := h
  rw [openFactOf]
  split at h
  · rename_i htype
    obtain ⟨view, hview, ⟨⟩⟩ := bind_eq_ok.mp h
    obtain ⟨-, rfl⟩ := (readTaskInputRequest_eq_ok htype).mp hview
    simp [respondsTo, htype]
  · rename_i htype
    have hrequest : taskRequestOf rt event = none := by simp [taskRequestOf, htype]
    simp only [bind_eq_ok, Except.ok.injEq] at h
    obtain ⟨payload, hpayload, rfl⟩ := h
    simp [hrequest, respondsTo, htype, hpayload, Except.toOption]
  · rename_i hopened hresponded
    cases h
    rw [taskRequestOf, if_neg hopened, respondsTo, if_neg hresponded]
    rfl

def openFold (rt : StoreRuntime V B) (events : List (StoredEvent V)) : OpenRequestFold :=
  events.foldl (fun (fold : OpenRequestFold) event => fold.put (openFactOf rt event)) {}

theorem openFold_requests : (openFold rt events).requests = events.filterMap (taskRequestOf rt) := by
  refine list_foldl (fun fold : OpenRequestFold => fold.requests) _ (taskRequestOf rt) ?_ events {}
  intro fold event
  rw [openFactOf]
  cases taskRequestOf rt event with
  | some view => rfl
  | none => cases respondsTo rt event <;> simp [OpenRequestFold.put]

theorem mem_openFold_responded :
    inputRequestId ∈ (openFold rt events).responded ↔ IsAnswered rt events inputRequestId := by
  refine (mem_foldl (fun (fold : OpenRequestFold) id => id ∈ fold.responded) _ (respondsTo rt) ?_
    events {} inputRequestId).trans (or_iff_right (by simp))
  intro fold event id
  rw [openFactOf]
  cases hrequest : taskRequestOf rt event with
  | some view =>
    obtain ⟨htype, -⟩ := taskRequestOf_eq_some.mp hrequest
    simp [OpenRequestFold.put, respondsTo, htype]
  | none =>
    cases hresponds : respondsTo rt event with
    | none => simp [OpenRequestFold.put]
    | some named =>
      change id ∈ fold.responded.insert named ↔ _
      rw [BTreeSet.mem_insert_iff, or_comm, eq_comm, Option.some.injEq]

theorem openTaskInputRequests_eq_ok {readerActorId : ActorId} {listing : TaskInputRequestsProjection} :
    openTaskInputRequestsFromEvents rt events attempt readerActorId = .ok listing ↔
      OpenRead rt events attempt ∧
        { readerActorId, taskAttemptId := attempt,
          openInputRequests := (unanswered rt events).insertionSort requestViewLE,
          diagnostics := (unanswered rt events).map reviewShapedDiagnostic } = listing := by
  have hput {event} {fact : Option (TaskInputRequestView ⊕ InputRequestId)}
      (hfact : readOpenRequestEvent rt attempt event = .ok fact) (fold : OpenRequestFold) :
      fold.put fact = fold.put (openFactOf rt event) := by
    rw [readOpenRequestEvent_eq_fact hfact]
  have hunanswered : ((openFold rt events).requests.filter fun view =>
      view.inputRequestId ∉ (openFold rt events).responded) = unanswered rt events := by
    simp only [openFold_requests, mem_openFold_responded, unanswered]
  simp only [openTaskInputRequestsFromEvents, bind_eq_ok, foldlM_read_eq hput, and_assoc,
    exists_and_left, exists_eq_left', Except.ok.injEq]
  rw [← openFold, hunanswered]
  rfl

end Open

section Other

variable {V B : Type} (rt : StoreRuntime V B) (events : List (StoredEvent V))

/-- The event is one of the attempt: its proposal, a checkpoint under it, a request on it or on a
checkpoint under it, or a response that names such a request. -/
inductive BelongsTo (attempt : WorkObjectId) (event : StoredEvent V) : Prop
  | proposal (h : proposes rt attempt event = true)
  | checkpoint (h : (checkpointOf rt attempt event).isSome = true)
  | request (view : TaskInputRequestView) (h : taskRequestOf rt event = some view)
      (hof : OfAttempt rt events attempt view)
  | response (view : TaskInputRequestView) (hview : view ∈ events.filterMap (taskRequestOf rt))
      (hof : OfAttempt rt events attempt view)
      (h : respondsTo rt event = some view.inputRequestId)

/-- What keeps later events from showing in the listing: their requests are answered, and they answer
no request that was open. -/
structure ListedApart (front back : List (StoredEvent V)) : Prop where
  answered : ∀ request ∈ back.filterMap (taskRequestOf rt),
    IsAnswered rt (front ++ back) request.inputRequestId
  names : ∀ event ∈ back, ∀ request ∈ front.filterMap (taskRequestOf rt),
    respondsTo rt event = some request.inputRequestId → IsAnswered rt front request.inputRequestId

/-- Later events open an operative request that stays open: it was opened before, or no response id is
first seen for it. -/
def AddsOpen (trustSet : TrustSet) (front back : List (StoredEvent V)) : Prop :=
  ∃ before request after, back.filterMap (taskRequestOf rt) = before ++ request :: after ∧
    request.mode = .operative ∧
      (request.inputRequestId ∈ (front.filterMap (taskRequestOf rt) ++ before).map (·.inputRequestId) ∨
        ∀ id, ¬ FirstNames rt (front ++ back) trustSet id request.inputRequestId)

/-- An operative request is open; or each has one response, and the first that its response does not
satisfy has a fresh one. -/
def HeldUp (attempt : WorkObjectId) (reader : ResumptionReader) : Prop :=
  Unresponded rt events reader ∨
    ¬ Contested rt events reader ∧ FailsFirst rt events attempt reader false

/-- What keeps later events from showing in the verdict. Either a request holds the attempt up before
and after; or none was open, and they add none that is. Then either one had two responses before, or
none has two afterwards and the first failure is of the same kind. -/
inductive JudgedApart (attempt : WorkObjectId) (reader : ResumptionReader)
    (front back : List (StoredEvent V)) : Prop
  | heldUp (before : HeldUp rt front attempt reader)
      (after : HeldUp rt (front ++ back) attempt reader)
  | contested (none : ¬ Unresponded rt front reader) (adds : ¬ AddsOpen rt reader.trustSet front back)
      (before : Contested rt front reader)
  | answered (none : ¬ Unresponded rt front reader) (adds : ¬ AddsOpen rt reader.trustSet front back)
      (one : ¬ Contested rt (front ++ back) reader)
      (same : ∀ stale, FailsFirst rt front attempt reader stale ↔
        FailsFirst rt (front ++ back) attempt reader stale)

variable {rt} {front back : List (StoredEvent V)} {attempt other : WorkObjectId}
  {reader : ResumptionReader}

section Belongs

variable {event : StoredEvent V} (h : BelongsTo rt events other event)
include h

theorem BelongsTo.cases :
    (event.eventType = .workObjectProposed ∧ ∃ payload, rt.workObjectProposed event.payload =
      .ok payload ∧ payload.workObject = .taskAttempt other) ∨
    (event.eventType = .taskCheckpointCaptured ∧ ∃ payload, rt.taskCheckpointCaptured event.payload =
      .ok payload ∧ payload.parentTaskAttemptId = other) ∨
    (event.eventType = .inputRequestOpened ∧ ∃ payload,
      decodeInputRequestOpenedPayload rt.toRuntime event.payload = .ok payload) ∨
    (event.eventType = .inputRequestResponded ∧ ∃ payload,
      rt.inputRequestResponded event.payload = .ok payload) := by
  rcases h with h | h | ⟨view, h, -⟩ | ⟨view, -, -, h⟩
  · exact .inl (proposes_eq_true.mp h)
  · obtain ⟨checkpoint, h⟩ := Option.isSome_iff_exists.mp h
    obtain ⟨htype, payload, hpayload, hparent, -⟩ := checkpointOf_eq_some.mp h
    exact .inr (.inl ⟨htype, payload, hpayload, hparent⟩)
  · obtain ⟨htype, payload, target, hpayload, -⟩ := taskRequestOf_eq_some.mp h
    exact .inr (.inr (.inl ⟨htype, payload, hpayload⟩))
  · obtain ⟨htype, payload, hpayload, -⟩ := respondsTo_eq_some.mp h
    exact .inr (.inr (.inr ⟨htype, payload, hpayload⟩))

theorem BelongsTo.not_carrier : event.eventType ≠ .eventSignatureRecorded := by
  rcases h.cases with ⟨htype, -⟩ | ⟨htype, -⟩ | ⟨htype, -⟩ | ⟨htype, -⟩ <;> simp [htype]

theorem BelongsTo.silent (hne : other ≠ attempt) :
    proposes rt attempt event = false ∧ checkpointOf rt attempt event = none := by
  rcases h.cases with ⟨htype, payload, hpayload, hof⟩ | ⟨htype, payload, hpayload, hof⟩ |
    ⟨htype, -⟩ | ⟨htype, -⟩
  iterate 2
    · simp [proposes, checkpointOf, htype, fromValue_eq_ok.mpr hpayload, Except.toOption, hof, hne]
  all_goals simp [proposes, checkpointOf, htype]

variable (hschema : event.validateSchemaVersion = .ok ())
include hschema

theorem BelongsTo.attemptRead :
    ∃ fact, readTaskAttemptEvent rt attempt event = .ok fact := by
  rcases h.cases with ⟨htype, payload, hpayload, hof⟩ | ⟨htype, payload, hpayload, -⟩ |
    ⟨htype, -⟩ | ⟨htype, -⟩
  · simp [readTaskAttemptEvent, hschema, htype, hpayload, hof]
  · simp [readTaskAttemptEvent, hschema, htype, hpayload]
  all_goals simp [readTaskAttemptEvent, hschema, htype]

theorem BelongsTo.openRead : ∃ fact, readOpenRequestEvent rt attempt event = .ok fact := by
  rcases h.cases with ⟨htype, -⟩ | ⟨htype, -⟩ | ⟨htype, hdecodes⟩ | ⟨htype, payload, hpayload⟩
  iterate 2 · simp [readOpenRequestEvent, hschema, htype]
  · simp [readOpenRequestEvent, hschema, htype,
      (readTaskInputRequest_eq_ok htype).mpr ⟨hdecodes, rfl⟩]
  · simp [readOpenRequestEvent, hschema, htype, hpayload]

theorem BelongsTo.readsInput : ReadsInput rt event := by
  rcases h.cases with ⟨htype, -⟩ | ⟨htype, -⟩ | ⟨htype, hdecodes⟩ | ⟨htype, hpayload⟩
  iterate 2 · exact ⟨hschema, by simp [htype], by simp [htype]⟩
  · exact ⟨hschema, fun _ => hdecodes, by simp [htype]⟩
  · exact ⟨hschema, by simp [htype], fun _ => hpayload⟩

end Belongs

theorem IsAnswered.append (h : IsAnswered rt front inputRequestId) :
    IsAnswered rt (front ++ back) inputRequestId := by
  obtain ⟨event, hevent, hresponds⟩ := h
  exact ⟨event, mem_append_left _ hevent, hresponds⟩

theorem unanswered_append : unanswered rt (front ++ back) =
    (unanswered rt front).filter (fun view => ¬ IsAnswered rt (front ++ back) view.inputRequestId) ++
      (back.filterMap (taskRequestOf rt)).filter
        fun view => ¬ IsAnswered rt (front ++ back) view.inputRequestId := by
  rw [unanswered, filterMap_append, filter_append, unanswered, filter_filter]
  congr 1
  refine filter_congr fun view _ => ?_
  by_cases hanswered : IsAnswered rt front view.inputRequestId
  · simp [hanswered, hanswered.append]
  · simp [hanswered]

theorem ListedApart.unanswered_eq (h : ListedApart rt front back) :
    unanswered rt (front ++ back) = unanswered rt front := by
  have hadded : (back.filterMap (taskRequestOf rt)).filter (fun view =>
      ¬ IsAnswered rt (front ++ back) view.inputRequestId) = [] := by
    rw [filter_eq_nil_iff]
    intro request hrequest hopen
    exact of_decide_eq_true hopen (h.answered request hrequest)
  rw [unanswered_append, hadded, append_nil, filter_eq_self]
  intro request hrequest
  obtain ⟨hview, hopen⟩ := mem_filter.mp hrequest
  refine decide_eq_true fun ⟨event, hevent, hresponds⟩ => of_decide_eq_true hopen ?_
  rcases mem_append.mp hevent with hfront | hback
  · exact ⟨event, hfront, hresponds⟩
  · exact h.names event hback request hview hresponds

theorem listedApart_of_perm (hperm : (unanswered rt (front ++ back)).Perm (unanswered rt front)) :
    ListedApart rt front back := by
  rw [unanswered_append] at hperm
  -- what was added is what was answered, but no request is both
  have hcancel := (perm_append_left_iff _).mp
    (hperm.trans (filter_append_perm _ (unanswered rt front)).symm)
  have hmem : ∀ request, request ∈ back.filterMap (taskRequestOf rt) ∧
      ¬ IsAnswered rt (front ++ back) request.inputRequestId ↔
        request ∈ unanswered rt front ∧ IsAnswered rt (front ++ back) request.inputRequestId := by
    intro request
    simpa using hcancel.mem_iff (a := request)
  constructor
  · intro request hrequest
    by_contra hopen
    exact hopen ((hmem request).mp ⟨hrequest, hopen⟩).2
  · intro event hevent request hrequest hresponds
    by_contra hopen
    have hanswered : IsAnswered rt (front ++ back) request.inputRequestId :=
      ⟨event, mem_append_right _ hevent, hresponds⟩
    have hlost : request ∈ unanswered rt front :=
      mem_filter.mpr ⟨hrequest, decide_eq_true hopen⟩
    exact ((hmem request).mpr ⟨hlost, hanswered⟩).2 hanswered

variable {events} in
theorem FailsFirst.not_fresh (hopen : ¬ Unresponded rt events reader)
    (hone : ¬ Contested rt events reader) (h : FailsFirst rt events attempt reader true) :
    ¬ FailsFirst rt events attempt reader false := by
  rw [failsFirst_iff hopen hone] at h ⊢
  obtain ⟨record, hrecord, hstale⟩ := h
  rintro ⟨other, hother, hfresh⟩
  cases hrecord.symm.trans hother
  rw [hstale] at hfresh
  cases hfresh

variable {events} in
theorem state_blocked : (resumptionOver reader (attemptStateOf rt attempt events)
      (operativeRecords rt events reader)).state = .blocked ↔
    HeldUp rt events attempt reader := by
  rw [resumptionOver_state, HeldUp]
  by_cases hopen : Unresponded rt events reader
  · simp [hopen]
  by_cases hmany : Contested rt events reader
  · simp [hopen, hmany]
  by_cases hstale : FailsFirst rt events attempt reader true
  · simp [hopen, hmany, hstale, hstale.not_fresh hopen hmany]
  · simp [hopen, hmany, hstale]

section Append

variable (hcarriers : ∀ event ∈ back, event.eventType ≠ .eventSignatureRecorded)
include hcarriers

theorem FirstNames.append {trustSet : TrustSet} {id : InputRequestResponseId}
    (h : FirstNames rt front trustSet id inputRequestId) :
    FirstNames rt (front ++ back) trustSet id inputRequestId := by
  obtain ⟨answer, hanswer, -⟩ := mem_of_head_fst h
  rw [FirstNames, answersUnder_append fun event hevent => cosignaturesForEvent_append hcarriers hevent,
    head?_append_of_ne_nil _ (ne_nil_of_mem hanswer)]
  exact h

theorem Contested.append (h : Contested rt front reader) : Contested rt (front ++ back) reader := by
  obtain ⟨request, hrequest, hmode, id, id', hne, hid, hid'⟩ := h
  refine ⟨request, ?_, hmode, id, id', hne, hid.append hcarriers, hid'.append hcarriers⟩
  rw [filterMap_append]
  exact mem_append_left _ hrequest

theorem unresponded_append (h : ¬ Unresponded rt front reader) :
    Unresponded rt (front ++ back) reader ↔ AddsOpen rt reader.trustSet front back := by
  constructor
  · rintro ⟨before, request, after, hviews, hmode, hopen⟩
    rw [filterMap_append, append_eq_append_iff] at hviews
    rcases hviews with ⟨pre, rfl, hback⟩ | ⟨rest, hfront, hback⟩
    · exact ⟨pre, request, after, hback, hmode, hopen⟩
    · cases rest with
      | nil =>
        rw [append_nil] at hfront
        exact ⟨[], request, after, hback.symm, hmode, by rwa [append_nil, hfront]⟩
      | cons first rest =>
        -- the request is one of before, and was not open
        cases hback
        refine absurd ⟨before, _, rest, hfront, hmode, ?_⟩ h
        exact hopen.imp_right fun hnone id hid => hnone id (hid.append hcarriers)
  · rintro ⟨before, request, after, hviews, hmode, hopen⟩
    refine ⟨front.filterMap (taskRequestOf rt) ++ before, request, after, ?_, hmode, hopen⟩
    rw [filterMap_append, hviews, append_assoc]

theorem state_append :
    (resumptionOver reader (attemptStateOf rt attempt (front ++ back))
        (operativeRecords rt (front ++ back) reader)).state =
      (resumptionOver reader (attemptStateOf rt attempt front)
        (operativeRecords rt front reader)).state ↔
      JudgedApart rt attempt reader front back := by
  constructor
  · intro hsame
    by_cases hheld : HeldUp rt front attempt reader
    · rw [state_blocked.mpr hheld, state_blocked] at hsame
      exact .heldUp hheld hsame
    · have hopen : ¬ Unresponded rt front reader := fun hopen => hheld (.inl hopen)
      have hheld' : ¬ HeldUp rt (front ++ back) attempt reader := by
        rwa [← state_blocked, hsame, state_blocked]
      have hopen' : ¬ Unresponded rt (front ++ back) reader := fun hopen => hheld' (.inl hopen)
      have hadds := mt (unresponded_append hcarriers hopen).mpr hopen'
      rw [resumptionOver_state, resumptionOver_state, if_neg hopen, if_neg hopen'] at hsame
      by_cases hmany : Contested rt front reader
      · exact .contested hopen hadds hmany
      · rw [if_neg hmany] at hsame
        have hfresh : ¬ FailsFirst rt front attempt reader false :=
          fun hfails => hheld (.inr ⟨hmany, hfails⟩)
        have hmany' : ¬ Contested rt (front ++ back) reader := by
          intro hmany'
          rw [if_pos hmany', if_neg hfresh] at hsame
          split at hsame <;> cases hsame
        have hfresh' : ¬ FailsFirst rt (front ++ back) attempt reader false :=
          fun hfails => hheld' (.inr ⟨hmany', hfails⟩)
        rw [if_neg hmany', if_neg hfresh, if_neg hfresh'] at hsame
        refine .answered hopen hadds hmany' (Bool.rec ?_ ?_)
        · exact iff_of_false hfresh hfresh'
        · by_cases hstale : FailsFirst rt front attempt reader true <;>
            by_cases hstale' : FailsFirst rt (front ++ back) attempt reader true <;>
            simp_all
  · rintro (⟨hbefore, hafter⟩ | ⟨hopen, hadds, hmany⟩ | ⟨hopen, hadds, hmany', hfails⟩)
    · rw [state_blocked.mpr hbefore, state_blocked.mpr hafter]
    · have hopen' := mt (unresponded_append hcarriers hopen).mp hadds
      rw [resumptionOver_state, resumptionOver_state, if_neg hopen, if_neg hopen', if_pos hmany,
        if_pos (hmany.append hcarriers)]
    · have hopen' := mt (unresponded_append hcarriers hopen).mp hadds
      have hmany : ¬ Contested rt front reader := fun hmany => hmany' (hmany.append hcarriers)
      have hsame : FailsFirst rt front attempt reader =
          FailsFirst rt (front ++ back) attempt reader :=
        funext fun stale => propext (hfails stale)
      rw [resumptionOver_state, resumptionOver_state, if_neg hopen, if_neg hopen', if_neg hmany,
        if_neg hmany', hsame]

end Append

theorem inputsRead_append
    (hback : ∀ event ∈ back, event.validateSchemaVersion = .ok () ∧
      BelongsTo rt (front ++ back) other event)
    (h : InputsRead rt front attempt reader.trustSet) :
    InputsRead rt (front ++ back) attempt reader.trustSet ↔
      (BringsResponse back → CarriersRead rt front) := by
  have hcarriers : CarriersRead rt (front ++ back) ↔ CarriersRead rt front := by
    rw [carriersRead_iff, carriersRead_iff, build_of_interleaves (.append front back)
      fun event hevent => (hback event hevent).2.not_carrier _]
  obtain ⟨hreads, hbrings⟩ := inputsRead_iff.mp h
  have hreads' : ∀ event ∈ front ++ back, ReadsInput rt event := by
    refine forall_mem_append.mpr ⟨hreads, fun event hevent => ?_⟩
    exact (hback event hevent).2.readsInput _ (hback event hevent).1
  have hresponse : BringsResponse (front ++ back) ↔ BringsResponse front ∨ BringsResponse back := by
    simp only [BringsResponse, mem_append, or_and_right, exists_or]
  rw [inputsRead_iff, hcarriers, hresponse, or_imp]
  exact ⟨fun hall => hall.2.2, fun hlater => ⟨hreads', hbrings, hlater⟩⟩

end Other

namespace StoreRecorded

def otherId : WorkObjectId := ⟨text "task:other"⟩

def startedTask : List (StoredEvent StorePayload) :=
  [taskEvent (text "evt:1") (attempted attemptId)]

def adviceEvent : StoredEvent StorePayload :=
  { taskEvent (text "evt:3") (asked (text "C") otherId) with assertionMode := .advisory }

def advisedOther : List (StoredEvent StorePayload) :=
  [taskEvent (text "evt:2") (attempted otherId), adviceEvent,
    taskEvent (text "evt:4") (answered (text "s") (text "C") .approved)]

def askingOther : List (StoredEvent StorePayload) :=
  [taskEvent (text "evt:2") (attempted otherId), taskEvent (text "evt:3") (asked (text "C") otherId)]

theorem advisedOther_belongs : ∀ event ∈ advisedOther, event.validateSchemaVersion = .ok () ∧
    BelongsTo runtime.toStoreRuntime (startedTask ++ advisedOther) otherId event := by
  have hview : taskRequestOf runtime.toStoreRuntime adviceEvent =
      some (taskInputRequestView adviceEvent (.task (.taskAttempt otherId))
        (requestPayload (text "C") otherId)) := rfl
  intro event hevent
  simp only [advisedOther, mem_cons, not_mem_nil, or_false] at hevent
  rcases hevent with rfl | rfl | rfl
  · exact ⟨rfl, .proposal (by decide)⟩
  · exact ⟨rfl, .request _ hview rfl⟩
  · refine ⟨rfl, .response (taskInputRequestView adviceEvent (.task (.taskAttempt otherId))
      (requestPayload (text "C") otherId)) ?_ rfl rfl⟩
    exact mem_filterMap.mpr ⟨adviceEvent, by simp [advisedOther], hview⟩

theorem advisedOther_judged :
    JudgedApart runtime.toStoreRuntime attemptId localReader startedTask advisedOther := by
  have hadvice : ∀ request ∈ (startedTask ++ advisedOther).filterMap
      (taskRequestOf runtime.toStoreRuntime), request.mode ≠ .operative := by decide
  refine .answered ?_ ?_ ?_ fun stale => iff_of_false ?_ ?_
  · rintro ⟨front, request, back, hviews, -⟩
    exact append_ne_nil_of_right_ne_nil front (cons_ne_nil request back) hviews.symm
  · rintro ⟨front, request, back, hviews, hmode, -⟩
    refine hadvice request ?_ hmode
    rw [filterMap_append, hviews]
    simp
  · rintro ⟨request, hrequest, hmode, -⟩
    exact hadvice request hrequest hmode
  · rintro ⟨request, record, hfirst, -⟩
    obtain ⟨front, back, hviews, -⟩ := hfirst.reached
    exact append_ne_nil_of_right_ne_nil front (cons_ne_nil request back) hviews.symm
  · rintro ⟨request, record, hfirst, -⟩
    obtain ⟨front, back, hviews, -⟩ := hfirst.reached
    exact hadvice request (by rw [hviews]; simp) hfirst.operative

theorem startedTask_carriers : CarriersRead runtime.toStoreRuntime startedTask := by
  intro event hevent htype
  obtain rfl := mem_singleton.mp hevent
  exact absurd htype EventType.noConfusion

end StoreRecorded

end Pointbreak
