import Pointbreak.Lib.Heard
import Pointbreak.Projection.ResumptionOutline

/-!
# Projection.ResumptionOrder

The order of the events. Several events can carry one response, request, co-signature or checkpoint,
and of these the pass hears one: the first, or the last of a checkpoint. `Shows` says what the
verdict is for any way of picking the one that is heard. An order gives what its own pick shows
(`shows_heard`), and whatever a pick shows is given by some order (`shownBy_iff`).
-/

namespace Pointbreak

open Std KeyedLog Result List

/-- What several events can carry, of which one is heard. -/
inductive TaskSlot (V : Type) where
  | response (id : InputRequestResponseId)
  | request (id : InputRequestId)
  | cosignature (target : StoredEvent V) (key : Text)
  | checkpoint (id : CheckpointId)

namespace TaskSlot

variable {V : Type}

/-- Of a checkpoint the last carrier is kept. -/
def late : TaskSlot V → Bool
  | .checkpoint _ => true
  | _ => false

def eventType : TaskSlot V → EventType
  | .response _ => .inputRequestResponded
  | .request _ => .inputRequestOpened
  | .cosignature _ _ => .eventSignatureRecorded
  | .checkpoint _ => .taskCheckpointCaptured

end TaskSlot

variable {V B : Type} (rt : StoreRuntime V B) (attempt : WorkObjectId) (reader : ResumptionReader)
  (events : List (StoredEvent V)) (pick : TaskSlot V → Option (StoredEvent V))

section Slots

def responseOf (event : StoredEvent V) : Option InputRequestRespondedPayload :=
  if event.eventType = .inputRequestResponded then
    (fromValue rt.inputRequestResponded event.payload).toOption
  else none

/-- The co-signature of the target that the event carries, under its key, if it counts. -/
def cosignatureOf (target carrier : StoredEvent V) : Option (Text × CosignatureMember) :=
  ((readEntry (readCarrier rt) carrier).bind fun read =>
    if read.1 = target.eventId.asStr then some read.2 else none).bind
      (memberEntry rt target ((inlineMember rt target reader.trustSet).map Prod.fst) reader.trustSet)

def Fills (event : StoredEvent V) : TaskSlot V → Prop
  | .response id => ∃ payload, responseOf rt event = some payload ∧
      payload.inputRequestResponseId = id
  | .request id => ∃ view, taskRequestOf rt event = some view ∧ view.inputRequestId = id
  | .cosignature target key => target ∈ events ∧
      ∃ member, cosignatureOf rt reader target event = some (key, member)
  | .checkpoint id => ∃ checkpoint, checkpointOf rt attempt event = some checkpoint ∧
      checkpoint.checkpointId = id

def OneForEachId : Prop :=
  ∀ event ∈ events, ∀ other ∈ events, event.eventId.asStr = other.eventId.asStr → event = other

variable {rt attempt reader events} {event : StoredEvent V}

theorem responseOf_eq_some {payload : InputRequestRespondedPayload} :
    responseOf rt event = some payload ↔ event.eventType = .inputRequestResponded ∧
      rt.inputRequestResponded event.payload = .ok payload := by
  simp [responseOf, toOption_eq_some]

theorem cosignatureOf_eq_some {target carrier : StoredEvent V} {key : Text}
    {member : CosignatureMember} (h : cosignatureOf rt reader target carrier = some (key, member)) :
    carrier.eventType = .eventSignatureRecorded ∧ carrier.idempotencyKey = key ∧ ∃ payload,
      rt.eventSignatureRecorded carrier.payload = .ok payload ∧
        payload.targetEventId.asStr = target.eventId.asStr := by
  obtain ⟨⟨event, payload⟩, hread, hentry⟩ := Option.bind_eq_some_iff.mp h
  have hread := said_eq_some.mp hread
  rw [readEntry, Option.join_eq_some_iff, toOption_eq_some, readCarrier_eq_ok] at hread
  obtain ⟨htype, hdecodes, rfl, htarget⟩ := hread
  exact ⟨htype, (memberEntry_eq_some.mp hentry).2, payload, hdecodes, htarget.symm⟩

theorem Fills.eventType {slot : TaskSlot V}
    (h : Fills rt attempt reader events event slot) : event.eventType = slot.eventType := by
  cases slot with
  | response id =>
    obtain ⟨payload, hpayload, -⟩ := h
    exact (responseOf_eq_some.mp hpayload).1
  | request id =>
    obtain ⟨view, hview, -⟩ := h
    exact (taskRequestOf_eq_some.mp hview).1
  | cosignature target key =>
    obtain ⟨-, member, hmember⟩ := h
    exact (cosignatureOf_eq_some hmember).1
  | checkpoint id =>
    obtain ⟨checkpoint, hcheckpoint, -⟩ := h
    exact (checkpointOf_eq_some.mp hcheckpoint).1

theorem Fills.unique (hids : OneForEachId events) {slot slot' : TaskSlot V}
    (h : Fills rt attempt reader events event slot)
    (h' : Fills rt attempt reader events event slot') : slot = slot' := by
  have htype := h.eventType.symm.trans h'.eventType
  cases slot <;> cases slot' <;> cases htype
  · obtain ⟨payload, hpayload, rfl⟩ := h
    obtain ⟨payload', hpayload', rfl⟩ := h'
    cases hpayload.symm.trans hpayload'
    rfl
  · obtain ⟨view, hview, rfl⟩ := h
    obtain ⟨view', hview', rfl⟩ := h'
    cases hview.symm.trans hview'
    rfl
  · obtain ⟨hmem, member, hmember⟩ := h
    obtain ⟨hmem', member', hmember'⟩ := h'
    obtain ⟨-, rfl, payload, hpayload, htarget⟩ := cosignatureOf_eq_some hmember
    obtain ⟨-, rfl, payload', hpayload', htarget'⟩ := cosignatureOf_eq_some hmember'
    cases hpayload.symm.trans hpayload'
    rw [hids _ hmem _ hmem' (htarget.symm.trans htarget')]
  · obtain ⟨checkpoint, hcheckpoint, rfl⟩ := h
    obtain ⟨checkpoint', hcheckpoint', rfl⟩ := h'
    cases hcheckpoint.symm.trans hcheckpoint'
    rfl

end Slots

/-- The response counts for the request that the picked carrier names. -/
def Owns (id : InputRequestResponseId) (inputRequestId : InputRequestId) : Prop :=
  ∃ event payload, pick (.response id) = some event ∧ responseOf rt event = some payload ∧
    payload.inputRequestId = inputRequestId

structure OpensOperative (event : StoredEvent V) (view : TaskInputRequestView) : Prop where
  mem : event ∈ events
  opens : taskRequestOf rt event = some view
  operative : view.mode = .operative

/-- Another opening was picked, or no response counts for the request. -/
def StaysOpen (event : StoredEvent V) (view : TaskInputRequestView) : Prop :=
  pick (.request view.inputRequestId) ≠ some event ∨ ∀ id, ¬ Owns rt pick id view.inputRequestId

/-- Two responses count for the request. -/
def Contends (inputRequestId : InputRequestId) : Prop :=
  ∃ id id', id ≠ id' ∧ Owns rt pick id inputRequestId ∧ Owns rt pick id' inputRequestId

/-- A response counts for the request, and this is its carrier with the lowest event id. -/
structure RespondsTo (inputRequestId : InputRequestId) (event : StoredEvent V)
    (payload : InputRequestRespondedPayload) : Prop where
  owns : Owns rt pick payload.inputRequestResponseId inputRequestId
  mem : event ∈ events
  carries : responseOf rt event = some payload
  lowest : ∀ other ∈ events, ∀ payload', responseOf rt other = some payload' →
    payload'.inputRequestResponseId = payload.inputRequestResponseId →
    (compare event.eventId.asStr other.eventId.asStr).isLE = true

def SignedUnder (event : StoredEvent V) : Prop :=
  (∃ member ∈ inlineMember rt event reader.trustSet, member.2.status = .valid) ∨
    ∃ key carrier member, pick (.cosignature event key) = some carrier ∧
      cosignatureOf rt reader event carrier = some (key, member) ∧ member.status = .valid

def KeptUnder (checkpoint : TaskCheckpointSummary) : Prop :=
  ∃ event, pick (.checkpoint checkpoint.checkpointId) = some event ∧
    checkpointOf rt attempt event = some checkpoint

/-- The latest of the picked checkpoints, if there are any. -/
structure LatestUnder (latest : Option TaskCheckpointSummary) : Prop where
  kept : ∀ checkpoint ∈ latest, KeptUnder rt attempt pick checkpoint
  none : latest = none → ∀ checkpoint, ¬ KeptUnder rt attempt pick checkpoint
  le : ∀ checkpoint ∈ latest, ∀ other, KeptUnder rt attempt pick other →
    (stampOrder other.envelope.stamp checkpoint.envelope.stamp).isLE = true

def freshnessUnder (latest : Option TaskCheckpointSummary) (view : TaskInputRequestView)
    (payload : InputRequestRespondedPayload) : FreshnessBasis :=
  freshnessForTaskTarget view (latest.map (·.checkpointId)) (latest.bind (·.checkpointFingerprint))
    payload.targetFingerprint

/-- The response is as the resumption rule wants it. -/
structure Grants (latest : Option TaskCheckpointSummary) (view : TaskInputRequestView)
    (event : StoredEvent V) (payload : InputRequestRespondedPayload) : Prop where
  approved : payload.outcome = .approved
  operative : event.assertionMode = .operative
  binding : SignedUnder rt reader pick event ∨
    reader.bindingPolicy.permitsLocalPossession = true ∧ event.ingest = none ∧
      ((inlineMember rt event reader.trustSet).map (·.2.status)).getD
        (if event.signature.isSome then .invalid else .unsigned) ≠ .invalid
  sufficient : principalSufficient event.writer.actorId event.occurredAt reader.delegationMap
    reader.principalPolicy = true
  fresh : (freshnessUnder latest view payload).isStale = false

def NoneOpen : Prop :=
  ∀ event view, OpensOperative rt events event view → ¬ StaysOpen rt pick event view

def NoneContested : Prop :=
  ∀ event view, OpensOperative rt events event view → ¬ Contends rt pick view.inputRequestId

def AllGrant (latest : Option TaskCheckpointSummary) : Prop :=
  ∀ event view response payload, OpensOperative rt events event view →
    RespondsTo rt events pick view.inputRequestId response payload →
    Grants rt reader pick latest view response payload

/-- No response to an operative request is more recent than one to this. -/
def MostRecent (inputRequestId : InputRequestId) : Prop :=
  ∃ event view response payload, OpensOperative rt events event view ∧
    view.inputRequestId = inputRequestId ∧
    RespondsTo rt events pick inputRequestId response payload ∧
    ∀ other view' response' payload', OpensOperative rt events other view' →
      RespondsTo rt events pick view'.inputRequestId response' payload' →
      (stampOrder (response'.occurredAt, response'.eventId.asStr)
        (response.occurredAt, response.eventId.asStr)).isLE = true

/-- What the verdict is when these are the events that are heard. The earliest open request is shown;
if none is open, one with two responses; if there is none either, one whose response fails; and
otherwise the request of the most recent response. -/
inductive Shows (latest : Option TaskCheckpointSummary) : ResumptionOutline → Prop
  | opened {event view} (hopens : OpensOperative rt events event view)
      (hopen : StaysOpen rt pick event view)
      (hearliest : ∀ other view', OpensOperative rt events other view' →
        StaysOpen rt pick other view' →
        (stampOrder view.envelope.stamp view'.envelope.stamp).isLE = true) :
      Shows latest (.held (latest.map (·.checkpointId)) .blocked view.inputRequestId)
  | contested {event view} (hnone : NoneOpen rt events pick)
      (hopens : OpensOperative rt events event view)
      (hcontends : Contends rt pick view.inputRequestId) :
      Shows latest (.held (latest.map (·.checkpointId)) .ambiguous view.inputRequestId)
  | failed {event view response payload} (hnone : NoneOpen rt events pick)
      (hone : NoneContested rt events pick) (hopens : OpensOperative rt events event view)
      (hresponds : RespondsTo rt events pick view.inputRequestId response payload)
      (hfails : ¬ Grants rt reader pick latest view response payload) :
      Shows latest (.held (latest.map (·.checkpointId))
        (if (freshnessUnder latest view payload).isStale then .stale else .blocked)
        view.inputRequestId)
  | ready {selected : Option InputRequestId} (hnone : NoneOpen rt events pick)
      (hone : NoneContested rt events pick) (hgrants : AllGrant rt reader events pick latest)
      (hempty : selected = none → ∀ event view, ¬ OpensOperative rt events event view)
      (hrecent : ∀ inputRequestId ∈ selected, MostRecent rt events pick inputRequestId) :
      Shows latest { mayResume := true, state := .ready,
                      latestCheckpoint := latest.map (·.checkpointId),
                      selectedInputRequest := selected }

/-- Some way of picking shows it. -/
def ShownBy (outline : ResumptionOutline) : Prop :=
  ∃ pick latest, Picks (Fills rt attempt reader events) events pick ∧
    LatestUnder rt attempt pick latest ∧ Shows rt reader events pick latest outline

variable (log : List (StoredEvent V))

def recordIn (event : StoredEvent V) (payload : InputRequestRespondedPayload) :
    TaskInputRequestResponseRecord :=
  let cosignatures := ((CosignatureIndex.build rt log).toOption.getD ∅).cosignaturesForTarget rt event
    reader.trustSet
  { envelope := .fromEvent event, responseId := payload.inputRequestResponseId,
    outcome := payload.outcome, reason := payload.reason,
    reasonArtifactPath := payload.reasonArtifactPath, reasonByteSize := payload.reasonByteSize,
    reasonContentHash := payload.reasonContentHash,
    targetFingerprint := payload.targetFingerprint, cosignatures,
    inlineStatus := cosignatures.inlineStatus.getD
      (if event.signature.isSome then .invalid else .unsigned),
    ingested := event.ingest.isSome }

abbrev outlineIn : ResumptionOutline :=
  (resumptionOver reader (attemptStateOf rt attempt log) (operativeRecords rt log reader)).outline

abbrev latestIn : Option TaskCheckpointSummary := latestAmong (log.filterMap (checkpointOf rt attempt))

/-- The log has the events in some order, each of them once, and its inputs can be read. -/
structure IsOrder : Prop where
  perm : log.Perm events
  nodup : log.Nodup
  ids : OneForEachId log
  read : InputsRead rt log attempt reader.trustSet

/-- In this order the picked events are heard. -/
structure Hears : Prop extends IsOrder rt attempt reader events log where
  heard : heardAt (Fills rt attempt reader events) TaskSlot.late log = pick

variable {rt attempt reader events pick log} {event response target : StoredEvent V}
  {view : TaskInputRequestView} {payload : InputRequestRespondedPayload}
  {id : InputRequestResponseId} {inputRequestId : InputRequestId} {member : CosignatureMember}

theorem IsOrder.of_perm (h : IsOrder rt attempt reader events events) (hperm : log.Perm events) :
    IsOrder rt attempt reader events log where
  perm := hperm
  nodup := hperm.nodup_iff.mpr h.nodup
  ids event hevent other hother :=
    h.ids event (hperm.mem_iff.mp hevent) other (hperm.mem_iff.mp hother)
  read := by
    have hread := h.read
    simp only [inputsRead_iff, BringsResponse, CarriersRead, hperm.mem_iff] at hread ⊢
    exact hread

theorem Hears.picks (h : Hears rt attempt reader events pick log) :
    Picks (Fills rt attempt reader events) events pick :=
  h.heard ▸ picks_heard.perm h.perm

section Responses

variable (h : Hears rt attempt reader events pick log)
include h

theorem answerOf_eq (hevent : event ∈ log) : answerOf rt log reader.trustSet event =
    (responseOf rt event).map fun payload =>
      (payload.inputRequestResponseId, payload.inputRequestId, recordIn rt reader log event payload) := by
  rw [answerOf, responseOf]
  by_cases htype : event.eventType = .inputRequestResponded
  swap
  · rw [if_neg htype, if_neg htype, Option.map_none]
  rw [if_pos htype, if_pos htype, readTaskResponse]
  cases hpayload : fromValue rt.inputRequestResponded event.payload with
  | error e => rfl
  | ok payload =>
    obtain ⟨index, hindex⟩ := carriersRead_iff.mp ((inputsRead_iff.mp h.read).2 ⟨event, hevent, htype⟩)
    obtain ⟨target, htarget, hsame, hevidence⟩ :=
      responseBindingEvidence_eq reader.trustSet hindex hevent
    obtain rfl := h.ids target htarget event hevent hsame
    simp only [hevidence, recordIn, hindex]
    rfl

theorem answerOf_iff
    {answer : InputRequestId × TaskInputRequestResponseRecord} (hevent : event ∈ log) :
    answerOf rt log reader.trustSet event = some (id, answer) ↔ ∃ payload,
      responseOf rt event = some payload ∧ payload.inputRequestResponseId = id ∧
        (payload.inputRequestId, recordIn rt reader log event payload) = answer := by
  rw [answerOf_eq h hevent, Option.map_eq_some_iff]
  simp only [Prod.ext_iff]

theorem firstNames_iff :
    FirstNames rt log reader.trustSet id inputRequestId ↔ Owns rt pick id inputRequestId := by
  have hslot : ∀ event ∈ log, (Fills rt attempt reader events event (.response id) ↔
      ∃ answer, answerOf rt log reader.trustSet event = some (id, answer)) := by
    intro event hevent
    simp [answerOf_iff h hevent, Fills]
  have hheard := fun answer => head?_entries (v := answer) hslot
    (show TaskSlot.late (.response id : TaskSlot V) = false from rfl)
  simp only [FirstNames, answersUnder, Option.map_eq_some_iff, hheard, h.heard, Owns]
  constructor
  · rintro ⟨answer, ⟨event, hpick, hanswer⟩, rfl⟩
    obtain ⟨payload, hpayload, -, rfl⟩ :=
      (answerOf_iff h (h.perm.mem_iff.mpr (h.picks.mem hpick).1)).mp hanswer
    exact ⟨event, payload, hpick, hpayload, rfl⟩
  · rintro ⟨event, payload, hpick, hpayload, rfl⟩
    obtain ⟨hevent, payload', hpayload', hid⟩ := h.picks.mem hpick
    cases hpayload.symm.trans hpayload'
    exact ⟨_, ⟨event, hpick, (answerOf_iff h (h.perm.mem_iff.mpr hevent)).mpr
      ⟨payload, hpayload, hid, rfl⟩⟩, rfl⟩

theorem lowestRecord_iff {record : TaskInputRequestResponseRecord} :
    (lowestCarrier (answersUnder rt log reader.trustSet id)).map Prod.snd = some record ↔
      ∃ event ∈ log, ∃ payload, responseOf rt event = some payload ∧
        payload.inputRequestResponseId = id ∧ recordIn rt reader log event payload = record ∧
        ∀ other ∈ log, ∀ payload', responseOf rt other = some payload' →
          payload'.inputRequestResponseId = id →
          (compare event.eventId.asStr other.eventId.asStr).isLE = true := by
  have hmem : ∀ answer, answer ∈ answersUnder rt log reader.trustSet id ↔ ∃ event ∈ log, ∃ payload,
      responseOf rt event = some payload ∧ payload.inputRequestResponseId = id ∧
        (payload.inputRequestId, recordIn rt reader log event payload) = answer := by
    intro answer
    rw [answersUnder, mem_entries]
    exact exists_congr fun event => and_congr_right fun hevent => answerOf_iff h hevent
  constructor
  · intro hsome
    obtain ⟨lowest, hlowest, rfl⟩ := Option.map_eq_some_iff.mp hsome
    obtain ⟨event, hevent, payload, hpayload, hid, rfl⟩ := (hmem lowest).mp (leastBy_mem hlowest)
    refine ⟨event, hevent, payload, hpayload, hid, rfl, fun other hother payload' hpayload' hid' => ?_⟩
    exact leastBy_le hlowest ((hmem _).mpr ⟨other, hother, payload', hpayload', hid', rfl⟩)
  · rintro ⟨event, hevent, payload, hpayload, hid, rfl, hleast⟩
    have hin := (hmem _).mpr ⟨event, hevent, payload, hpayload, hid, rfl⟩
    obtain ⟨lowest, hlowest, hsome⟩ := lowestCarrier_isSome (ne_nil_of_mem hin)
    obtain ⟨event', hevent', payload', hpayload', hid', rfl⟩ := (hmem lowest).mp hlowest
    have hle : (compare event'.eventId.asStr event.eventId.asStr).isLE = true := leastBy_le hsome hin
    obtain rfl := h.ids event' hevent' event hevent (LawfulEqCmp.eq_of_compare
      (OrientedCmp.isLE_antisymm hle (hleast event' hevent' payload' hpayload' hid')))
    cases hpayload.symm.trans hpayload'
    rw [hsome]
    rfl

end Responses

theorem inlineMember_source {trust : TrustSet}
    {entry : Text × CosignatureMember} (h : inlineMember rt target trust = some entry) :
    entry.2.source = .inline := by
  obtain ⟨signature, -, hsigner⟩ := Option.bind_eq_some_iff.mp h
  obtain ⟨signer, -, ⟨⟩⟩ := Option.bind_eq_some_iff.mp hsigner
  rfl

theorem detachedMember_source {inlineKey : Option Text} {trust : TrustSet}
    {carrier : DetachedCarrier V}
    (h : detachedMember rt target inlineKey trust carrier = some member) :
    member.source = .detached carrier.event.eventId.asStr := by
  obtain ⟨status, -, -, rfl⟩ := detachedMember_eq_some.mp h
  rfl

section Evidence

variable {index : CosignatureIndex V} {inlineKey : Option Text} {trust : TrustSet}
  (hindex : CosignatureIndex.build rt log = .ok index)
include hindex

theorem mem_detached :
    member ∈ (detachedMembers rt (index[target.eventId.asStr]?.getD []) target inlineKey trust).vals ↔
      ∃ key, (entries (memberEntry rt target inlineKey trust) key
        (carriersOf rt log target.eventId.asStr)).head? = some member := by
  have hcarriers : index[target.eventId.asStr]?.getD [] =
      carriersOf rt log target.eventId.asStr := getD_groupM hindex _
  rw [BTreeMap.mem_vals_iff]
  simp only [get_detachedMembers, hcarriers]

theorem inlineStatus_eq : (index.cosignaturesForTarget rt target trust).inlineStatus =
      (inlineMember rt target trust).map (·.2.status) := by
  rw [CosignatureSet.inlineStatus, CosignatureIndex.cosignaturesForTarget]
  cases hinline : inlineMember rt target trust with
  | some entry => simp [inlineMember_source hinline]
  | none =>
    have hnone : (detachedMembers rt (index[target.eventId.asStr]?.getD []) target none trust).vals.find?
        (fun member => member.source = .inline) = none := by
      rw [find?_eq_none]
      intro member hmember hsource
      obtain ⟨key, hkey⟩ := (mem_detached hindex).mp hmember
      obtain ⟨carrier, -, hentry⟩ := mem_entries.mp (mem_of_head? hkey)
      rw [detachedMember_source (memberEntry_eq_some.mp hentry).1] at hsource
      exact absurd (of_decide_eq_true hsource) CosignatureSource.noConfusion
    simpa using hnone

theorem hasValidMember_iff (h : Hears rt attempt reader events pick log) (hevent : event ∈ events) :
    (index.cosignaturesForTarget rt event reader.trustSet).hasValidMember = true ↔
      SignedUnder rt reader pick event := by
  have hheard : ∀ key member, (entries (memberEntry rt event
      ((inlineMember rt event reader.trustSet).map Prod.fst) reader.trustSet) key
        (carriersOf rt log event.eventId.asStr)).head? = some member ↔ ∃ carrier,
          pick (.cosignature event key) = some carrier ∧
            cosignatureOf rt reader event carrier = some (key, member) := by
    intro key member
    have hread : entries _ key (carriersOf rt log event.eventId.asStr) =
        entries (cosignatureOf rt reader event) key log := entries_filterMap _ _
    rw [← h.heard, hread]
    refine head?_entries (fun carrier _ => ?_) rfl
    simp only [Fills, hevent, true_and]
  simp only [CosignatureIndex.cosignaturesForTarget, CosignatureSet.hasValidMember, any_append,
    Bool.or_eq_true, any_eq_true, mem_detached hindex, hheard, decide_eq_true_eq, SignedUnder]
  refine or_congr ?_ ⟨?_, ?_⟩
  · simp only [Option.mem_toList, Option.map_eq_some_iff, Option.mem_def]
    constructor
    · rintro ⟨member, ⟨entry, hentry, rfl⟩, hvalid⟩
      exact ⟨entry, hentry, hvalid⟩
    · rintro ⟨entry, hentry, hvalid⟩
      exact ⟨entry.2, ⟨entry, hentry, rfl⟩, hvalid⟩
  · rintro ⟨member, ⟨key, carrier, hpick, hmember⟩, hvalid⟩
    exact ⟨key, carrier, member, hpick, hmember, hvalid⟩
  · rintro ⟨key, carrier, member, hpick, hmember, hvalid⟩
    exact ⟨member, ⟨key, carrier, hpick, hmember⟩, hvalid⟩

end Evidence

section Checkpoints

theorem keptUnder_iff (h : Hears rt attempt reader events pick log)
    {checkpoint : TaskCheckpointSummary} : KeptUnder rt attempt pick checkpoint ↔
      (lastCheckpoints (log.filterMap (checkpointOf rt attempt)))[checkpoint.checkpointId]? =
        some checkpoint := by
  have hkept : ∀ event id other, ((checkpointOf rt attempt event).bind fun other =>
      some (other.checkpointId, other)) = some (id, other) ↔
        checkpointOf rt attempt event = some other ∧ other.checkpointId = id := by
    intro event id other
    cases checkpointOf rt attempt event with
    | none => simp
    | some kept => simpa [and_comm] using fun hkept => by rw [hkept]
  have hslot : ∀ event ∈ log, (Fills rt attempt reader events event
      (.checkpoint checkpoint.checkpointId) ↔ ∃ other, ((checkpointOf rt attempt event).bind
        fun other => some (other.checkpointId, other)) = some (checkpoint.checkpointId, other)) := by
    intro event _
    simp only [Fills, hkept]
  have hheard := getLast?_entries (v := checkpoint) hslot
    (show TaskSlot.late (.checkpoint checkpoint.checkpointId : TaskSlot V) = true from rfl)
  rw [get_lastCheckpoints, ← entries_some TaskCheckpointSummary.checkpointId, entries_filterMap,
    hheard, h.heard]
  simp only [KeptUnder, hkept, and_true]

theorem latestUnder_latestIn (h : Hears rt attempt reader events pick log) :
    LatestUnder rt attempt pick (latestIn rt attempt log) where
  kept checkpoint hlatest := (keptUnder_iff h).mpr (latestAmong_spec hlatest).1
  none hlatest checkpoint hkept := by
    rw [latestAmong_eq_none] at hlatest
    have hin := (of_get_lastCheckpoints ((keptUnder_iff h).mp hkept)).1
    rw [hlatest] at hin
    cases hin
  le checkpoint hlatest other hkept := (latestAmong_spec hlatest).2 _ other ((keptUnder_iff h).mp hkept)

theorem checkpointOf_envelope {checkpoint : TaskCheckpointSummary}
    (h : checkpointOf rt attempt event = some checkpoint) :
    checkpoint.envelope = .fromEvent event := by
  obtain ⟨-, payload, -, -, rfl⟩ := checkpointOf_eq_some.mp h
  rfl

theorem LatestUnder.unique (hids : OneForEachId events)
    (hpick : Picks (Fills rt attempt reader events) events pick)
    {latest latest' : Option TaskCheckpointSummary} (h : LatestUnder rt attempt pick latest)
    (h' : LatestUnder rt attempt pick latest') : latest = latest' := by
  cases latest with
  | none =>
    cases latest' with
    | none => rfl
    | some checkpoint => exact absurd (h'.kept _ rfl) (h.none rfl checkpoint)
  | some checkpoint =>
    cases latest' with
    | none => exact absurd (h.kept _ rfl) (h'.none rfl checkpoint)
    | some checkpoint' =>
      have hstamp := LawfulEqCmp.eq_of_compare (OrientedCmp.isLE_antisymm
        (h'.le _ rfl _ (h.kept _ rfl)) (h.le _ rfl _ (h'.kept _ rfl)))
      obtain ⟨event, hevent, hcheckpoint⟩ := h.kept _ rfl
      obtain ⟨event', hevent', hcheckpoint'⟩ := h'.kept _ rfl
      rw [checkpointOf_envelope hcheckpoint, checkpointOf_envelope hcheckpoint'] at hstamp
      obtain rfl := hids event (hpick.mem hevent).1 event' (hpick.mem hevent').1
        (Prod.mk.inj hstamp).2
      rw [← hcheckpoint, ← hcheckpoint']

theorem attemptStateOf_eq (log : List (StoredEvent V)) : attemptStateOf rt attempt log =
    { taskAttemptId := attempt, latestCheckpoint := (latestIn rt attempt log).map (·.checkpointId),
      latestCheckpointFingerprint := (latestIn rt attempt log).bind (·.checkpointFingerprint) } := by
  rw [attemptStateOf, attemptFold_checkpoints]
  rfl

theorem latestCheckpoint_eq : (attemptStateOf rt attempt log).latestCheckpoint =
    (latestIn rt attempt log).map (·.checkpointId) := by
  rw [attemptStateOf_eq]

end Checkpoints

theorem taskRequestOf_envelope
    (h : taskRequestOf rt event = some view) : view.envelope = .fromEvent event := by
  obtain ⟨-, payload, target, -, -, rfl⟩ := taskRequestOf_eq_some.mp h
  rfl

theorem heard_opening {front back : List (StoredEvent V)}
    (hnew : event ∉ front) (hview : taskRequestOf rt event = some view) :
    heardAt (Fills rt attempt reader events) TaskSlot.late (front ++ event :: back)
        (.request view.inputRequestId) = some event ↔
      view.inputRequestId ∉ (front.filterMap (taskRequestOf rt)).map (·.inputRequestId) := by
  rw [heard_append_cons rfl hnew ⟨view, hview, rfl⟩]
  simp only [mem_map, mem_filterMap, Fills]
  constructor
  · rintro h ⟨view', ⟨other, hother, hview'⟩, hid⟩
    exact h other hother ⟨view', hview', hid⟩
  · rintro h other hother ⟨view', hview', hid⟩
    exact h ⟨view', ⟨other, hother, hview'⟩, hid⟩

section Records

variable (h : Hears rt attempt reader events pick log) {record : TaskInputRequestRecord}
include h

theorem satisfies_iff_grants (hevent : event ∈ log)
    (hpayload : responseOf rt event = some payload) :
    Satisfies reader (attemptStateOf rt attempt log) view (recordIn rt reader log event payload) ↔
      Grants rt reader pick (latestIn rt attempt log) view event payload := by
  obtain ⟨index, hindex⟩ := carriersRead_iff.mp
    ((inputsRead_iff.mp h.read).2 ⟨event, hevent, (responseOf_eq_some.mp hpayload).1⟩)
  have hbinding : reader.identityBinding (recordIn rt reader log event payload) = true ↔
      SignedUnder rt reader pick event ∨
        reader.bindingPolicy.permitsLocalPossession = true ∧ event.ingest = none ∧
          ((inlineMember rt event reader.trustSet).map (·.2.status)).getD
            (if event.signature.isSome then .invalid else .unsigned) ≠ .invalid := by
    rw [← hasValidMember_iff hindex h (h.perm.mem_iff.mp hevent), ResumptionReader.identityBinding,
      responseIdentityIsBinding]
    simp only [recordIn, hindex, Except.toOption, Option.getD_some, inlineStatus_eq hindex]
    split
    · rename_i hvalid
      simp [hvalid]
    · rename_i hvalid
      simp [hvalid, and_assoc]
  have hfresh : (attemptStateOf rt attempt log).freshness view (recordIn rt reader log event payload) =
      freshnessUnder (latestIn rt attempt log) view payload := by
    rw [attemptStateOf_eq]
    rfl
  constructor
  · intro hok
    exact ⟨hok.approved, hok.operative, hbinding.mp hok.binding, hok.sufficient, hfresh ▸ hok.fresh⟩
  · intro hok
    exact ⟨hok.approved, hok.operative, hbinding.mpr hok.binding, hok.sufficient, hfresh ▸ hok.fresh⟩

theorem mem_openRecords :
    record ∈ (operativeRecords rt log reader).filter (fun record => record.responses.isEmpty) ↔
      record.responses = [] ∧ ∃ event, OpensOperative rt events event record.view ∧
        StaysOpen rt pick event record.view := by
  rw [List.mem_filter, mem_operativeRecords, List.isEmpty_iff, and_comm]
  refine and_congr_right fun hnil => ?_
  rw [hnil]
  have hopen : (∀ id, ¬ Owns rt pick id record.view.inputRequestId) ↔
      responsesTo rt log reader.trustSet record.view.inputRequestId = [] := by
    rw [responsesTo_eq_nil]
    exact forall_congr' fun id => not_congr (firstNames_iff h).symm
  constructor
  · rintro ⟨hmode, views, views', hviews, hresponses⟩
    obtain ⟨front, rest, rfl, rfl, hrest⟩ := filterMap_eq_append_iff.mp hviews
    obtain ⟨between, event, back, rfl, hsilent, hview, -⟩ := filterMap_eq_cons_iff.mp hrest
    rw [← append_assoc] at h hopen hresponses
    refine ⟨event, ⟨h.perm.mem_iff.mp (by simp), hview, hmode⟩, ?_⟩
    have hnew : event ∉ front ++ between := fun hmem =>
      disjoint_of_nodup_append h.nodup hmem mem_cons_self
    have hsame : (front ++ between).filterMap (taskRequestOf rt) =
        front.filterMap (taskRequestOf rt) := by
      rw [filterMap_append, filterMap_eq_nil_iff.mpr hsilent, append_nil]
    by_cases hearlier : record.view.inputRequestId ∈
        (front.filterMap (taskRequestOf rt)).map (·.inputRequestId)
    · rw [StaysOpen, ← h.heard]
      refine .inl (mt (heard_opening hnew hview).mp ?_)
      rw [hsame]
      exact not_not.mpr hearlier
    · rw [if_neg hearlier] at hresponses
      exact .inr (hopen.mpr hresponses.symm)
  · rintro ⟨event, hopens, hstays⟩
    obtain ⟨front, back, rfl⟩ := append_of_mem (h.perm.mem_iff.mpr hopens.mem)
    refine ⟨hopens.operative, front.filterMap (taskRequestOf rt), back.filterMap (taskRequestOf rt),
      by rw [filterMap_append, filterMap_cons_some hopens.opens], ?_⟩
    have hnew : event ∉ front := fun hmem =>
      disjoint_of_nodup_append h.nodup hmem mem_cons_self
    by_cases hearlier : record.view.inputRequestId ∈
        (front.filterMap (taskRequestOf rt)).map (·.inputRequestId)
    · rw [if_pos hearlier]
    · rw [if_neg hearlier]
      refine (hopen.mp (hstays.resolve_left fun hne => hne ?_)).symm
      rw [← h.heard]
      exact (heard_opening hnew hopens.opens).mpr hearlier

theorem noneOpen_iff : NoneOpen rt events pick ↔ ¬ Unresponded rt log reader := by
  rw [iff_not_comm]
  simp only [← exists_open_iff, NoneOpen, not_forall, not_not, exists_prop]
  constructor
  · rintro ⟨record, hrecord, hnil⟩
    obtain ⟨-, event, hopens, hstays⟩ := (mem_openRecords h).mp
      (List.mem_filter.mpr ⟨hrecord, List.isEmpty_iff.mpr hnil⟩)
    exact ⟨event, record.view, hopens, hstays⟩
  · rintro ⟨event, view, hopens, hstays⟩
    have hin : ({ view, responses := [] } : TaskInputRequestRecord) ∈ _ :=
      (mem_openRecords h).mpr ⟨rfl, event, hopens, hstays⟩
    exact ⟨_, mem_of_mem_filter hin, rfl⟩

theorem mem_views : view ∈ log.filterMap (taskRequestOf rt) ∧ view.mode = .operative ↔
      ∃ event, OpensOperative rt events event view := by
  rw [mem_filterMap]
  constructor
  · rintro ⟨⟨event, hevent, hview⟩, hmode⟩
    exact ⟨event, h.perm.mem_iff.mp hevent, hview, hmode⟩
  · rintro ⟨event, hopens⟩
    exact ⟨⟨event, h.perm.mem_iff.mpr hopens.mem, hopens.opens⟩, hopens.operative⟩

theorem contends_iff : Contends rt pick inputRequestId ↔
    1 < (responsesTo rt log reader.trustSet inputRequestId).length := by
  rw [one_lt_responsesTo, Contends]
  refine exists₂_congr fun id id' => and_congr_right fun _ => ?_
  rw [firstNames_iff h, firstNames_iff h]

theorem noneContested_iff : NoneContested rt events pick ↔ ¬ Contested rt log reader := by
  rw [iff_not_comm]
  simp only [Contested, ← one_lt_responsesTo, NoneContested, not_forall, not_not, exists_prop]
  constructor
  · rintro ⟨view, hview, hmode, hmany⟩
    obtain ⟨event, hopens⟩ := (mem_views h).mp ⟨hview, hmode⟩
    exact ⟨event, view, hopens, (contends_iff h).mpr hmany⟩
  · rintro ⟨event, view, hopens, hcontends⟩
    obtain ⟨hview, hmode⟩ := (mem_views h).mpr ⟨event, hopens⟩
    exact ⟨view, hview, hmode, (contends_iff h).mp hcontends⟩

theorem RespondsTo.responsesTo_eq (hone : ¬ Contends rt pick inputRequestId)
    (hresponds : RespondsTo rt events pick inputRequestId event payload) :
    responsesTo rt log reader.trustSet inputRequestId = [recordIn rt reader log event payload] := by
  refine exists_soleAnswer.mp ⟨payload.inputRequestResponseId, ?_, fun id hid => ?_, ?_⟩
  · exact (firstNames_iff h).mpr hresponds.owns
  · by_contra hne
    exact hone ⟨id, _, hne, (firstNames_iff h).mp hid, hresponds.owns⟩
  · refine (lowestRecord_iff h).mpr ⟨event, h.perm.mem_iff.mpr hresponds.mem, payload,
      hresponds.carries, rfl, rfl, fun other hother => hresponds.lowest other (h.perm.mem_iff.mp hother)⟩

theorem exists_respondsTo {record : TaskInputRequestResponseRecord}
    (hone : responsesTo rt log reader.trustSet inputRequestId = [record]) :
    ∃ event payload, RespondsTo rt events pick inputRequestId event payload ∧
      recordIn rt reader log event payload = record := by
  obtain ⟨id, hanswered⟩ := exists_soleAnswer.mpr hone
  obtain ⟨event, hevent, payload, hcarries, rfl, rfl, hlowest⟩ :=
    (lowestRecord_iff h).mp hanswered.lowest
  exact ⟨event, payload, ⟨(firstNames_iff h).mp hanswered.first, h.perm.mem_iff.mp hevent,
    hcarries, fun other hother => hlowest other (h.perm.mem_iff.mpr hother)⟩, rfl⟩

theorem fails_iff_not_grants
    (hresponds : RespondsTo rt events pick record.view.inputRequestId response payload)
    (hresponses : record.responses = [recordIn rt reader log response payload]) :
    fails reader (attemptStateOf rt attempt log) record = true ↔
      ¬ Grants rt reader pick (latestIn rt attempt log) record.view response payload := by
  obtain ⟨view, responses⟩ := record
  subst hresponses
  rw [fails_iff, satisfies_iff_grants h (h.perm.mem_iff.mpr hresponds.mem) hresponds.carries]

section Single

variable (hnone : NoneOpen rt events pick) (hone : NoneContested rt events pick)
include hnone hone

theorem exists_response (hopens : OpensOperative rt events event view) :
    ∃ response payload, RespondsTo rt events pick view.inputRequestId response payload ∧
      responsesTo rt log reader.trustSet view.inputRequestId =
        [recordIn rt reader log response payload] := by
  obtain ⟨hview, hmode⟩ := (mem_views h).mpr ⟨event, hopens⟩
  obtain ⟨record, hrecord⟩ := exists_answer ((noneOpen_iff h).mp hnone)
    ((noneContested_iff h).mp hone) hview hmode
  obtain ⟨response, payload, hresponds, rfl⟩ := exists_respondsTo h hrecord
  exact ⟨response, payload, hresponds, hrecord⟩

theorem mem_records : record ∈ operativeRecords rt log reader ↔
    ∃ event response payload, OpensOperative rt events event record.view ∧
      RespondsTo rt events pick record.view.inputRequestId response payload ∧
        record.responses = [recordIn rt reader log response payload] := by
  rw [operativeRecords_eq ((noneOpen_iff h).mp hnone), mem_map]
  constructor
  · rintro ⟨view, hview, rfl⟩
    obtain ⟨hview, hmode⟩ := List.mem_filter.mp hview
    obtain ⟨event, hopens⟩ := (mem_views h).mp ⟨hview, of_decide_eq_true hmode⟩
    obtain ⟨response, payload, hresponds, hrecord⟩ := exists_response h hnone hone hopens
    exact ⟨event, response, payload, hopens, hresponds, hrecord⟩
  · rintro ⟨event, response, payload, hopens, hresponds, hresponses⟩
    obtain ⟨hview, hmode⟩ := (mem_views h).mpr ⟨event, hopens⟩
    refine ⟨record.view, List.mem_filter.mpr ⟨hview, decide_eq_true hmode⟩, ?_⟩
    rw [hresponds.responsesTo_eq h (hone _ _ hopens), ← hresponses]

theorem outlineIn_single : outlineIn rt attempt reader log =
    (evaluateAnswered reader (attemptStateOf rt attempt log) none []
      (operativeRecords rt log reader)).outline := by
  have hopen := (noneOpen_iff h).mp hnone
  rw [outlineIn, resumptionOver_single (answered_of_not_unresponded hopen)
    (single_of_not_contested hopen ((noneContested_iff h).mp hone))]

theorem shows_failed
    (hfind : (operativeRecords rt log reader).find? (fails reader (attemptStateOf rt attempt log)) =
      some record) :
    Shows rt reader events pick (latestIn rt attempt log) (outlineIn rt attempt reader log) := by
  obtain ⟨event, response, payload, hopens, hresponds, hresponses⟩ :=
    (mem_records h hnone hone).mp (mem_of_find?_eq_some hfind)
  have hstale : isStale (attemptStateOf rt attempt log) record =
      (freshnessUnder (latestIn rt attempt log) record.view payload).isStale := by
    rw [isStale, hresponses, attemptStateOf_eq]
    rfl
  have hfails := (fails_iff_not_grants h hresponds hresponses).mp (find?_some hfind)
  rw [outlineIn_single h hnone hone, evaluateAnswered_outline, hfind]
  simp only [hstale, latestCheckpoint_eq]
  exact .failed hnone hone hopens hresponds hfails

/-- A response that counts is among the satisfied ones, with its stamp. -/
theorem exists_satisfied (hopens : OpensOperative rt events event view)
    (hresponds : RespondsTo rt events pick view.inputRequestId response payload) :
    ∃ satisfied ∈ (operativeRecords rt log reader).filterMap
        (satisfiedRequest reader (attemptStateOf rt attempt log)),
      satisfied.response.envelope.stamp = (response.occurredAt, response.eventId.asStr) := by
  refine ⟨_, mem_filterMap.mpr ⟨{ view, responses := _ }, (mem_records h hnone hone).mpr
    ⟨event, response, payload, hopens, hresponds, rfl⟩, rfl⟩, rfl⟩

theorem shows_ready (hfind : (operativeRecords rt log reader).find?
      (fails reader (attemptStateOf rt attempt log)) = none) :
    Shows rt reader events pick (latestIn rt attempt log) (outlineIn rt attempt reader log) := by
  rw [outlineIn_single h hnone hone, evaluateAnswered_outline, hfind]
  rw [find?_eq_none] at hfind
  simp only [foldl_keepMostRecent, latestCheckpoint_eq]
  refine .ready hnone hone ?_ ?_ ?_
  · intro event view response payload hopens hresponds
    have hin : { view, responses := [recordIn rt reader log response payload] } ∈
        operativeRecords rt log reader :=
      (mem_records h hnone hone).mpr ⟨event, response, payload, hopens, hresponds, rfl⟩
    exact not_not.mp fun hfails =>
      hfind _ hin ((fails_iff_not_grants h hresponds rfl).mpr hfails)
  · intro hempty event view hopens
    rw [Option.map_eq_none_iff, leastBy_eq_none] at hempty
    obtain ⟨response, payload, hresponds, -⟩ := exists_response h hnone hone hopens
    obtain ⟨satisfied, hin, -⟩ := exists_satisfied h hnone hone hopens hresponds
    rw [hempty] at hin
    cases hin
  · intro inputRequestId hselected
    obtain ⟨satisfied, hleast, rfl⟩ := Option.map_eq_some_iff.mp hselected
    obtain ⟨record, hrecord, hsome⟩ := mem_filterMap.mp (leastBy_mem hleast)
    obtain ⟨event, response, payload, hopens, hresponds, hresponses⟩ :=
      (mem_records h hnone hone).mp hrecord
    rw [satisfiedRequest, hresponses, head?_cons, Option.map_some, Option.some.injEq] at hsome
    subst hsome
    refine ⟨event, record.view, response, payload, hopens, rfl, hresponds, ?_⟩
    intro other view' response' payload' hopens' hresponds'
    obtain ⟨satisfied', hin, hstamp⟩ := exists_satisfied h hnone hone hopens' hresponds'
    rw [← hstamp]
    exact leastBy_le hleast hin

end Single

theorem shows_opened (hopen : ¬ NoneOpen rt events pick) :
    Shows rt reader events pick (latestIn rt attempt log) (outlineIn rt attempt reader log) := by
  have hunresponded := not_not.mp (mt (noneOpen_iff h).mpr hopen)
  obtain ⟨earliest, hearliest⟩ := exists_earliest (exists_open_iff.mpr hunresponded)
  rw [outlineIn, resumptionOver_open hearliest, latestCheckpoint_eq]
  rw [earliestRecord_eq] at hearliest
  obtain ⟨-, event, hopens, hstays⟩ := (mem_openRecords h).mp (leastBy_mem hearliest)
  refine .opened hopens hstays fun other view' hopens' hstays' => ?_
  have hin : ({ view := view', responses := [] } : TaskInputRequestRecord) ∈ _ :=
    (mem_openRecords h).mpr ⟨rfl, other, hopens', hstays'⟩
  exact leastBy_le hearliest hin

theorem shows_contested (hnone : NoneOpen rt events pick) (hmany : ¬ NoneContested rt events pick) :
    Shows rt reader events pick (latestIn rt attempt log) (outlineIn rt attempt reader log) := by
  have hopen := (noneOpen_iff h).mp hnone
  have hcontested := not_not.mp (mt (noneContested_iff h).mpr hmany)
  obtain ⟨many, hmany⟩ := exists_first_many ((exists_many_iff hopen).mpr hcontested)
  rw [outlineIn, resumptionOver_many (answered_of_not_unresponded hopen) hmany, latestCheckpoint_eq]
  have hin := mem_of_find?_eq_some hmany
  rw [operativeRecords_eq hopen, mem_map] at hin
  obtain ⟨view, hview, rfl⟩ := hin
  obtain ⟨hview, hmode⟩ := List.mem_filter.mp hview
  obtain ⟨event, hopens⟩ := (mem_views h).mp ⟨hview, of_decide_eq_true hmode⟩
  exact .contested hnone hopens ((contends_iff h).mpr (by simpa using find?_some hmany))

theorem shows_heard :
    Shows rt reader events pick (latestIn rt attempt log) (outlineIn rt attempt reader log) := by
  by_cases hnone : NoneOpen rt events pick
  · by_cases hone : NoneContested rt events pick
    · cases hfind : (operativeRecords rt log reader).find?
        (fails reader (attemptStateOf rt attempt log)) with
      | some record => exact shows_failed h hnone hone hfind
      | none => exact shows_ready h hnone hone hfind
    · exact shows_contested h hnone hone
  · exact shows_opened h hnone

section Lead

variable (hhead : log.head? = some event)
  (hopens : OpensOperative rt events event view) (hnone : NoneOpen rt events pick)
include hhead hopens hnone

theorem operativeRecords_cons : ∃ rest, operativeRecords rt log reader =
    { view, responses := responsesTo rt log reader.trustSet view.inputRequestId } :: rest := by
  have hopen := (noneOpen_iff h).mp hnone
  obtain ⟨rest, rfl⟩ := head?_eq_some_iff.mp hhead
  rw [operativeRecords_eq hopen, filterMap_cons_some hopens.opens, filter_cons,
    if_pos (decide_eq_true hopens.operative), map_cons]
  exact ⟨_, rfl⟩

theorem outline_contested (hcontends : Contends rt pick view.inputRequestId) :
    outlineIn rt attempt reader log =
      .held ((latestIn rt attempt log).map (·.checkpointId)) .ambiguous view.inputRequestId := by
  have hopen := (noneOpen_iff h).mp hnone
  obtain ⟨rest, hrecords⟩ := operativeRecords_cons h hhead hopens hnone
  have hmany : ((operativeRecords rt log reader).find? fun record => 1 < record.responses.length) =
      some { view, responses := responsesTo rt log reader.trustSet view.inputRequestId } := by
    simp [hrecords, (contends_iff h).mp hcontends]
  rw [outlineIn, resumptionOver_many (answered_of_not_unresponded hopen) hmany, attemptStateOf_eq]

theorem outline_failed (hone : NoneContested rt events pick)
    (hresponds : RespondsTo rt events pick view.inputRequestId response payload)
    (hfails : ¬ Grants rt reader pick (latestIn rt attempt log) view response payload) :
    outlineIn rt attempt reader log = .held ((latestIn rt attempt log).map (·.checkpointId))
      (if (freshnessUnder (latestIn rt attempt log) view payload).isStale then .stale else .blocked)
      view.inputRequestId := by
  obtain ⟨rest, hrecords⟩ := operativeRecords_cons h hhead hopens hnone
  rw [hresponds.responsesTo_eq h (hone _ _ hopens)] at hrecords
  have hfirst : fails reader (attemptStateOf rt attempt log)
      { view, responses := [recordIn rt reader log response payload] } = true :=
    (fails_iff_not_grants h hresponds rfl).mpr hfails
  rw [outlineIn_single h hnone hone, evaluateAnswered_outline, hrecords, find?_cons_of_pos hfirst]
  simp only [attemptStateOf_eq]
  rfl

end Lead

end Records

section Complete

theorem pick_of_not_staysOpen (h : ¬ StaysOpen rt pick event view) :
    pick (.request view.inputRequestId) = some event :=
  not_not.mp fun hne => h (.inl hne)

theorem Owns.unique {inputRequestId inputRequestId' : InputRequestId}
    (h : Owns rt pick id inputRequestId) (h' : Owns rt pick id inputRequestId') :
    inputRequestId = inputRequestId' := by
  obtain ⟨event, payload, hpick, hpayload, rfl⟩ := h
  obtain ⟨event', payload', hpick', hpayload', rfl⟩ := h'
  cases hpick.symm.trans hpick'
  cases hpayload.symm.trans hpayload'
  rfl

theorem MostRecent.unique (hids : OneForEachId events)
    {inputRequestId inputRequestId' : InputRequestId} (h : MostRecent rt events pick inputRequestId)
    (h' : MostRecent rt events pick inputRequestId') : inputRequestId = inputRequestId' := by
  obtain ⟨event, view, response, payload, hopens, rfl, hresponds, hmost⟩ := h
  obtain ⟨event', view', response', payload', hopens', rfl, hresponds', hmost'⟩ := h'
  have hstamp := LawfulEqCmp.eq_of_compare (OrientedCmp.isLE_antisymm
    (hmost _ _ _ _ hopens' hresponds') (hmost' _ _ _ _ hopens hresponds))
  obtain rfl := hids _ hresponds'.mem _ hresponds.mem (Prod.mk.inj hstamp).2
  cases hresponds.carries.symm.trans hresponds'.carries
  exact hresponds.owns.unique hresponds'.owns

section Showing

variable {latest : Option TaskCheckpointSummary} {outline : ResumptionOutline}
  (hids : OneForEachId events) (hshows : Shows rt reader events pick latest outline)
include hids hshows

theorem Shows.eq_opened
    (hopens : OpensOperative rt events event view) (hstays : StaysOpen rt pick event view)
    (hearliest : ∀ other view', OpensOperative rt events other view' → StaysOpen rt pick other view' →
      (stampOrder view.envelope.stamp view'.envelope.stamp).isLE = true) :
    outline = .held (latest.map (·.checkpointId)) .blocked view.inputRequestId := by
  cases hshows with
  | opened hopens' hstays' hearliest' =>
    have hstamp := LawfulEqCmp.eq_of_compare (OrientedCmp.isLE_antisymm
      (hearliest' _ _ hopens hstays) (hearliest _ _ hopens' hstays'))
    rw [taskRequestOf_envelope hopens.opens, taskRequestOf_envelope hopens'.opens] at hstamp
    obtain rfl := hids _ hopens'.mem _ hopens.mem (Prod.mk.inj hstamp).2
    cases hopens.opens.symm.trans hopens'.opens
    rfl
  | contested hnone | failed hnone | ready hnone => exact absurd hstays (hnone _ _ hopens)

theorem Shows.eq_ready {selected : Option InputRequestId} (hnone : NoneOpen rt events pick)
    (hone : NoneContested rt events pick) (hgrants : AllGrant rt reader events pick latest)
    (hempty : selected = none → ∀ event view, ¬ OpensOperative rt events event view)
    (hrecent : ∀ inputRequestId ∈ selected, MostRecent rt events pick inputRequestId) :
    outline = { mayResume := true, state := .ready, latestCheckpoint := latest.map (·.checkpointId),
                selectedInputRequest := selected } := by
  cases hshows with
  | opened hopens hstays => exact absurd hstays (hnone _ _ hopens)
  | contested _ hopens hcontends => exact absurd hcontends (hone _ _ hopens)
  | failed _ _ hopens hresponds hfails => exact absurd (hgrants _ _ _ _ hopens hresponds) hfails
  | @ready selected' _ _ _ hempty' hrecent' =>
    suffices hsame : selected' = selected by rw [hsame]
    cases selected with
    | none =>
      cases selected' with
      | none => rfl
      | some inputRequestId =>
        obtain ⟨event, view, -, -, hopens, -⟩ := hrecent' inputRequestId rfl
        exact absurd hopens (hempty rfl event view)
    | some inputRequestId =>
      cases selected' with
      | none =>
        obtain ⟨event, view, -, -, hopens, -⟩ := hrecent inputRequestId rfl
        exact absurd hopens (hempty' rfl event view)
      | some inputRequestId' => rw [(hrecent' _ rfl).unique hids (hrecent _ rfl)]

end Showing

theorem shownBy_iff {outline : ResumptionOutline} (h : IsOrder rt attempt reader events events) :
    ShownBy rt attempt reader events outline ↔
      ∃ log, log.Perm events ∧ outlineIn rt attempt reader log = outline := by
  constructor
  swap
  · rintro ⟨log, hperm, rfl⟩
    have hears : Hears rt attempt reader events _ log := ⟨h.of_perm hperm, rfl⟩
    exact ⟨_, _, hears.picks, latestUnder_latestIn hears, shows_heard hears⟩
  rintro ⟨pick, latest, hpick, hlatest, hshows⟩
  have hslots : ∀ event ∈ events, ∀ slot slot', Fills rt attempt reader events event slot →
      Fills rt attempt reader events event slot' → slot = slot' :=
    fun event _ slot slot' hslot hslot' => hslot.unique h.ids hslot'
  obtain ⟨log, hperm, hheard⟩ := exists_order TaskSlot.late hpick hslots
  have hplain : Hears rt attempt reader events pick log := ⟨h.of_perm hperm, hheard⟩
  have hsound := shows_heard hplain
  cases hlatest.unique h.ids hpick (latestUnder_latestIn hplain)
  -- any opening that is picked can come first
  have hlead : ∀ event id, pick (.request id) = some event →
      ∃ log', Hears rt attempt reader events pick log' ∧ log'.head? = some event ∧
        latestIn rt attempt log' = latestIn rt attempt log := by
    intro event id hpicked
    have hearly : ∀ lead, some event = some lead →
        ∃ slot, TaskSlot.late slot = false ∧ pick slot = some lead :=
      fun lead hsome => ⟨.request id, rfl, hpicked.trans hsome⟩
    obtain ⟨log', hperm', hheard', hhead⟩ := exists_order_lead hpick hslots hearly
    have hears : Hears rt attempt reader events pick log' := ⟨h.of_perm hperm', hheard'⟩
    exact ⟨log', hears, hhead event rfl,
      (latestUnder_latestIn hears).unique h.ids hpick (latestUnder_latestIn hplain)⟩
  cases hshows with
  | opened hopens hstays hearliest =>
    exact ⟨log, hperm, hsound.eq_opened h.ids hopens hstays hearliest⟩
  | contested hnone hopens hcontends =>
    obtain ⟨log', hears, hhead, hsame⟩ := hlead _ _ (pick_of_not_staysOpen (hnone _ _ hopens))
    exact ⟨log', hears.perm, hsame ▸ outline_contested hears hhead hopens hnone hcontends⟩
  | failed hnone hone hopens hresponds hfails =>
    obtain ⟨log', hears, hhead, hsame⟩ := hlead _ _ (pick_of_not_staysOpen (hnone _ _ hopens))
    rw [← hsame] at hfails ⊢
    exact ⟨log', hears.perm, outline_failed hears hhead hopens hnone hone hresponds hfails⟩
  | ready hnone hone hgrants hempty hrecent =>
    exact ⟨log, hperm, hsound.eq_ready h.ids hnone hone hgrants hempty hrecent⟩

end Complete

end Pointbreak
