import Mathlib.Data.List.Permutation
import Pointbreak.Projection.ResumptionOrder
import Pointbreak.Projection.ResumptionSafety

/-!
# Projection.ResumptionRepeat

Events that are there twice. A further carrier of a response is folded into the first, but one of an
operative request gets no responses, and stays open. `resumption_order_settled` says when neither
the order of the events nor a further carrier can be seen in the verdict.
-/

namespace Pointbreak

open Std KeyedLog Result List

section Further

variable {V B : Type} (rt : StoreRuntime V B) (attempt : WorkObjectId)
  (reader : ResumptionReader) (events : List (StoredEvent V)) (first copy : StoredEvent V)

/-- The events differ in nothing but the key and the event id. -/
def Reissues : Prop :=
  { first with idempotencyKey := copy.idempotencyKey, eventId := copy.eventId } = copy

/-- The event proposes a work object, captures a checkpoint, opens a request or responds to one. -/
def IsTaskCarrier : Prop :=
  first.eventType = .workObjectProposed ∨ first.eventType = .taskCheckpointCaptured ∨
    first.eventType = .inputRequestOpened ∨ first.eventType = .inputRequestResponded

variable {rt attempt reader events first copy}

section Copy

variable (h : Reissues first copy)
include h

theorem Reissues.eventType : copy.eventType = first.eventType := congrArg (·.eventType) h.symm

theorem Reissues.payload : copy.payload = first.payload := congrArg (·.payload) h.symm

theorem Reissues.validateSchemaVersion : copy.validateSchemaVersion = first.validateSchemaVersion :=
  congrArg (fun event => event.toShoreEvent.validateSchemaVersion) h.symm

theorem Reissues.proposes_eq : proposes rt attempt copy = proposes rt attempt first := by
  rw [proposes, proposes, h.eventType, h.payload]

theorem Reissues.proposed_iff (hfirst : first ∈ events) :
    (∃ event ∈ events ++ [copy], proposes rt attempt event = true) ↔
      ∃ event ∈ events, proposes rt attempt event = true := by
  simp only [mem_append, mem_singleton, or_and_right, exists_or, exists_eq_left,
    h.proposes_eq]
  exact or_iff_left_of_imp fun hcopy => ⟨first, hfirst, hcopy⟩

theorem Reissues.attemptRead (hfirst : first ∈ events) (hread : AttemptRead rt attempt events) :
    AttemptRead rt attempt (events ++ [copy]) := by
  refine forall_mem_append.mpr ⟨hread, forall_mem_singleton.mpr ?_⟩
  obtain ⟨fact, hfact⟩ := hread first hfirst
  rw [readTaskAttemptEvent, bind_eq_ok] at hfact
  obtain ⟨_, hschema, hfact⟩ := hfact
  rw [readTaskAttemptEvent, h.validateSchemaVersion, hschema, h.eventType, h.payload]
  split at hfact
  case h_4 => exact ⟨none, by simp [*]⟩
  all_goals obtain ⟨payload, hpayload, -⟩ := bind_eq_ok.mp hfact
  · cases hobject : payload.workObject <;> simp [fromValue_eq_ok.mp hpayload, hobject]
  all_goals simp [fromValue_eq_ok.mp hpayload]

theorem Reissues.readsInput (hread : ReadsInput rt first) : ReadsInput rt copy where
  schema := h.validateSchemaVersion.trans hread.schema
  opened htype := by
    rw [h.payload]
    exact hread.opened (h.eventType.symm.trans htype)
  responded htype := by
    rw [h.payload]
    exact hread.responded (h.eventType.symm.trans htype)

theorem Reissues.inputsRead (hcarrier : IsTaskCarrier first) (hfirst : first ∈ events)
    (hread : InputsRead rt events attempt reader.trustSet) :
    InputsRead rt (events ++ [copy]) attempt reader.trustSet := by
  obtain ⟨hreads, hcarriers⟩ := inputsRead_iff.mp hread
  refine inputsRead_iff.mpr ⟨forall_mem_append.mpr ⟨hreads,
    forall_mem_singleton.mpr (h.readsInput (hreads first hfirst))⟩, fun hbrings => ?_⟩
  have hbefore : BringsResponse events := by
    obtain ⟨event, hevent, htype⟩ := hbrings
    rcases mem_append.mp hevent with hin | hcopy
    · exact ⟨event, hin, htype⟩
    · obtain rfl := mem_singleton.mp hcopy
      exact ⟨first, hfirst, h.eventType.symm.trans htype⟩
  -- the copy is no signature carrier
  refine forall_mem_append.mpr ⟨hcarriers hbefore, forall_mem_singleton.mpr fun htype => ?_⟩
  rw [h.eventType] at htype
  rcases hcarrier with h | h | h | h <;> exact absurd (h.symm.trans htype) EventType.noConfusion

end Copy

section Orders

variable (rt attempt reader) in
/-- Whatever is picked from the events, or from the others, shows the same. -/
def ShowAlike (events events' : List (StoredEvent V)) : Prop :=
  ∀ outline outline', ShownBy rt attempt reader events outline →
    ShownBy rt attempt reader events' outline' → outline = outline'

variable {others : List (StoredEvent V)}

theorem outlineIn_eq_iff (h : IsOrder rt attempt reader events events)
    (h' : IsOrder rt attempt reader others others) :
    (∀ log log', log.Perm events → log'.Perm others →
      outlineIn rt attempt reader log = outlineIn rt attempt reader log') ↔
        ShowAlike rt attempt reader events others := by
  simp only [ShowAlike, shownBy_iff h, shownBy_iff h']
  constructor
  · rintro hsame outline outline' ⟨log, hperm, rfl⟩ ⟨log', hperm', rfl⟩
    exact hsame log log' hperm hperm'
  · intro halike log log' hperm hperm'
    exact halike _ _ ⟨log, hperm, rfl⟩ ⟨log', hperm', rfl⟩

theorem oneForEachId_of_nodup (h : (events.map fun event => event.eventId).Nodup) :
    OneForEachId events := by
  intro event hevent other hother hid
  refine inj_on_of_nodup_map h hevent hother ?_
  exact congrArg Ident.mk hid

theorem isOrder_of_nodup (hids : (events.map fun event => event.eventId).Nodup)
    (hread : InputsRead rt events attempt reader.trustSet) :
    IsOrder rt attempt reader events events :=
  ⟨.refl _, hids.of_map _, oneForEachId_of_nodup hids, hread⟩

section Projected

variable {log : List (StoredEvent V)} (hperm : log.Perm events)
  (hattempt : AttemptRead rt attempt events)
include hperm hattempt

theorem agentResumption_of_perm
    (hproposed : ∃ event ∈ events, proposes rt attempt event = true)
    (h : IsOrder rt attempt reader events events) {outline : ResumptionOutline} :
    (∃ projection, agentResumptionWithPrincipalPolicy rt log attempt reader = .ok projection ∧
      projection.outline = outline) ↔ outlineIn rt attempt reader log = outline := by
  have hattempt' : AttemptRead rt attempt log :=
    fun event hevent => hattempt event (hperm.mem_iff.mp hevent)
  simp only [agentResumption_eq_ok, hattempt', hperm.mem_iff, hproposed, (h.of_perm hperm).read,
    true_and, if_true, exists_eq_left']

theorem agentResumption_noAttempt
    (hproposed : ¬ ∃ event ∈ events, proposes rt attempt event = true) :
    agentResumptionWithPrincipalPolicy rt log attempt reader =
      .ok (noAttemptProjection reader attempt) := by
  have hattempt' : AttemptRead rt attempt log :=
    fun event hevent => hattempt event (hperm.mem_iff.mp hevent)
  simp only [agentResumption_eq_ok, hattempt', hperm.mem_iff, hproposed, true_and, if_false]

end Projected

section Settled

variable {projection : AgentResumptionProjection}
  (h : agentResumptionWithPrincipalPolicy rt events attempt reader = .ok projection)
  (hids : (events.map fun event => event.eventId).Nodup)
include h hids

theorem resumption_settled_iff (hids' : (others.map fun event => event.eventId).Nodup)
    (hattempt' : AttemptRead rt attempt events → AttemptRead rt attempt others)
    (hread' : InputsRead rt events attempt reader.trustSet →
      InputsRead rt others attempt reader.trustSet)
    (hproposed : (∃ event ∈ others, proposes rt attempt event = true) ↔
      ∃ event ∈ events, proposes rt attempt event = true) :
    (∀ log, log.Perm events ∨ log.Perm others → ∃ projection',
      agentResumptionWithPrincipalPolicy rt log attempt reader = .ok projection' ∧
        projection'.outline = projection.outline) ↔
      ((∃ event ∈ events, proposes rt attempt event = true) →
        ShowAlike rt attempt reader events others) := by
  obtain ⟨hattempt, hverdict⟩ := agentResumption_eq_ok.mp h
  by_cases hin : ∃ event ∈ events, proposes rt attempt event = true
  swap
  · rw [if_neg hin] at hverdict
    refine iff_of_true ?_ fun hin' => absurd hin' hin
    rintro log (hperm | hperm)
    · exact ⟨projection, hverdict ▸ agentResumption_noAttempt hperm hattempt hin, rfl⟩
    · exact ⟨projection, hverdict ▸ agentResumption_noAttempt hperm (hattempt' hattempt)
        (mt hproposed.mp hin), rfl⟩
  rw [if_pos hin] at hverdict
  obtain ⟨hread, rfl⟩ := hverdict
  have horder := isOrder_of_nodup hids hread
  have horder' := isOrder_of_nodup hids' (hread' hread)
  rw [← outlineIn_eq_iff horder horder']
  have hproposed' := hproposed.mpr hin
  simp only [hin, true_imp_iff, or_imp, forall_and]
  constructor
  · rintro ⟨hbefore, hafter⟩ log log' hperm hperm'
    rw [(agentResumption_of_perm hperm hattempt hin horder).mp (hbefore log hperm),
      (agentResumption_of_perm hperm' (hattempt' hattempt) hproposed' horder').mp (hafter log' hperm')]
  · intro hall
    constructor
    · intro log hperm
      refine (agentResumption_of_perm hperm hattempt hin horder).mpr ?_
      exact (hall log others hperm (.refl _)).trans (hall events others (.refl _) (.refl _)).symm
    · intro log hperm
      refine (agentResumption_of_perm hperm (hattempt' hattempt) hproposed' horder').mpr ?_
      exact (hall events log (.refl _) hperm).symm

end Settled

end Orders

end Further

namespace StoreRecorded

def approvedAgain : StoredEvent StorePayload :=
  taskEvent (text "evt:4") (answered (text "r") (text "A") .approved)

def askedAgain : StoredEvent StorePayload :=
  taskEvent (text "evt:6") (asked (text "A") attemptId)

end StoreRecorded

end Pointbreak
