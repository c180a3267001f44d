import Pointbreak.Store.Growth
import Pointbreak.Store.Recorded
import Pointbreak.Store.Routing

/-!
# Store.Readable

Whether the complete router still accepts a store after a write. The write side checks the envelope,
the router also checks that a payload of the Change cohort has the schema and the version of its
family. A cohort event without them is written and then makes the whole Journal unreadable.
-/

namespace Pointbreak

open Std Stateful Journal Result List

section Readable

variable {V B : Type} {rt : CapabilityRuntime V B} {event : StoredEvent V}
  {journal journal' : Journal B}

theorem validateEvent_eq_ok {u : Unit} : validateEvent rt event = .ok u ↔
    (event.schema = EVENT_SCHEMA ∧ event.version = EVENT_VERSION) ∧
    (event.eventType = .reviewAssessmentRecorded → event.assertionMode = .operative) ∧
    event.eventId = eventIdForIdempotencyKey rt.toStoreRuntime event.idempotencyKey ∧
    event.payloadHash = rt.payloadHash event.payload := by
  simp [validateEvent, ShoreEvent.validateSchemaVersion, ← imp_iff_not_or]

variable (rt) in
def entryOf (event : StoredEvent V) : JournalEntry B :=
  ⟨rt.sha256 event.idempotencyKey, rt.toVec event⟩

/-- Of what the router checks, the write side leaves out the family. -/
theorem validateEventProbe_iff (hvalid : validateEvent rt event = .ok ()) :
    validateEventProbe rt event.probe (rt.sha256 event.idempotencyKey) = .ok () ↔
      payloadMatchesFamily rt event.eventType.typeCode event.payload = true := by
  obtain ⟨⟨hschema, hversion⟩, -, hid, hhash⟩ := validateEvent_eq_ok.mp hvalid
  have hknown : isKnownOrReservedEventCode event.eventType.typeCode = true := by
    rw [isKnownOrReservedEventCode, eventTypeFromCode_typeCode]
    rfl
  simp only [validateEventProbe, StoredEvent.probe, bind_eq_ok, ensure_eq_ok,
    Bool.and_eq_true, beq_iff_eq, hschema, hversion, hid, hhash, hknown, eventIdForIdempotencyKey,
    true_and, exists_const]
  exact ⟨fun h => h.2, fun h => ⟨⟨rfl, rfl⟩, h⟩⟩

theorem schemaProbe_toVec (hrt : ReadsBack rt.toStoreRuntime event)
    (hvalid : validateEvent rt event = .ok ()) :
    rt.schemaProbe (rt.toVec event) = .ok (text "shore.event") :=
  hrt.schemaProbe.trans (congrArg _ (validateEvent_eq_ok.mp hvalid).1.1)

theorem routes_entryOf (hrt : ReadsBack rt.toStoreRuntime event)
    (hvalid : validateEvent rt event = .ok ()) {record : RoutedRecord V}
    (h : Routes rt (entryOf rt event) record) : record = .event event.probe ∧
      validateEventProbe rt event.probe (rt.sha256 event.idempotencyKey) = .ok () := by
  have hprobe := schemaProbe_toVec hrt hvalid
  cases h with
  | event _ hread hchecked =>
    cases hrt.eventProbe.symm.trans hread
    exact ⟨rfl, hchecked⟩
  | activation hschema =>
    exact absurd (Except.ok.inj (hprobe.symm.trans hschema)) event_schema_ne.1
  | completion hschema =>
    exact absurd (Except.ok.inj (hprobe.symm.trans hschema)) event_schema_ne.2.1

theorem routeEntry_entryOf (hrt : ReadsBack rt.toStoreRuntime event) (hhex : HexDigests rt)
    (hvalid : validateEvent rt event = .ok ()) :
    (∃ r, routeEntry rt (entryOf rt event) = .ok r ∧ ∃ probe, r.record = .event probe) ↔
      payloadMatchesFamily rt event.eventType.typeCode event.payload = true := by
  rw [← validateEventProbe_iff hvalid]
  constructor
  · rintro ⟨r, hr, -⟩
    exact (routes_entryOf hrt hvalid (routeEntry_eq_ok.mp hr).2.1).2
  · intro hchecked
    let identity : JournalRecordIdentityV1 := ⟨rt.sha256 event.idempotencyKey,
      text "sha256:" ++ rt.bytesSha256 (rt.toVec event), some event.payloadHash⟩
    have hidentity : identity.validate = .ok () := by
      refine JournalRecordIdentityV1.validate_eq_ok.mpr ⟨hhex.sha256 _, ?_, ?_⟩
      · rw [isPrefixedSha256_append]
        exact hhex.bytesSha256 _
      · rw [Option.all_some, (validateEvent_eq_ok.mp hvalid).2.2.2, StoreRuntime.payloadHash,
          isPrefixedSha256_append]
        exact hhex.sha256 _
    exact ⟨⟨entryOf rt event, .event event.probe, identity⟩, routeEntry_eq_ok.mpr
      ⟨rfl, .event (schemaProbe_toVec hrt hvalid) hrt.eventProbe hchecked,
        journalRecordIdentity_eq_ok.mpr ⟨rfl, hidentity⟩⟩, event.probe, rfl⟩

theorem map_fst_routedEvents {extra : List (RoutedEntry V B)}
    (h : ∀ r ∈ extra, ∃ probe, r.record = .event probe) :
    (routedEvents extra).map Prod.fst = extra.map (·.entry) := by
  induction extra with
  | nil => rfl
  | cons r extra ih =>
    obtain ⟨probe, hr⟩ := h r (.head _)
    rw [map_cons, ← ih fun r' hr' => h r' (.tail _ hr')]
    simp [routedEvents, hr, RoutedRecord.event?]

variable {activationId manifestHash completionId : Text}

theorem HasStatus.ready_extend {routed routed' extra : List (RoutedEntry V B)}
    (h : HasStatus rt routed (.ready activationId manifestHash completionId))
    (hperm : routed'.Perm (routed ++ extra))
    (hextra : ∀ r ∈ extra, ∃ probe, r.record = .event probe)
    (hnodup : (((routedEvents routed).map Prod.fst).map (·.keyDigest)).Nodup)
    (hnodup' : (((routedEvents routed').map Prod.fst).map (·.keyDigest)).Nodup) :
    HasStatus rt routed' (.ready activationId manifestHash completionId) := by
  cases h with
  | @ready active completion hactivations hroot hcompletions hcovered =>
    -- the added records are events, which no other kind of record is read from
    have hkept : ∀ {γ : Type} (sel : RoutedRecord V → Option γ),
        (∀ probe, sel (.event probe) = none) →
          (routed'.filterMap (sel ·.record)).Perm (routed.filterMap (sel ·.record)) := by
      intro γ sel hsel
      have hnone : extra.filterMap (fun r => sel r.record) = [] := by
        rw [filterMap_eq_nil_iff]
        intro r hr
        obtain ⟨probe, hprobe⟩ := hextra r hr
        rw [hprobe, hsel]
      have hp := hperm.filterMap fun r => sel r.record
      rwa [filterMap_append, hnone, append_nil] at hp
    refine .ready
      (perm_singleton.mp (hactivations ▸ hkept RoutedRecord.activation? fun _ => rfl)) hroot
      (perm_singleton.mp (hcompletions ▸ hkept RoutedRecord.completion? fun _ => rfl)) ?_
    rw [validateCompletion_eq_ok hnodup] at hcovered
    rw [validateCompletion_eq_ok hnodup']
    refine ⟨hcovered.1, ?_⟩
    intro reservation hreservation
    obtain ⟨entry, hentry, hrest⟩ := hcovered.2 reservation hreservation
    obtain ⟨e, he, rfl⟩ := mem_map.mp hentry
    obtain ⟨r, hr, hentry, hrecord⟩ := mem_routedEvents.mp he
    have hr' : r ∈ routed' := hperm.mem_iff.mpr (mem_append_left _ hr)
    exact ⟨e.1, mem_map.mpr ⟨e, mem_routedEvents.mpr ⟨r, hr', hentry, hrecord⟩, rfl⟩, hrest⟩

variable {inspection : JournalInspection B}

theorem route_of_grows (hhex : HexDigests rt) (hgrows : Journal.Grows journal journal')
    (hroute : inspectJournalRecords rt journal = .ok inspection)
    (hready : inspection.status = .ready activationId manifestHash completionId)
    (hnew : ∀ entry ∈ Journal.newEntries journal journal', ∃ r, routeEntry rt entry = .ok r ∧
      ∃ probe, r.record = .event probe) :
    ∃ inspection', inspectJournalRecords rt journal' = .ok inspection' ∧
      inspection'.status = inspection.status ∧ inspection'.eventEntries.Perm
        (inspection.eventEntries ++ Journal.newEntries journal journal') := by
  obtain ⟨routed, hrouted, hstatus, hevents⟩ := hasStatus_of_route hroute
  obtain ⟨extra, hextraRouted⟩ : ∃ extra,
      (newEntries journal journal').mapM (routeEntry rt) = .ok extra :=
    ⟨_, mapM_eq_ok_iff.mpr ⟨fun e he => (hnew e he).imp fun r hr => hr.1, rfl⟩⟩
  have hextra : ∀ r ∈ extra, ∃ probe, r.record = .event probe := by
    intro r hr
    obtain ⟨entry, hentry, hroute⟩ := (mapM_spec hextraRouted).2 r hr
    obtain ⟨r', hroute', hevent⟩ := hnew entry hentry
    cases hroute.symm.trans hroute'
    exact hevent
  have hall := mapM_eq_ok_iff.mp hrouted
  have hall' := mapM_eq_ok_iff.mp hextraRouted
  obtain ⟨routed', hrouted', hperm⟩ : ∃ routed',
      journal'.listRecordEntries.mapM (routeEntry rt) = .ok routed' ∧
        routed'.Perm (routed ++ extra) := by
    refine ⟨_, mapM_eq_ok_iff.mpr ⟨?_, rfl⟩, ?_⟩
    · intro entry hentry
      rw [hgrows.perm.mem_iff, mem_append] at hentry
      exact hentry.elim (hall.1 entry) (hall'.1 entry)
    · rw [hall.2, hall'.2, ← filterMap_append]
      exact hgrows.perm.filterMap _
  have hnodup := nodup_eventDigests hrouted (nodup_keyDigests journal)
  have hnodup' := nodup_eventDigests hrouted' (nodup_keyDigests journal')
  rw [hready] at hstatus
  obtain ⟨inspection', hroute', hstatus', hevents'⟩ := route_of_hasStatus hhex hrouted'
    (nodup_keyDigests journal') (hstatus.ready_extend hperm hextra hnodup hnodup')
  refine ⟨inspection', hroute', hstatus'.trans hready.symm, ?_⟩
  rw [hevents', hevents, ← entries_of_routed hextraRouted, ← map_fst_routedEvents hextra,
    ← map_append]
  refine .map _ ?_
  rw [routedEvents, routedEvents, routedEvents, ← filterMap_append]
  exact hperm.filterMap _

theorem matchesFamily_of_isTranscribed (h : IsTranscribed event) :
    payloadMatchesFamily rt event.eventType.typeCode event.payload = true := by
  have hnone : reservedFamily EventType.eventSignatureRecorded.typeCode = none := by
    decide +kernel
  rw [h, payloadMatchesFamily, hnone]

/-- What a call adds are events that it was offered, and carriers. The router accepts the store
after it, in the same state and with the added events, exactly when no added event is a cohort event
whose payload lacks the schema or the version of its family. -/
theorem readable_after_iff (hhex : HexDigests rt) (call : StoreCall V)
    (hrt : ∀ event, event ∈ call.offered ∨ BuiltCarrier rt event →
      ReadsBack rt.toStoreRuntime event) {inspection : JournalInspection B}
    {activationId manifestHash completionId : Text}
    (hroute : inspectJournalRecords rt journal = .ok inspection)
    (hready : inspection.status = .ready activationId manifestHash completionId) :
    (∀ entry ∈ Journal.newEntries journal (call.run rt journal),
      ∃ event, (event ∈ call.offered ∨ IsTranscribed event) ∧ entry = entryOf rt event) ∧
    ((∃ inspection', inspectJournalRecords rt (call.run rt journal) = .ok inspection' ∧
        inspection'.status = inspection.status ∧ inspection'.eventEntries.Perm
          (inspection.eventEntries ++ Journal.newEntries journal (call.run rt journal))) ↔
      ∀ event ∈ call.offered, entryOf rt event ∈ Journal.newEntries journal (call.run rt journal) →
        payloadMatchesFamily rt event.eventType.typeCode event.payload = true) := by
  have happends := call.appends rt journal
  have hadded : ∀ entry ∈ newEntries journal (call.run rt journal), ∃ event,
      (event ∈ call.offered ∨ BuiltCarrier rt event) ∧ validateEvent rt event = .ok () ∧
        entry = entryOf rt event := by
    rintro ⟨digest, bytes⟩ hentry
    obtain ⟨hget, hfree⟩ := mem_newEntries.mp hentry
    obtain ⟨event, hP, hvalid, rfl, rfl⟩ := happends.new_record hfree hget
    exact ⟨event, hP, hvalid, rfl⟩
  refine ⟨?_, ?_, ?_⟩
  · intro entry hentry
    obtain ⟨event, hP, -, h⟩ := hadded entry hentry
    exact ⟨event, hP.imp_right BuiltCarrier.isTranscribed, h⟩
  · -- a record that the router accepts was accepted by its event check
    rintro ⟨inspection', hroute', -, -⟩ event hoffered hentry
    obtain ⟨routed', hrouted', -, -⟩ := hasStatus_of_route hroute'
    obtain ⟨e, hP, hvalid, heq⟩ := hadded _ hentry
    obtain ⟨r, hr, -, hroutes⟩ := routed_of_get hrouted' (mem_newEntries.mp hentry).1
    have hprobe : event.probe = e.probe := Except.ok.inj <| calc
      .ok event.probe = rt.eventProbe (rt.toVec event) :=
        (hrt event (.inl hoffered)).eventProbe.symm
      _ = rt.eventProbe (rt.toVec e) := congrArg _ (congrArg JournalEntry.bytes heq)
      _ = .ok e.probe := (hrt e hP).eventProbe
    show payloadMatchesFamily rt event.probe.eventType event.probe.payload = true
    rw [hprobe]
    exact (validateEventProbe_iff hvalid).mp (routes_entryOf (hrt e hP) hvalid (heq ▸ hroutes)).2
  · intro hmatches
    refine route_of_grows hhex happends.grows hroute hready ?_
    intro entry hentry
    obtain ⟨event, hP, hvalid, rfl⟩ := hadded entry hentry
    refine (routeEntry_entryOf (hrt event hP) hhex hvalid).mpr ?_
    rcases hP with hoffered | hbuilt
    · exact hmatches event hoffered hentry
    · exact matchesFamily_of_isTranscribed hbuilt.isTranscribed

end Readable

namespace StoreRecorded

theorem hexDigests : HexDigests runtime where
  sha256 _ := Text.isHexOfLength_hexOf 64 _
  bytesSha256 _ := Text.isHexOfLength_hexOf 64 _

def lateNote : StoredEvent StorePayload :=
  event .reviewNoteImported (text "t:07:late") (.other (text "late"))

def bareDeclaration : StoredEvent StorePayload :=
  event .changeDeclared (text "t:17:bare") (.other (text "\x7b\x7d"))

theorem lateNote_readable : ∃ inspection inspection',
    inspectJournalRecords runtime migrated = .ok inspection ∧
    inspectJournalRecords runtime ((StoreCall.record lateNote).run runtime migrated) =
      .ok inspection' ∧
    inspection'.status = inspection.status ∧
    inspection'.eventEntries.Perm (inspection.eventEntries ++ Journal.newEntries migrated
      ((StoreCall.record lateNote).run runtime migrated)) := by
  have hrun : ∃ inspection, inspectJournalRecords runtime migrated = .ok inspection ∧
      inspection.status = .ready activation.activationId (manifest.canonicalHash checksum)
        completion.completionId ∧
      payloadMatchesFamily runtime lateNote.eventType.typeCode lateNote.payload = true := by
    decide +kernel
  obtain ⟨inspection, hok, hready, hmatches⟩ := hrun
  obtain ⟨inspection', hafter⟩ := (readable_after_iff hexDigests (.record lateNote)
    (fun event _ => readsBack event) hok hready).2.mpr (by
      intro event hevent _
      rw [mem_singleton.mp hevent]
      exact hmatches)
  exact ⟨inspection, inspection', hok, hafter⟩

/-- The store accepts the declaration, and the router then refuses the Journal. -/
theorem bareDeclaration_unreadable :
    (∃ inspection, inspectJournalRecords runtime migrated = .ok inspection ∧
      inspection.status = .ready activation.activationId (manifest.canonicalHash checksum)
        completion.completionId) ∧
    outcome ((EventStore.recordEventOnce runtime bareDeclaration).run migrated) = .ok .created ∧
    ∃ error, inspectJournalRecords runtime
      ((StoreCall.record bareDeclaration).run runtime migrated) = .error error := by
  decide +kernel

end StoreRecorded

end Pointbreak
