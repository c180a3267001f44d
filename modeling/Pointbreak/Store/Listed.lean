import Pointbreak.Store.FirstStored

/-!
# Store.Listed

What the listing of a store consists of: events that stand at the address of their own key, one for
each address. Since an event's id is made from the digest of its key, no two listed events have one
id either.
-/

namespace Pointbreak

open Std Stateful Result

section Listed

variable {V B : Type} {rt : CapabilityRuntime V B} {event event' : StoredEvent V}
  {events : List (StoredEvent V)} {journal : Journal B}

theorem eventEntries_sublist_of_current {entries : List (JournalEntry B)}
    (h : eventEntriesForCurrentProduct rt journal = .ok entries) :
    entries.Sublist journal.listRecordEntries := by
  rw [eventEntriesForCurrentProduct] at h
  split at h
  · cases h
    exact .refl _
  · obtain ⟨inspection, hinspect, hrest⟩ := bind_eq_ok.mp h
    obtain ⟨routed, hrouted, -, hentries⟩ := hasStatus_of_route hinspect
    split at hrest
    · cases hrest
      rw [hentries, ← entries_of_routed hrouted]
      exact eventEntries_sublist routed
    · cases hrest
    · cases hrest

theorem decodeValidatedEvent_valid {bytes : B} (h : decodeValidatedEvent rt bytes = .ok event) :
    validateEvent rt event = .ok () := by
  rw [decodeValidatedEvent] at h
  obtain ⟨probe, -, h⟩ := bind_eq_ok.mp h
  split at h
  · cases h
  · simp only [bind_eq_ok] at h
    obtain ⟨_, -, _, -, _, -, _, -, decoded, -, ⟨⟩, hvalid, h⟩ := h
    cases h
    exact hvalid

theorem decodeValidatedEntry_eq_ok {entry : JournalEntry B} :
    decodeValidatedEntry rt entry = .ok event ↔
      decodeValidatedEvent rt entry.bytes = .ok event ∧
        rt.sha256 event.idempotencyKey = entry.keyDigest := by
  simp only [decodeValidatedEntry, bind_eq_ok, ensure_eq_ok, beq_iff_eq,
    Except.ok.injEq]
  constructor
  · rintro ⟨decoded, hdecoded, _, hkey, rfl⟩
    exact ⟨hdecoded, hkey⟩
  · rintro ⟨hdecoded, hkey⟩
    exact ⟨event, hdecoded, (), hkey, rfl⟩

variable (hlist : listEvents rt journal = .ok events)
include hlist

theorem get_of_listed (he : event ∈ events) :
    ∃ bytes, journal[rt.sha256 event.idempotencyKey]? = some bytes ∧
      decodeValidatedEvent rt bytes = .ok event := by
  rw [listEvents] at hlist
  obtain ⟨entries, hentries, hmap⟩ := bind_eq_ok.mp hlist
  obtain ⟨entry, hentry, hdecode⟩ := (mapM_spec hmap).2 event he
  obtain ⟨hbytes, hkey⟩ := decodeValidatedEntry_eq_ok.mp hdecode
  refine ⟨entry.bytes, ?_, hbytes⟩
  rw [hkey]
  exact Journal.mem_listRecordEntries.mp ((eventEntries_sublist_of_current hentries).subset hentry)

theorem nodup_listed : (events.map fun event => rt.sha256 event.idempotencyKey).Nodup := by
  rw [listEvents] at hlist
  obtain ⟨entries, hentries, hmap⟩ := bind_eq_ok.mp hlist
  have hnodup : (entries.map (·.keyDigest)).Nodup :=
    ((eventEntries_sublist_of_current hentries).map _).nodup (Journal.nodup_keyDigests journal)
  have hsame : events.map (fun event => rt.sha256 event.idempotencyKey) =
      entries.map (·.keyDigest) := by
    have hall := forall₂_of_mapM hmap
    clear hnodup hentries hmap hlist
    induction hall with
    | nil => rfl
    | cons hdecode _ ih => rw [List.map_cons, List.map_cons, ih, (decodeValidatedEntry_eq_ok.mp hdecode).2]
  rw [hsame]
  exact hnodup

theorem eq_of_listed_digest (he : event ∈ events) (he' : event' ∈ events)
    (hkey : rt.sha256 event.idempotencyKey = rt.sha256 event'.idempotencyKey) : event = event' :=
  List.inj_on_of_nodup_map (nodup_listed hlist) he he' hkey

theorem valid_of_listed (he : event ∈ events) : validateEvent rt event = .ok () := by
  obtain ⟨bytes, -, hdecode⟩ := get_of_listed hlist he
  exact decodeValidatedEvent_valid hdecode

theorem eq_of_listed_eventId (he : event ∈ events) (he' : event' ∈ events)
    (hid : event.eventId.asStr = event'.eventId.asStr) : event = event' := by
  refine eq_of_listed_digest hlist he he' ?_
  obtain ⟨-, -, hevent, -⟩ := validateEvent_eq_ok.mp (valid_of_listed hlist he)
  obtain ⟨-, -, hevent', -⟩ := validateEvent_eq_ok.mp (valid_of_listed hlist he')
  rw [hevent, hevent'] at hid
  exact List.append_cancel_left hid

/-- Listed events have different ids, are valid and are stored at the addresses of their keys. -/
theorem listed_events_sound : (events.map (·.eventId)).Nodup ∧
    ∀ event ∈ events, validateEvent rt event = .ok () ∧
      ∃ bytes, journal[rt.sha256 event.idempotencyKey]? = some bytes ∧
        decodeValidatedEvent rt bytes = .ok event := by
  refine ⟨(nodup_listed hlist).of_map.map_on ?_, fun event he =>
    ⟨valid_of_listed hlist he, get_of_listed hlist he⟩⟩
  intro e he e' he' hid
  exact eq_of_listed_eventId hlist he he' (congrArg _ hid)

end Listed

open StoreRecorded in
theorem migrated_listed : ∃ events, listEvents runtime migrated = .ok events ∧ events ≠ [] ∧
    (events.map (·.eventId)).Nodup := by
  have hrun : ∃ events, listEvents runtime migrated = .ok events ∧ events ≠ [] := by decide +kernel
  obtain ⟨events, hlist, hne⟩ := hrun
  exact ⟨events, hlist, hne, (listed_events_sound hlist).1⟩

/-- A stored event of a retired schema. -/
structure SkippedEvent where
  code : Text
  record : SchemaBreakRecord

section Lenient

variable {V B : Type} (rt : CapabilityRuntime V B)

/-- One turn of the lenient loop: a retired schema is set aside, any other failure ends it. -/
def decodeLenient (entry : JournalEntry B) : Result (StoredEvent V ⊕ SkippedEvent) :=
  match decodeValidatedEntry rt entry with
  | .ok event => .ok (.inl event)
  | .error (.unsupportedEventType record) => .ok (.inr ⟨text "unsupported_event_type", record⟩)
  | .error (.unsupportedEventEnvelope record) =>
    .ok (.inr ⟨text "unsupported_event_envelope", record⟩)
  | .error other => .error other

def listEventsLenient (journal : Journal B) :
    Result (List (StoredEvent V) × List SkippedEvent) := do
  let entries ← eventEntriesForCurrentProduct rt journal
  let read ← entries.mapM (decodeLenient rt)
  .ok (read.filterMap Sum.getLeft?, read.filterMap Sum.getRight?)

theorem decodeLenient_spec (entry : JournalEntry B) :
    (decodeLenient rt entry).toOption.bind Sum.getLeft? =
      (decodeValidatedEntry rt entry).toOption ∧
    ((∃ event, decodeValidatedEntry rt entry = .ok event) ↔
      (∃ x, decodeLenient rt entry = .ok x) ∧
        (decodeLenient rt entry).toOption.bind Sum.getRight? = none) := by
  rw [decodeLenient]
  split <;> simp [*, Except.toOption]

/-- The strict listing is the lenient one that skips nothing. -/
theorem listed_iff_none_skipped (journal : Journal B) (events : List (StoredEvent V)) :
    listEvents rt journal = .ok events ↔ listEventsLenient rt journal = .ok (events, []) := by
  simp only [listEvents, listEventsLenient, bind_eq_ok, mapM_eq_ok_iff, Except.ok.injEq,
    Prod.mk.injEq, and_assoc, exists_and_left, exists_eq_left, List.filterMap_filterMap,
    (decodeLenient_spec rt _).1]
  refine exists_congr fun entries => and_congr_right fun _ => ?_
  rw [eq_comm, List.filterMap_eq_nil_iff,
    forall₂_congr fun entry _ => (decodeLenient_spec rt entry).2]
  simp only [imp_and, forall_and, and_assoc, and_comm]

end Lenient

end Pointbreak
