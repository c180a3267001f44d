import Pointbreak.Store.Recorded
import Pointbreak.Store.Routing

/-!
# Store.BoundedStatus

The bounded reader against the complete router. Both find the activation at its fixed key, and a
completion that the router accepts can only be stored at the key that the bounded reader computes.
What the bounded reader does not see is that the record at one of the two keys may be an event.
-/

namespace Pointbreak

open Std Result Journal List

section Bounded

variable {V B : Type} {rt : CapabilityRuntime V B} {journal : Journal B}
  {active : StoreCapabilityActivationV1} {completion : BulkAdoptionCompletionV1}
  {digest key : Text} {bytes : B}
  {status : StoreCapabilityStatus} {record : RoutedRecord V}

theorem StoreCapabilityActivationV1.schema_of_validate (h : active.validate rt = .ok ()) :
    active.schema = ACTIVATION_SCHEMA_V1 := by
  simp only [validate, bind_eq_ok, ensure_eq_ok, Bool.and_eq_true, beq_iff_eq] at h
  obtain ⟨-, ⟨hschema, -⟩, -⟩ := h
  exact hschema

theorem BulkAdoptionCompletionV1.schema_of_validate (h : completion.validate rt = .ok ()) :
    completion.schema = COMPLETION_SCHEMA_V1 := by
  simp only [validate, bind_eq_ok, ensure_eq_ok, Bool.and_eq_true, beq_iff_eq] at h
  obtain ⟨-, ⟨hschema, -⟩, -⟩ := h
  exact hschema

theorem Binds.logicalKey (h : Binds rt completion active) (hvalid : completion.validate rt = .ok ()) :
    completion.logicalKey = expectedCompletionLogicalKey rt active := by
  simp only [BulkAdoptionCompletionV1.validate, bind_eq_ok, ensure_eq_ok,
    beq_iff_eq] at hvalid
  obtain ⟨-, -, -, hid, -⟩ := hvalid
  rw [BulkAdoptionCompletionV1.logicalKey, expectedCompletionLogicalKey, hid,
    BulkAdoptionCompletionV1.identityView, h.actor, h.activationId, h.manifest, h.coverage]

theorem bounded_of_absent (h : journal[rt.sha256 ROOT_ACTIVATION_LOGICAL_KEY_V1]? = none) :
    boundedWriterCapabilityStatus rt journal = .ok .migrationRequired := by
  rw [boundedWriterCapabilityStatus, readEventBytes, h]

structure HasRoot (rt : CapabilityRuntime V B) (journal : Journal B) (bytes : B)
    (active : StoreCapabilityActivationV1) : Prop where
  stored : journal[rt.sha256 ROOT_ACTIVATION_LOGICAL_KEY_V1]? = some bytes
  read : rt.activation bytes = .ok active
  valid : active.validate rt = .ok ()
  key : active.logicalKey = ROOT_ACTIVATION_LOGICAL_KEY_V1

theorem bounded_of_inProgress (h : HasRoot rt journal bytes active)
    (habsent : journal[rt.sha256 (expectedCompletionLogicalKey rt active)]? = none) :
    boundedWriterCapabilityStatus rt journal =
      .ok (.migrationInProgress active.activationId active.bulkAdoptionManifestHash) := by
  rw [boundedWriterCapabilityStatus, readEventBytes, h.stored]
  simp only [readEventBytes, bind_eq_ok, fromValue_eq_ok, ensure_eq_ok,
    beq_iff_eq]
  exact ⟨active, h.read, (), h.valid, (), h.key, by rw [habsent]⟩

theorem bounded_of_ready {completionBytes : B} (h : HasRoot rt journal bytes active)
    (hstored : journal[rt.sha256 (expectedCompletionLogicalKey rt active)]? = some completionBytes)
    (hread : rt.completion completionBytes = .ok completion)
    (hvalid : completion.validate rt = .ok ()) (hbinds : Binds rt completion active) :
    boundedWriterCapabilityStatus rt journal = .ok (.ready active.activationId
      active.bulkAdoptionManifestHash completion.completionId) := by
  rw [boundedWriterCapabilityStatus, readEventBytes, h.stored]
  simp only [readEventBytes, bind_eq_ok, fromValue_eq_ok, ensure_eq_ok,
    beq_iff_eq]
  refine ⟨active, h.read, (), h.valid, (), h.key, ?_⟩
  rw [hstored]
  simp only [validateBoundedChangeCapabilityRecords, bind_eq_ok, fromValue_eq_ok,
    ensure_eq_ok, Bool.and_eq_true, beq_iff_eq]
  exact ⟨_, ⟨active, h.read, (), h.valid, (), h.key, completion, hread, (), hvalid, (),
    hbinds.logicalKey hvalid, (), hbinds.actor, (), ⟨hbinds.activationId, hbinds.manifest⟩, (),
    hbinds.coverage, rfl⟩, rfl⟩

theorem bounded_present (hstored : journal[rt.sha256 ROOT_ACTIVATION_LOGICAL_KEY_V1]? = some bytes)
    (h : boundedWriterCapabilityStatus rt journal = .ok status) :
    ∃ active, HasRoot rt journal bytes active ∧
      ∀ completionBytes, journal[rt.sha256 (expectedCompletionLogicalKey rt active)]? =
          some completionBytes →
        ∃ completion, rt.completion completionBytes = .ok completion ∧
          completion.validate rt = .ok () := by
  rw [boundedWriterCapabilityStatus, readEventBytes, hstored] at h
  simp only [readEventBytes, bind_eq_ok, fromValue_eq_ok, ensure_eq_ok,
    beq_iff_eq] at h
  obtain ⟨active, hread, ⟨⟩, hvalid, -, hkey, h⟩ := h
  refine ⟨active, ⟨hstored, hread, hvalid, hkey⟩, ?_⟩
  intro completionBytes hcompletion
  rw [hcompletion] at h
  simp only [validateBoundedChangeCapabilityRecords, bind_eq_ok, fromValue_eq_ok] at h
  obtain ⟨-, ⟨-, -, ⟨⟩, -, -, -, completion, hread, ⟨⟩, hvalid, -⟩, -⟩ := h
  exact ⟨completion, hread, hvalid⟩

theorem not_event_of_activation (hrt : ControlRecordsRead rt)
    (hread : rt.activation bytes = .ok active) (hvalid : active.validate rt = .ok ()) :
    rt.schemaProbe bytes ≠ .ok (text "shore.event") := by
  rw [hrt.activation hread, active.schema_of_validate hvalid]
  intro h
  exact event_schema_ne.1 (Except.ok.inj h).symm

theorem not_event_of_completion (hrt : ControlRecordsRead rt)
    (hread : rt.completion bytes = .ok completion) (hvalid : completion.validate rt = .ok ()) :
    rt.schemaProbe bytes ≠ .ok (text "shore.event") := by
  rw [hrt.completion hread, completion.schema_of_validate hvalid]
  intro h
  exact event_schema_ne.2.1 (Except.ok.inj h).symm

theorem root_ne_completionKey (completionId : Text) :
    ROOT_ACTIVATION_LOGICAL_KEY_V1 ≠ completionLogicalKey completionId := by
  have hhead : ∀ key : Text, key.head? = some 115 → key ≠ completionLogicalKey completionId := by
    rintro key hkey rfl
    have hb : (completionLogicalKey completionId).head? = some 98 := rfl
    rw [hb] at hkey
    cases hkey
  exact hhead _ rfl

variable (rt) in
/-- The Journal has an event with this idempotency key. -/
def StoresEvent (journal : Journal B) (key : Text) : Prop :=
  ∃ (digest : Text) (bytes : B) (probe : EventProbe V), journal[digest]? = some bytes ∧
    rt.schemaProbe bytes = .ok (text "shore.event") ∧ rt.eventProbe bytes = .ok probe ∧
    probe.idempotencyKey = key

variable (rt) in
/-- A key that the bounded reader looks at: the fixed one, or the one that an activation in the
Journal determines. -/
def ControlKey (journal : Journal B) (key : Text) : Prop :=
  key = ROOT_ACTIVATION_LOGICAL_KEY_V1 ∨
    ∃ (digest : Text) (bytes : B) (active : StoreCapabilityActivationV1),
      journal[digest]? = some bytes ∧ rt.schemaProbe bytes = .ok ACTIVATION_SCHEMA_V1 ∧
      rt.activation bytes = .ok active ∧ key = expectedCompletionLogicalKey rt active

variable (rt) in
def storedEventKeys (journal : Journal B) : List Text :=
  journal.listRecordEntries.filterMap fun entry =>
    match rt.schemaProbe entry.bytes, rt.eventProbe entry.bytes with
    | .ok schema, .ok probe =>
      if schema = text "shore.event" then some probe.idempotencyKey else none
    | _, _ => none

variable (rt) in
def controlKeys (journal : Journal B) : List Text :=
  ROOT_ACTIVATION_LOGICAL_KEY_V1 :: journal.listRecordEntries.filterMap fun entry =>
    match rt.schemaProbe entry.bytes, rt.activation entry.bytes with
    | .ok schema, .ok active =>
      if schema = ACTIVATION_SCHEMA_V1 then some (expectedCompletionLogicalKey rt active) else none
    | _, _ => none

theorem mem_storedEventKeys : key ∈ storedEventKeys rt journal ↔ StoresEvent rt journal key := by
  simp only [storedEventKeys, mem_filterMap, mem_listRecordEntries, StoresEvent]
  constructor
  · rintro ⟨⟨digest, bytes⟩, hget, h⟩
    split at h
    · rename_i schema probe hschema hprobe
      split at h
      · rename_i hs
        cases h
        exact ⟨digest, bytes, probe, hget, hs ▸ hschema, hprobe, rfl⟩
      · cases h
    · cases h
  · rintro ⟨digest, bytes, probe, hget, hschema, hprobe, rfl⟩
    exact ⟨⟨digest, bytes⟩, hget, by simp [hschema, hprobe]⟩

theorem mem_controlKeys : key ∈ controlKeys rt journal ↔ ControlKey rt journal key := by
  simp only [controlKeys, mem_cons, mem_filterMap, mem_listRecordEntries,
    ControlKey]
  refine or_congr_right ⟨?_, ?_⟩
  · rintro ⟨⟨digest, bytes⟩, hget, h⟩
    split at h
    · rename_i schema active hschema hread
      split at h
      · rename_i hs
        cases h
        exact ⟨digest, bytes, active, hget, hs ▸ hschema, hread, rfl⟩
      · cases h
    · cases h
  · rintro ⟨digest, bytes, active, hget, hschema, hread, rfl⟩
    exact ⟨⟨digest, bytes⟩, hget, by simp [hschema, hread]⟩

variable (rt) in
/-- SHA-256 tells the control keys from each other and from the keys of the events. -/
def ControlKeysCollisionFree (journal : Journal B) : Prop :=
  ∀ key ∈ storedEventKeys rt journal ++ controlKeys rt journal, ∀ control ∈ controlKeys rt journal,
    rt.sha256 key = rt.sha256 control → key = control

section Agreement

variable {routed : List (RoutedEntry V B)}
  (hrouted : journal.listRecordEntries.mapM (routeEntry rt) = .ok routed)

include hrouted

theorem stored_of_storesEvent (h : StoresEvent rt journal key) :
    ∃ bytes, journal[rt.sha256 key]? = some bytes ∧
      rt.schemaProbe bytes = .ok (text "shore.event") := by
  obtain ⟨digest, bytes, probe, hget, hschema, hprobe, rfl⟩ := h
  obtain ⟨r, -, -, hroutes⟩ := routed_of_get hrouted hget
  generalize r.record = record at hroutes
  cases hroutes with
  | event _ hprobe' hvalid =>
    cases hprobe.symm.trans hprobe'
    simp only [validateEventProbe, bind_eq_ok, ensure_eq_ok, beq_iff_eq] at hvalid
    obtain ⟨-, -, -, hdigest, -⟩ := hvalid
    exact ⟨bytes, hdigest ▸ hget, hschema⟩
  | activation hschema' =>
    exact absurd (Except.ok.inj (hschema.symm.trans hschema')) event_schema_ne.1
  | completion hschema' =>
    exact absurd (Except.ok.inj (hschema.symm.trans hschema')) event_schema_ne.2.1

theorem activation_routed (hget : journal[digest]? = some bytes)
    (hschema : rt.schemaProbe bytes = .ok ACTIVATION_SCHEMA_V1)
    (hread : rt.activation bytes = .ok active) : active ∈ routedActivations routed := by
  obtain ⟨r, hr, -, hroutes⟩ := routed_of_get hrouted hget
  refine mem_routedActivations.mpr ⟨r, hr, ?_⟩
  generalize r.record = record at hroutes
  cases hroutes with
  | event hschema' =>
    exact absurd (Except.ok.inj (hschema'.symm.trans hschema)) event_schema_ne.1
  | activation _ hread' => cases hread.symm.trans hread'; rfl
  | completion hschema' =>
    exact absurd (Except.ok.inj (hschema.symm.trans hschema')) event_schema_ne.2.2

theorem hasRoot_of_routed (hactivations : routedActivations routed = [active])
    (hroot : active.predecessorActivationId = none) : ∃ bytes, HasRoot rt journal bytes active := by
  obtain ⟨r, hr, hrecord⟩ := mem_routedActivations.mp (hactivations ▸ mem_singleton_self active)
  obtain ⟨hget, hroutes⟩ := get_of_routed hrouted hr
  rw [hrecord] at hroutes
  have hkey : active.logicalKey = ROOT_ACTIVATION_LOGICAL_KEY_V1 := by
    rw [StoreCapabilityActivationV1.logicalKey, hroot]
  cases hroutes with
  | activation _ hread hvalid hdigest =>
    rw [← hdigest, hkey] at hget
    exact ⟨_, hget, hread, hvalid, hkey⟩

theorem controlKey_iff (hactivations : routedActivations routed = [active])
    (hstored : HasRoot rt journal bytes active) (hrt : ControlRecordsRead rt) :
    ControlKey rt journal key ↔
      key = ROOT_ACTIVATION_LOGICAL_KEY_V1 ∨ key = expectedCompletionLogicalKey rt active := by
  refine or_congr_right ⟨?_, ?_⟩
  · rintro ⟨digest, bytes, active', hget, hschema, hread, rfl⟩
    have hmem := activation_routed hrouted hget hschema hread
    rw [hactivations, mem_singleton] at hmem
    rw [hmem]
  · rintro rfl
    exact ⟨_, bytes, active, hstored.stored,
      by rw [hrt.activation hstored.read, active.schema_of_validate hstored.valid],
      hstored.read, rfl⟩

variable (hrt : ControlRecordsRead rt)

theorem event_not_at_root {rootBytes : B} (hroot : HasRoot rt journal rootBytes active)
    (hrt : ControlRecordsRead rt) : ¬ StoresEvent rt journal ROOT_ACTIVATION_LOGICAL_KEY_V1 := by
  intro hstores
  obtain ⟨bytes, hget, hschema⟩ := stored_of_storesEvent hrouted hstores
  cases hroot.stored.symm.trans hget
  exact not_event_of_activation hrt hroot.read hroot.valid hschema

variable (hcollision : ControlKeysCollisionFree rt journal)

include hcollision

omit hrouted in
theorem storesEvent_of_routes {probe : EventProbe V} (hcontrol : ControlKey rt journal key)
    (hget : journal[rt.sha256 key]? = some bytes)
    (hroutes : Routes rt ⟨rt.sha256 key, bytes⟩ (.event probe)) : StoresEvent rt journal key := by
  cases hroutes with
  | event hschema hprobe hvalid =>
    have hstores : StoresEvent rt journal probe.idempotencyKey :=
      ⟨_, bytes, probe, hget, hschema, hprobe, rfl⟩
    simp only [validateEventProbe, bind_eq_ok, ensure_eq_ok, beq_iff_eq] at hvalid
    obtain ⟨-, -, -, hdigest, -⟩ := hvalid
    rw [← hcollision _ (mem_append_left _ (mem_storedEventKeys.mpr hstores)) _
      (mem_controlKeys.mpr hcontrol) hdigest.symm]
    exact hstores

include hrt

theorem bounded_required_iff (hactivations : routedActivations routed = [])
    (hcompletions : routedCompletions routed = []) :
    boundedWriterCapabilityStatus rt journal = .ok .migrationRequired ↔
      ∀ key, StoresEvent rt journal key → ¬ ControlKey rt journal key := by
  constructor
  · intro hbounded key hstores hcontrol
    obtain rfl | ⟨digest, bytes, active, hget, hschema, hread, -⟩ := hcontrol
    · obtain ⟨bytes, hget, hschema⟩ := stored_of_storesEvent hrouted hstores
      obtain ⟨active, hroot, -⟩ := bounded_present hget hbounded
      exact not_event_of_activation hrt hroot.read hroot.valid hschema
    · simpa [hactivations] using activation_routed hrouted hget hschema hread
  · intro hfree
    refine bounded_of_absent (Option.eq_none_iff_forall_ne_some.mpr ?_)
    intro bytes hget
    obtain ⟨r, hr, -, hroutes⟩ := routed_of_get hrouted hget
    cases hrecord : r.record with
    | event probe =>
      rw [hrecord] at hroutes
      exact hfree _ (storesEvent_of_routes hcollision (.inl rfl) hget hroutes) (.inl rfl)
    | activation active =>
      simpa [hactivations] using mem_routedActivations.mpr ⟨r, hr, hrecord⟩
    | completion completion =>
      simpa [hcompletions] using mem_routedCompletions.mpr ⟨r, hr, hrecord⟩

theorem bounded_inProgress_iff (hactivations : routedActivations routed = [active])
    (hnone : active.predecessorActivationId = none)
    (hcompletions : routedCompletions routed = []) :
    boundedWriterCapabilityStatus rt journal =
        .ok (.migrationInProgress active.activationId active.bulkAdoptionManifestHash) ↔
      ∀ key, StoresEvent rt journal key → ¬ ControlKey rt journal key := by
  obtain ⟨rootBytes, hroot⟩ := hasRoot_of_routed hrouted hactivations hnone
  have hkeys : ∀ key, ControlKey rt journal key ↔ key = ROOT_ACTIVATION_LOGICAL_KEY_V1 ∨
      key = expectedCompletionLogicalKey rt active :=
    fun key => controlKey_iff hrouted hactivations hroot hrt
  constructor
  · intro hbounded key hstores hcontrol
    obtain rfl | rfl := (hkeys key).mp hcontrol
    · exact event_not_at_root hrouted hroot hrt hstores
    · obtain ⟨bytes, hget, hschema⟩ := stored_of_storesEvent hrouted hstores
      obtain ⟨active', hroot', hcompletion⟩ := bounded_present hroot.stored hbounded
      cases hroot.read.symm.trans hroot'.read
      obtain ⟨completion, hread, hvalid⟩ := hcompletion bytes hget
      exact not_event_of_completion hrt hread hvalid hschema
  · intro hfree
    refine bounded_of_inProgress hroot (Option.eq_none_iff_forall_ne_some.mpr ?_)
    intro bytes hget
    have hcontrol := (hkeys _).mpr (.inr rfl)
    obtain ⟨r, hr, hentry, hroutes⟩ := routed_of_get hrouted hget
    cases hrecord : r.record with
    | event probe =>
      rw [hrecord] at hroutes
      exact hfree _ (storesEvent_of_routes hcollision hcontrol hget hroutes) hcontrol
    | activation active' =>
      -- the one activation is at the fixed key, which is another one
      have hmem := mem_routedActivations.mpr ⟨r, hr, hrecord⟩
      rw [hactivations, mem_singleton] at hmem
      subst hmem
      rw [hrecord] at hroutes
      cases hroutes with
      | activation _ _ _ hdigest =>
        rw [hroot.key] at hdigest
        exact root_ne_completionKey _ (hcollision _ (mem_append_right _ (.head _)) _
          (mem_controlKeys.mpr hcontrol) hdigest)
    | completion completion =>
      simpa [hcompletions] using mem_routedCompletions.mpr ⟨r, hr, hrecord⟩

omit hcollision in
/-- In a Journal with the completion no event can be at one of the two keys. -/
theorem bounded_ready (hactivations : routedActivations routed = [active])
    (hnone : active.predecessorActivationId = none)
    (hcompletions : routedCompletions routed = [completion]) (hbinds : Binds rt completion active) :
    boundedWriterCapabilityStatus rt journal = .ok (.ready active.activationId
        active.bulkAdoptionManifestHash completion.completionId) ∧
      ∀ key, StoresEvent rt journal key → ¬ ControlKey rt journal key := by
  obtain ⟨rootBytes, hroot⟩ := hasRoot_of_routed hrouted hactivations hnone
  obtain ⟨r, hr, hrecord⟩ :=
    mem_routedCompletions.mp (hcompletions ▸ mem_singleton_self completion)
  obtain ⟨hget, hroutes⟩ := get_of_routed hrouted hr
  rw [hrecord] at hroutes
  obtain _ | _ | ⟨-, hread, hvalid, hdigest⟩ := hroutes
  rw [← hdigest, hbinds.logicalKey hvalid] at hget
  refine ⟨bounded_of_ready hroot hget hread hvalid hbinds, ?_⟩
  intro key hstores hcontrol
  obtain rfl | rfl := (controlKey_iff hrouted hactivations hroot hrt).mp hcontrol
  · exact event_not_at_root hrouted hroot hrt hstores
  · obtain ⟨bytes', hget', hschema⟩ := stored_of_storesEvent hrouted hstores
    cases hget.symm.trans hget'
    exact not_event_of_completion hrt hread hvalid hschema

end Agreement

/-- The bounded reader gives the status that the complete router gives, unless the Journal has an
event under the activation key or under the completion key of its activation. -/
theorem bounded_agrees_iff {inspection : JournalInspection B} (hrt : ControlRecordsRead rt)
    (hcollision : ControlKeysCollisionFree rt journal)
    (hroute : inspectJournalRecords rt journal = .ok inspection) :
    boundedWriterCapabilityStatus rt journal = .ok inspection.status ↔
      ∀ key ∈ storedEventKeys rt journal, key ∉ controlKeys rt journal := by
  simp only [mem_storedEventKeys, mem_controlKeys]
  obtain ⟨routed, hrouted, hstatus, -⟩ := hasStatus_of_route hroute
  generalize inspection.status = status at hstatus
  cases hstatus with
  | required hactivations hcompletions hevents =>
    exact bounded_required_iff hrouted hrt hcollision hactivations hcompletions
  | inProgress hactivations hnone hcompletions hinitial =>
    exact bounded_inProgress_iff hrouted hrt hcollision hactivations hnone hcompletions
  | ready hactivations hnone hcompletions hcovered =>
    have h := bounded_ready hrouted hrt hactivations hnone hcompletions
      (binds_of_validateCompletion hcovered)
    exact ⟨fun _ => h.2, fun _ => h.1⟩

end Bounded

namespace StoreRecorded

theorem migrated_bounded : ∃ inspection, inspectJournalRecords runtime migrated = .ok inspection ∧
    boundedWriterCapabilityStatus runtime migrated = .ok inspection.status ∧
    inspection.status = .ready activation.activationId (manifest.canonicalHash checksum)
      completion.completionId := by
  have hrun : (∃ inspection, inspectJournalRecords runtime migrated = .ok inspection ∧
        inspection.status = .ready activation.activationId (manifest.canonicalHash checksum)
          completion.completionId) ∧
      (∀ key ∈ storedEventKeys runtime migrated ++ controlKeys runtime migrated,
        ∀ control ∈ controlKeys runtime migrated,
          runtime.sha256 key = runtime.sha256 control → key = control) ∧
      ∀ key ∈ storedEventKeys runtime migrated, key ∉ controlKeys runtime migrated := by
    decide +kernel
  obtain ⟨⟨inspection, hok, hstatus⟩, hcollision, hfree⟩ := hrun
  exact ⟨inspection, hok, (bounded_agrees_iff controlRecordsRead hcollision hok).mpr hfree, hstatus⟩

/-- A note under the activation key. -/
def squatter : StoredEvent StorePayload :=
  event .reviewNoteImported ROOT_ACTIVATION_LOGICAL_KEY_V1 (.other (text "note"))

/-- The router takes the note for an event like any other; the bounded reader takes it for an
activation that it cannot read. -/
theorem squatter_bounded_fails : ∃ journal : Journal StoredRecord,
    journal = journalOf [(squatter.idempotencyKey, .event squatter)] ∧
    (∃ inspection, inspectJournalRecords runtime journal = .ok inspection ∧
      inspection.status = .migrationRequired) ∧
    ∃ error, boundedWriterCapabilityStatus runtime journal = .error error := by
  refine ⟨_, rfl, ?_⟩
  decide +kernel

end StoreRecorded

end Pointbreak
