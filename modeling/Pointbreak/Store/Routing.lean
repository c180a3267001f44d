import Pointbreak.Store.Capabilities

/-!
# Store.Routing

What the complete router accepts, said about the records and not about the loop: `Routes` for one
record, `HasStatus` for the records of a Journal, in whatever order (`hasStatus_of_route`,
`route_of_hasStatus`).
-/

namespace Pointbreak

open Std Result List

variable {V B : Type} (rt : CapabilityRuntime V B)

/-- The record is valid for the address it is stored at. -/
inductive Routes (entry : JournalEntry B) : RoutedRecord V → Prop where
  | event {probe : EventProbe V} (hschema : rt.schemaProbe entry.bytes = .ok (text "shore.event"))
      (hprobe : rt.eventProbe entry.bytes = .ok probe)
      (hvalid : validateEventProbe rt probe entry.keyDigest = .ok ()) : Routes entry (.event probe)
  | activation {activation : StoreCapabilityActivationV1}
      (hschema : rt.schemaProbe entry.bytes = .ok ACTIVATION_SCHEMA_V1)
      (hread : rt.activation entry.bytes = .ok activation)
      (hvalid : activation.validate rt = .ok ())
      (hkey : rt.sha256 activation.logicalKey = entry.keyDigest) :
      Routes entry (.activation activation)
  | completion {completion : BulkAdoptionCompletionV1}
      (hschema : rt.schemaProbe entry.bytes = .ok COMPLETION_SCHEMA_V1)
      (hread : rt.completion entry.bytes = .ok completion)
      (hvalid : completion.validate rt = .ok ())
      (hkey : rt.sha256 completion.logicalKey = entry.keyDigest) :
      Routes entry (.completion completion)

variable {rt} {entry : JournalEntry B} {r : RoutedEntry V B} {entries : List (JournalEntry B)}
  {routed : List (RoutedEntry V B)} {journal : Journal B}

theorem event_schema_ne : text "shore.event" ≠ ACTIVATION_SCHEMA_V1 ∧
    text "shore.event" ≠ COMPLETION_SCHEMA_V1 ∧ ACTIVATION_SCHEMA_V1 ≠ COMPLETION_SCHEMA_V1 := by
  decide +kernel

theorem routeEntry_eq_ok : routeEntry rt entry = .ok r ↔
    r.entry = entry ∧ Routes rt entry r.record ∧
      journalRecordIdentity rt entry (r.record.event?.map (·.payloadHash)) = .ok r.identity := by
  simp only [routeEntry, bind_eq_ok, mapError_eq_ok, fromValue_eq_ok,
    validateLogicalKeyDigest, ensure_eq_ok, beq_iff_eq, apply_ite (· = Except.ok r),
    Except.ok.injEq, reduceCtorEq]
  constructor
  · rintro ⟨schema, hschema, h⟩
    split_ifs at h with hs hs hs
    · obtain ⟨probe, hprobe, u, hvalid, identity, hidentity, rfl⟩ := h
      exact ⟨rfl, .event (hs ▸ hschema) hprobe hvalid, hidentity⟩
    · obtain ⟨activation, hread, u, hvalid, u', hkey, identity, hidentity, rfl⟩ := h
      exact ⟨rfl, .activation (hs ▸ hschema) hread hvalid hkey, hidentity⟩
    · obtain ⟨completion, hread, u, hvalid, u', hkey, identity, hidentity, rfl⟩ := h
      exact ⟨rfl, .completion (hs ▸ hschema) hread hvalid hkey, hidentity⟩
  · obtain ⟨entry', record, identity⟩ := r
    rintro ⟨rfl, hroutes, hidentity⟩
    obtain ⟨hne, hne', hne''⟩ := event_schema_ne
    cases hroutes with
    | event hschema hprobe hvalid =>
      refine ⟨_, hschema, ?_⟩
      rw [if_pos rfl]
      exact ⟨_, hprobe, (), hvalid, identity, hidentity, rfl⟩
    | activation hschema hread hvalid hkey =>
      refine ⟨_, hschema, ?_⟩
      rw [if_neg hne.symm, if_pos rfl]
      exact ⟨_, hread, (), hvalid, (), hkey, identity, hidentity, rfl⟩
    | completion hschema hread hvalid hkey =>
      refine ⟨_, hschema, ?_⟩
      rw [if_neg hne'.symm, if_neg hne''.symm, if_pos rfl]
      exact ⟨_, hread, (), hvalid, (), hkey, identity, hidentity, rfl⟩

variable (rt) in
/-- The completion is the one that this activation waits for. -/
structure Binds (completion : BulkAdoptionCompletionV1) (active : StoreCapabilityActivationV1) :
    Prop where
  actor : completion.writer.actorId = active.writer.actorId
  activationId : completion.activationId = active.activationId
  manifest : completion.bulkAdoptionManifestHash = active.bulkAdoptionManifestHash
  coverage : completion.coveredRecordSetHash =
    reservedRecordSetHash rt.sha256 active.bulkAdoptionManifest.reservedRecords

variable {completion : BulkAdoptionCompletionV1} {active : StoreCapabilityActivationV1}

theorem binds_of_validateCompletion (h : validateCompletion rt completion active entries = .ok ()) :
    Binds rt completion active := by
  simp only [validateCompletion, bind_eq_ok, ensure_eq_ok, Bool.and_eq_true,
    beq_iff_eq] at h
  obtain ⟨-, hactor, -, ⟨hid, hmanifest⟩, -, -, hcoverage⟩ := h
  exact ⟨hactor, hid, hmanifest, hcoverage⟩

theorem validateCompletion_eq_ok (hnodup : (entries.map (·.keyDigest)).Nodup) :
    validateCompletion rt completion active entries = .ok () ↔ Binds rt completion active ∧
      ∀ reservation ∈ active.bulkAdoptionManifest.reservedRecords, ∃ entry ∈ entries,
        entry.keyDigest = rt.sha256 reservation.logicalKey ∧
        text "sha256:" ++ rt.bytesSha256 entry.bytes = reservation.recordHash := by
  have hdigests : ((entries.map fun entry => (entry.keyDigest, entry)).map Prod.fst).Nodup := by
    rwa [map_map]
  simp only [validateCompletion, bind_eq_ok, ensure_eq_ok, Bool.and_eq_true,
    beq_iff_eq, okOr_eq_ok, forM_eq_ok_iff, validateReservedBytes,
    BTreeMap.get_collect hdigests, mem_map, Prod.mk.injEq]
  constructor
  · rintro ⟨-, hactor, -, ⟨hid, hmanifest⟩, -, hcovered, hcoverage⟩
    refine ⟨⟨hactor, hid, hmanifest, hcoverage⟩, ?_⟩
    intro reservation hreservation
    obtain ⟨entry, ⟨_, hentry, hdigest, rfl⟩, hbytes⟩ := hcovered reservation hreservation
    exact ⟨_, hentry, hdigest, hbytes⟩
  · rintro ⟨hbinds, hcovered⟩
    refine ⟨(), hbinds.actor, (), ⟨hbinds.activationId, hbinds.manifest⟩, (), ?_, hbinds.coverage⟩
    intro reservation hreservation
    obtain ⟨entry, hentry, hdigest, hbytes⟩ := hcovered reservation hreservation
    exact ⟨entry, ⟨entry, hentry, hdigest, rfl⟩, hbytes⟩

variable (rt) in
/-- The status that these records stand for. Before the completion, an event of the cohort has to be
a reserved one; from the completion on, every reserved event is there. -/
inductive HasStatus (routed : List (RoutedEntry V B)) : StoreCapabilityStatus → Prop where
  | required (hactivations : routedActivations routed = [])
      (hcompletions : routedCompletions routed = [])
      (hevents : ∀ e ∈ routedEvents routed, isReservedEventCode e.2.eventType = false) :
      HasStatus routed .migrationRequired
  | inProgress {active : StoreCapabilityActivationV1}
      (hactivations : routedActivations routed = [active])
      (hroot : active.predecessorActivationId = none)
      (hcompletions : routedCompletions routed = [])
      (hinitial : validateMigrationPrefix rt active (routedEvents routed) = .ok ()) :
      HasStatus routed
        (.migrationInProgress active.activationId active.bulkAdoptionManifestHash)
  | ready {active : StoreCapabilityActivationV1} {completion : BulkAdoptionCompletionV1}
      (hactivations : routedActivations routed = [active])
      (hroot : active.predecessorActivationId = none)
      (hcompletions : routedCompletions routed = [completion])
      (hcovered : validateCompletion rt completion active
        ((routedEvents routed).map Prod.fst) = .ok ()) :
      HasStatus routed (.ready active.activationId active.bulkAdoptionManifestHash
        completion.completionId)

theorem validateActivationChain_eq_ok {activations : List StoreCapabilityActivationV1} :
    validateActivationChain activations = .ok active ↔
      activations = [active] ∧ active.predecessorActivationId = none := by
  match activations with
  | [] => simp [validateActivationChain]
  | [root] =>
    simp only [validateActivationChain, bind_eq_ok, ensure_eq_ok,
      Option.isNone_iff_eq_none, Except.ok.injEq, exists_const_iff, List.cons.injEq, and_true]
    constructor
    · rintro ⟨-, hroot, rfl⟩
      exact ⟨rfl, hroot⟩
    · rintro ⟨rfl, hroot⟩
      exact ⟨⟨()⟩, hroot, rfl⟩
  | _ :: _ :: _ => simp [validateActivationChain]

variable {status : StoreCapabilityStatus}

theorem hasStatus_of_routedStatus (hactivations : routedActivations routed = [active])
    (hroot : active.predecessorActivationId = none)
    (h : routedStatus rt active routed = .ok status) : HasStatus rt routed status := by
  rw [routedStatus] at h
  split at h
  · rename_i hcompletions
    obtain ⟨u, hinitial, h⟩ := bind_eq_ok.mp h
    cases h
    exact .inProgress hactivations hroot hcompletions hinitial
  · rename_i completion hcompletions
    obtain ⟨u, hcovered, h⟩ := bind_eq_ok.mp h
    cases h
    exact .ready hactivations hroot hcompletions hcovered
  · cases h

theorem hasStatus_of_route {inspection : JournalInspection B}
    (h : routeJournalEntries rt entries = .ok inspection) :
    ∃ routed, entries.mapM (routeEntry rt) = .ok routed ∧ HasStatus rt routed inspection.status ∧
      inspection.eventEntries = (routedEvents routed).map Prod.fst := by
  rw [routeJournalEntries] at h
  obtain ⟨routed, hrouted, h⟩ := bind_eq_ok.mp h
  refine ⟨routed, hrouted, ?_⟩
  split at h
  · rename_i hactivations
    simp only [bind_eq_ok, ensure_eq_ok, Bool.and_eq_true, List.isEmpty_iff,
      Bool.not_eq_true', List.any_eq_false, Bool.not_eq_true] at h
    obtain ⟨u, ⟨hcompletions, hevents⟩, cursor, -, h⟩ := h
    cases h
    exact ⟨.required hactivations hcompletions hevents, rfl⟩
  · simp only [bind_eq_ok, validateActivationChain_eq_ok] at h
    obtain ⟨active, ⟨hactivations, hroot⟩, status, hstatus, cursor, -, h⟩ := h
    cases h
    exact ⟨hasStatus_of_routedStatus hactivations hroot hstatus, rfl⟩

theorem mem_routedEvents {e : JournalEntry B × EventProbe V} :
    e ∈ routedEvents routed ↔ ∃ r ∈ routed, r.entry = e.1 ∧ r.record = .event e.2 := by
  simp only [routedEvents, mem_filterMap, Option.map_eq_some_iff, RoutedRecord.event?_eq_some]
  constructor
  · rintro ⟨r, hr, probe, hrecord, rfl⟩
    exact ⟨r, hr, rfl, hrecord⟩
  · rintro ⟨r, hr, hentry, hrecord⟩
    exact ⟨r, hr, e.2, hrecord, by rw [hentry]⟩

theorem mem_routedActivations {activation : StoreCapabilityActivationV1} :
    activation ∈ routedActivations routed ↔ ∃ r ∈ routed, r.record = .activation activation := by
  simp [routedActivations]

theorem mem_routedCompletions :
    completion ∈ routedCompletions routed ↔ ∃ r ∈ routed, r.record = .completion completion := by
  simp [routedCompletions]

theorem routed_of_get (hrouted : journal.listRecordEntries.mapM (routeEntry rt) = .ok routed)
    {digest : Text} {bytes : B} (h : journal[digest]? = some bytes) :
    ∃ r ∈ routed, r.entry = ⟨digest, bytes⟩ ∧ Routes rt ⟨digest, bytes⟩ r.record := by
  have hmem : (⟨digest, bytes⟩ : JournalEntry B) ∈ journal.listRecordEntries :=
    Journal.mem_listRecordEntries.mpr h
  obtain ⟨r, hr, hroute⟩ := exists_of_mem_mapM hrouted hmem
  obtain ⟨hentry, hroutes, -⟩ := routeEntry_eq_ok.mp hroute
  exact ⟨r, hr, hentry, hroutes⟩

theorem get_of_routed (hrouted : journal.listRecordEntries.mapM (routeEntry rt) = .ok routed)
    (hr : r ∈ routed) : journal[r.entry.keyDigest]? = some r.entry.bytes ∧
      Routes rt r.entry r.record := by
  obtain ⟨entry, hentry, hroute⟩ := (mapM_spec hrouted).2 r hr
  obtain ⟨rfl, hroutes, -⟩ := routeEntry_eq_ok.mp hroute
  exact ⟨Journal.mem_listRecordEntries.mp hentry, hroutes⟩

variable (rt) in
/-- Digests are sixty-four lowercase hexadecimal digits. -/
structure HexDigests : Prop where
  sha256 : ∀ bytes, Text.isHexOfLength 64 (rt.sha256 bytes) = true
  bytesSha256 : ∀ bytes, Text.isHexOfLength 64 (rt.bytesSha256 bytes) = true

@[simp] theorem isPrefixedSha256_append (digest : Text) :
    isPrefixedSha256 (text "sha256:" ++ digest) = Text.isHexOfLength 64 digest := by
  have hlen : (text "sha256:").length = 7 := by decide +kernel
  have hinitial : (text "sha256:").isPrefixOf (text "sha256:" ++ digest) = true :=
    isPrefixOf_iff_prefix.mpr (prefix_append ..)
  rw [isPrefixedSha256, hinitial, ← hlen, drop_left, Bool.true_and]

variable {identity : JournalRecordIdentityV1}

theorem JournalRecordIdentityV1.validate_eq_ok {u : Unit} :
    identity.validate = .ok u ↔ Text.isHexOfLength 64 identity.keyDigest = true ∧
      isPrefixedSha256 identity.recordSha256 = true ∧
      identity.eventPayloadSha256.all isPrefixedSha256 = true := by
  simp [validate]

variable {identities : List JournalRecordIdentityV1}

theorem hasAdjacentDuplicate_eq_false
    (h : (identities.map (·.keyDigest)).Nodup) : hasAdjacentDuplicate identities = false := by
  induction identities with
  | nil => rfl
  | cons a rest ih =>
    cases rest with
    | nil => rfl
    | cons b rest =>
      rw [map_cons, nodup_cons] at h
      rw [hasAdjacentDuplicate, ih h.2, Bool.or_false, beq_eq_false_iff_ne]
      intro heq
      exact h.1 (heq ▸ mem_map_of_mem (.head _))

theorem cursor_of_valid {sha : Sha256} {hash : Text}
    (hhash : isPrefixedSha256 hash = true) (hvalid : ∀ i ∈ identities, i.validate = .ok ())
    (hnodup : (identities.map (·.keyDigest)).Nodup) :
    ∃ cursor, authorityCursorFromRecordIdentities sha identities hash = .ok cursor := by
  have hsorted : hasAdjacentDuplicate (identities.insertionSort digestLE) = false :=
    hasAdjacentDuplicate_eq_false
      (((perm_insertionSort digestLE identities).map _).nodup_iff.mpr hnodup)
  simp only [authorityCursorFromRecordIdentities, bind_eq_ok, ensure_eq_ok,
    forM_eq_ok_iff, hsorted, Bool.not_false]
  exact ⟨_, (), hhash, (), hvalid, (), trivial, rfl⟩

theorem journalRecordIdentity_eq_ok {payloadHash : Option Text} :
    journalRecordIdentity rt entry payloadHash = .ok identity ↔
      identity = ⟨entry.keyDigest, text "sha256:" ++ rt.bytesSha256 entry.bytes, payloadHash⟩ ∧
      identity.validate = .ok () := by
  simp only [journalRecordIdentity, bind_eq_ok]
  constructor
  · rintro ⟨⟨⟩, hvalid, h⟩
    cases h
    exact ⟨rfl, hvalid⟩
  · rintro ⟨rfl, hvalid⟩
    exact ⟨(), hvalid, rfl⟩

theorem entries_of_routed (hrouted : entries.mapM (routeEntry rt) = .ok routed) :
    routed.map (·.entry) = entries := by
  have hall := forall₂_of_mapM hrouted
  clear hrouted
  induction hall with
  | nil => rfl
  | cons hroute _ ih => rw [map_cons, ih, (routeEntry_eq_ok.mp hroute).1]

theorem eventEntries_sublist (routed : List (RoutedEntry V B)) :
    ((routedEvents routed).map Prod.fst).Sublist (routed.map (·.entry)) := by
  induction routed with
  | nil => exact .slnil
  | cons r routed ih =>
    rw [routedEvents, filterMap_cons]
    split
    · exact ih.cons _
    · rename_i e he
      obtain ⟨probe, -, rfl⟩ := Option.map_eq_some_iff.mp he
      exact ih.cons_cons _

theorem nodup_eventDigests (hrouted : entries.mapM (routeEntry rt) = .ok routed)
    (hnodup : (entries.map (·.keyDigest)).Nodup) :
    (((routedEvents routed).map Prod.fst).map (·.keyDigest)).Nodup := by
  have hsub := (eventEntries_sublist routed).map (·.keyDigest)
  rw [entries_of_routed hrouted] at hsub
  exact hsub.nodup hnodup

theorem digests_of_routed (hrouted : entries.mapM (routeEntry rt) = .ok routed) :
    routed.map (fun r => r.identity.keyDigest) = entries.map (·.keyDigest) := by
  have hall := forall₂_of_mapM hrouted
  clear hrouted
  induction hall with
  | nil => rfl
  | cons hroute _ ih =>
    obtain ⟨-, -, hidentity⟩ := routeEntry_eq_ok.mp hroute
    rw [map_cons, map_cons, ih, (journalRecordIdentity_eq_ok.mp hidentity).1]

theorem route_of_hasStatus (hhex : HexDigests rt)
    (hrouted : entries.mapM (routeEntry rt) = .ok routed)
    (hnodup : (entries.map (·.keyDigest)).Nodup) (hstatus : HasStatus rt routed status) :
    ∃ inspection, routeJournalEntries rt entries = .ok inspection ∧ inspection.status = status ∧
      inspection.eventEntries = (routedEvents routed).map Prod.fst := by
  have hcursor : ∀ capabilities, ∃ cursor, authorityCursorFromRecordIdentities rt.sha256
      (routed.map (·.identity)) (capabilitySetHash rt.sha256 capabilities) = .ok cursor := by
    intro capabilities
    refine cursor_of_valid ?_ ?_ ?_
    · rw [capabilitySetHash, sha256JsonPrefixed, isPrefixedSha256_append]
      exact hhex.sha256 _
    · intro identity hidentity
      obtain ⟨r, hr, rfl⟩ := mem_map.mp hidentity
      obtain ⟨entry, -, hroute⟩ := (mapM_spec hrouted).2 r hr
      exact (journalRecordIdentity_eq_ok.mp (routeEntry_eq_ok.mp hroute).2.2).2
    · rw [map_map]
      exact (digests_of_routed hrouted).symm ▸ hnodup
  have hchain {active : StoreCapabilityActivationV1}
      (hroot : active.predecessorActivationId = none) :=
    validateActivationChain_eq_ok.mpr ⟨rfl, hroot⟩
  rw [routeJournalEntries]
  simp only [hrouted, bind_eq_ok, Except.ok.injEq]
  cases hstatus with
  | required hactivations hcompletions hevents =>
    obtain ⟨cursor, hcursor⟩ := hcursor []
    have hfree : ((routedEvents routed).any fun event =>
        isReservedEventCode event.2.eventType) = false := by
      rw [List.any_eq_false]
      intro event hevent
      rw [hevents event hevent]
      exact Bool.false_ne_true
    simp [hactivations, hcompletions, hfree, hcursor]
  | @inProgress active hactivations hroot hcompletions hinitial =>
    obtain ⟨cursor, hcursor⟩ := hcursor active.requiredCapabilities
    simp [hactivations, hchain hroot, routedStatus, hcompletions, hinitial, hcursor]
  | @ready active completion hactivations hroot hcompletions hcovered =>
    obtain ⟨cursor, hcursor⟩ := hcursor active.requiredCapabilities
    simp [hactivations, hchain hroot, routedStatus, hcompletions, hcovered, hcursor]

end Pointbreak
