import Pointbreak.Signing.Verify
import Pointbreak.Store.Journal

/-!
# Store.Capabilities

The records that say whether a store holds Changes, and the two ways to read them. Bulk adoption
writes an activation under a fixed key, then the events it reserved, then a completion under a key
that follows from the activation. The complete router validates every record; the bounded reader
makes one read at each of the two keys.
-/

namespace Pointbreak

open Std

def REVIEW_CHANGE_REVISION_COHORT_V1 : Text := text "review_change_revision_v1"

def ACTIVATION_SCHEMA_V1 : Text := text "pointbreak.store-capability-activation"

def COMPLETION_SCHEMA_V1 : Text := text "pointbreak.bulk-adoption-completion"

def BULK_MANIFEST_SCHEMA_V1 : Text := text "pointbreak.bulk-adoption-manifest"

def AUTHORITY_CURSOR_SCHEMA_V2 : Text := text "pointbreak.authority-cursor.v2"

def CAPABILITY_SET_SCHEMA_V1 : Text := text "pointbreak.capability-set.v1"

def JOURNAL_RECORD_SET_SCHEMA_V1 : Text := text "pointbreak.journal-record-set.v1"

def EVENT_SET_SCHEMA_V1 : Text := text "shore.event-set.v1"

def ACTIVATION_TBS_SCHEMA_V1 : Text := text "pointbreak.store-capability-activation-tbs"

def COMPLETION_TBS_SCHEMA_V1 : Text := text "pointbreak.bulk-adoption-completion-tbs"

def ACTIVATION_TBS_PAYLOAD_TYPE_V1 : Text :=
  text "application/vnd.pointbreak.store-capability-activation-tbs.v1+json"

def COMPLETION_TBS_PAYLOAD_TYPE_V1 : Text :=
  text "application/vnd.pointbreak.bulk-adoption-completion-tbs.v1+json"

def ROOT_ACTIVATION_LOGICAL_KEY_V1 : Text :=
  text "store_capability_activation:review_change_revision_v1:root"

def REVIEW_CHANGE_REVISION_MANIFEST_HASH_V1 : Text :=
  text "sha256:3ed9b86dfba44b448df98090073dced4a67d26e37e1f71276ce07ff1c5bbb948"

def REVIEW_CHANGE_REVISION_REQUIRED_CAPABILITIES_V1 : List Text :=
  [text "auxiliary_document_blob_v1", text "auxiliary_document_manifest_v1",
    text "relation_proof_v1", text "review_fact_port_v1", text "revision_relation_attestation_v1",
    text "stable_change_membership_v1"]

/-- An event family that only an activated store may hold. -/
structure RecordFamilyReservationV1 where
  name : Text
  eventTypeCode : Text
  payloadSchema : Text
  payloadVersion : Nat

def REVIEW_CHANGE_REVISION_RECORD_FAMILIES_V1 : List RecordFamilyReservationV1 :=
  [⟨text "change_declared_v1", text "t:17", text "pointbreak.change-declared", 1⟩,
    ⟨text "change_membership_asserted_v1", text "t:18",
      text "pointbreak.change-membership-asserted", 1⟩,
    ⟨text "change_membership_withdrawn_v1", text "t:19",
      text "pointbreak.change-membership-withdrawn", 1⟩,
    ⟨text "change_link_asserted_v1", text "t:20", text "pointbreak.change-link-asserted", 1⟩,
    ⟨text "change_revision_relation_asserted_v1", text "t:21",
      text "pointbreak.change-revision-relation-asserted", 1⟩,
    ⟨text "change_revision_relation_withdrawn_v1", text "t:22",
      text "pointbreak.change-revision-relation-withdrawn", 1⟩,
    ⟨text "revision_relation_attested_v1", text "t:23",
      text "pointbreak.revision-relation-attested", 1⟩,
    ⟨text "review_fact_ported_v1", text "t:24", text "pointbreak.review-fact-ported", 1⟩]

/-- The family of a type code, if it is a reserved one. -/
def reservedFamily (code : Text) : Option RecordFamilyReservationV1 :=
  REVIEW_CHANGE_REVISION_RECORD_FAMILIES_V1.find? fun family => family.eventTypeCode = code

def isReservedEventCode (code : Text) : Bool := (reservedFamily code).isSome

def isKnownOrReservedEventCode (code : Text) : Bool :=
  (eventTypeFromCode code).isSome || isReservedEventCode code

def capabilityError (message : Text) : ShoreError :=
  .message (text "unsupported Pointbreak store capability state: " ++ message)

/-! ## Control records -/

structure AuthorityCursorV2 where
  schema : Text
  journalRecordCount : Nat
  eventCount : Nat
  journalRecordSetHash : Text
  eventSetHash : Text
  capabilitySetHash : Text
deriving DecidableEq

structure ReservedCohortRecordV1 where
  logicalKey : Text
  recordFamily : Text
  recordHash : Text
deriving DecidableEq

structure BulkAdoptionManifestV1 where
  schema : Text
  version : Nat
  cohortManifestHash : Text
  sourceAuthorityCursor : AuthorityCursorV2
  reservedRecords : List ReservedCohortRecordV1
deriving DecidableEq

structure StoreCapabilityActivationV1 where
  schema : Text
  version : Nat
  activationId : Text
  nonce : Text
  predecessorActivationId : Option Text
  cohortManifestHash : Text
  minimumReaderProfile : Text
  requiredCapabilities : List Text
  bulkAdoptionManifestHash : Text
  bulkAdoptionManifest : BulkAdoptionManifestV1
  writer : Writer
  occurredAt : Text
  signer : SignerId
  signature : EventSignature
deriving DecidableEq

structure BulkAdoptionCompletionV1 where
  schema : Text
  version : Nat
  completionId : Text
  activationId : Text
  bulkAdoptionManifestHash : Text
  coveredRecordSetHash : Text
  writer : Writer
  occurredAt : Text
  signer : SignerId
  signature : EventSignature
deriving DecidableEq

inductive StoreCapabilityStatus where
  | migrationRequired
  | migrationInProgress (activationId manifestHash : Text)
  | ready (activationId manifestHash completionId : Text)
deriving DecidableEq

/-- The readers and writers of control records. Their bytes carry the schema that the schema probe
reads. -/
structure CapabilityRuntime (V B : Type) extends StoreRuntime V B where
  activation : B → Except Text StoreCapabilityActivationV1
  completion : B → Except Text BulkAdoptionCompletionV1
  activationBytes : StoreCapabilityActivationV1 → B
  completionBytes : BulkAdoptionCompletionV1 → B
  isBase64 : Text → Bool

def AuthorityCursorV2.toValue (cursor : AuthorityCursorV2) : Json :=
  .obj [(text "schema", .str cursor.schema),
    (text "journalRecordCount", .num cursor.journalRecordCount),
    (text "eventCount", .num cursor.eventCount),
    (text "journalRecordSetHash", .str cursor.journalRecordSetHash),
    (text "eventSetHash", .str cursor.eventSetHash),
    (text "capabilitySetHash", .str cursor.capabilitySetHash)]

def ReservedCohortRecordV1.toValue (record : ReservedCohortRecordV1) : Json :=
  .obj [(text "logicalKey", .str record.logicalKey),
    (text "recordFamily", .str record.recordFamily), (text "recordHash", .str record.recordHash)]

def BulkAdoptionManifestV1.toValue (manifest : BulkAdoptionManifestV1) : Json :=
  .obj [(text "schema", .str manifest.schema), (text "version", .num manifest.version),
    (text "cohortManifestHash", .str manifest.cohortManifestHash),
    (text "sourceAuthorityCursor", manifest.sourceAuthorityCursor.toValue),
    (text "reservedRecords", .arr (manifest.reservedRecords.map (·.toValue)))]

def BulkAdoptionManifestV1.canonicalHash (sha : Sha256) (manifest : BulkAdoptionManifestV1) : Text :=
  sha256JsonPrefixed sha manifest.toValue

def validateCursorShape (cursor : AuthorityCursorV2) : Result Unit := do
  Result.ensure (cursor.schema == AUTHORITY_CURSOR_SCHEMA_V2 &&
      isPrefixedSha256 cursor.journalRecordSetHash && isPrefixedSha256 cursor.eventSetHash &&
      isPrefixedSha256 cursor.capabilitySetHash)
    (capabilityError (text "bulk-adoption manifest has an invalid source authority cursor"))
  Result.ensure (cursor.eventCount ≤ cursor.journalRecordCount)
    (capabilityError (text "authority cursor event count exceeds Journal record count"))

def ensureSortedUnique (values : List Text) (label : Text) : Result Unit :=
  Result.ensure (isSortedUnique values)
    (capabilityError (label ++ text " must be sorted and unique"))

def BulkAdoptionManifestV1.validate (manifest : BulkAdoptionManifestV1) : Result Unit := do
  Result.ensure (manifest.schema == BULK_MANIFEST_SCHEMA_V1 && manifest.version == 1)
    (capabilityError (text "unsupported bulk-adoption manifest schema/version"))
  Result.ensure (manifest.cohortManifestHash == REVIEW_CHANGE_REVISION_MANIFEST_HASH_V1)
    (capabilityError (text "bulk-adoption manifest names an unsupported capability manifest"))
  validateCursorShape manifest.sourceAuthorityCursor
  ensureSortedUnique (manifest.reservedRecords.map (·.logicalKey))
    (text "reserved record logical keys")
  manifest.reservedRecords.forM fun record => do
    Result.ensure (isPrefixedSha256 record.recordHash)
      (capabilityError (text "bulk-adoption manifest has an invalid record hash"))
    Result.ensure (REVIEW_CHANGE_REVISION_RECORD_FAMILIES_V1.any fun family =>
        family.name = record.recordFamily)
      (capabilityError (text "bulk-adoption manifest names an unknown record family"))

section Records

variable {V B : Type} (rt : CapabilityRuntime V B)

/-- The control record readers read the schema that the schema probe reads. -/
structure ControlRecordsRead : Prop where
  activation : ∀ {bytes activation}, rt.activation bytes = .ok activation →
    rt.schemaProbe bytes = .ok activation.schema
  completion : ∀ {bytes completion}, rt.completion bytes = .ok completion →
    rt.schemaProbe bytes = .ok completion.schema

def validateRecordSignature (signature : EventSignature) (signer : SignerId) (payloadType : Text)
    (signingView : Json) : Result Unit := do
  Result.ensure (signature.alg == text "ed25519" && signature.sigVersion == 1 &&
      rt.isBase64 signature.sig)
    (capabilityError (text "Journal control record has an unsupported signature"))
  Result.ensure (rt.verifyStrict signer
      (preAuthenticationEncoding payloadType signingView.canonical.render) signature.sig)
    (capabilityError (text "Journal control record signature is invalid"))

namespace StoreCapabilityActivationV1

variable (activation : StoreCapabilityActivationV1)

def logicalKey : Text :=
  match activation.predecessorActivationId with
  | none => ROOT_ACTIVATION_LOGICAL_KEY_V1
  | some predecessor =>
    text "store_capability_activation:review_change_revision_v1:after:" ++ predecessor

def identityView : Json :=
  .obj [(text "schema", .str (text "pointbreak.store-capability-activation-identity")),
    (text "version", .num 1), (text "nonce", .str activation.nonce),
    (text "predecessorActivationId",
      (activation.predecessorActivationId.map Json.str).getD .null),
    (text "cohortManifestHash", .str activation.cohortManifestHash),
    (text "minimumReaderProfile", .str activation.minimumReaderProfile),
    (text "requiredCapabilities", .arr (activation.requiredCapabilities.map Json.str)),
    (text "bulkAdoptionManifestHash", .str activation.bulkAdoptionManifestHash),
    (text "actorId", .str activation.writer.actorId.asStr)]

def signingView : Json :=
  .obj [(text "schema", .str ACTIVATION_TBS_SCHEMA_V1), (text "version", .num 1),
    (text "activationId", .str activation.activationId),
    (text "logicalKey", .str activation.logicalKey),
    (text "cohortManifestHash", .str activation.cohortManifestHash),
    (text "minimumReaderProfile", .str activation.minimumReaderProfile),
    (text "requiredCapabilities", .arr (activation.requiredCapabilities.map Json.str)),
    (text "bulkAdoptionManifestHash", .str activation.bulkAdoptionManifestHash),
    (text "actorId", .str activation.writer.actorId.asStr),
    (text "signer", .str activation.signer.asStr),
    (text "occurredAt", .str activation.occurredAt)]

def validate : Result Unit := do
  Result.ensure (activation.schema == ACTIVATION_SCHEMA_V1 && activation.version == 1)
    (capabilityError (text "unsupported capability activation schema/version"))
  ensureSortedUnique activation.requiredCapabilities (text "required capabilities")
  Result.ensure (activation.cohortManifestHash == REVIEW_CHANGE_REVISION_MANIFEST_HASH_V1)
    (capabilityError (text "activation names an unsupported capability manifest"))
  Result.ensure (activation.minimumReaderProfile == REVIEW_CHANGE_REVISION_COHORT_V1)
    (capabilityError (text "activation names an unsupported minimum reader profile"))
  Result.ensure (activation.requiredCapabilities ==
      REVIEW_CHANGE_REVISION_REQUIRED_CAPABILITIES_V1)
    (capabilityError (text "activation requires an unsupported capability set"))
  activation.bulkAdoptionManifest.validate
  Result.ensure (activation.bulkAdoptionManifest.canonicalHash rt.sha256 ==
      activation.bulkAdoptionManifestHash)
    (capabilityError (text "activation bulk-adoption manifest hash mismatch"))
  Result.ensure (activation.activationId == text "capability-activation:sha256:" ++
      rt.sha256 activation.identityView.canonical.render)
    (capabilityError (text "capability activation identity mismatch"))
  validateRecordSignature rt activation.signature activation.signer ACTIVATION_TBS_PAYLOAD_TYPE_V1
    activation.signingView

end StoreCapabilityActivationV1

/-- The fields that a completion is named by. -/
def completionIdentityView (activationId manifestHash coveredRecordSetHash : Text)
    (actorId : ActorId) : Json :=
  .obj [(text "schema", .str (text "pointbreak.bulk-adoption-completion-identity")),
    (text "version", .num 1), (text "activationId", .str activationId),
    (text "bulkAdoptionManifestHash", .str manifestHash),
    (text "coveredRecordSetHash", .str coveredRecordSetHash),
    (text "actorId", .str actorId.asStr)]

def completionIdOf (sha : Sha256) (identityView : Json) : Text :=
  text "bulk-adoption-completion:sha256:" ++ sha identityView.canonical.render

def completionLogicalKey (completionId : Text) : Text :=
  text "bulk_adoption_completion:" ++ completionId

namespace BulkAdoptionCompletionV1

variable (completion : BulkAdoptionCompletionV1)

def logicalKey : Text := completionLogicalKey completion.completionId

def identityView : Json :=
  completionIdentityView completion.activationId completion.bulkAdoptionManifestHash
    completion.coveredRecordSetHash completion.writer.actorId

def signingView : Json :=
  .obj [(text "schema", .str COMPLETION_TBS_SCHEMA_V1), (text "version", .num 1),
    (text "completionId", .str completion.completionId),
    (text "logicalKey", .str completion.logicalKey),
    (text "activationId", .str completion.activationId),
    (text "bulkAdoptionManifestHash", .str completion.bulkAdoptionManifestHash),
    (text "coveredRecordSetHash", .str completion.coveredRecordSetHash),
    (text "actorId", .str completion.writer.actorId.asStr),
    (text "signer", .str completion.signer.asStr),
    (text "occurredAt", .str completion.occurredAt)]

def validate : Result Unit := do
  Result.ensure (completion.schema == COMPLETION_SCHEMA_V1 && completion.version == 1)
    (capabilityError (text "unsupported bulk-adoption completion schema/version"))
  Result.ensure (completion.completionId == completionIdOf rt.sha256 completion.identityView)
    (capabilityError (text "bulk-adoption completion identity mismatch"))
  validateRecordSignature rt completion.signature completion.signer COMPLETION_TBS_PAYLOAD_TYPE_V1
    completion.signingView

end BulkAdoptionCompletionV1

def reservedRecordSetHash (sha : Sha256) (records : List ReservedCohortRecordV1) : Text :=
  sha256JsonPrefixed sha (.obj
    [(text "schema", .str (text "pointbreak.bulk-adoption-record-set.v1")),
      (text "records", .arr (records.map (·.toValue)))])

def capabilitySetHash (sha : Sha256) (capabilities : List Text) : Text :=
  sha256JsonPrefixed sha (.obj [(text "schema", .str CAPABILITY_SET_SCHEMA_V1),
    (text "capabilities", .arr (capabilities.map Json.str))])

/-- A key and the function that signs with it. -/
structure EventSigner where
  signerId : SignerId
  signEventMessage : Text → Result Text

/-- The activation under its id, not signed yet. -/
def activationDraft (signerId : SignerId) (manifest : BulkAdoptionManifestV1) (nonce : Text)
    (writer : Writer) (occurredAt : Text) : StoreCapabilityActivationV1 :=
  let draft : StoreCapabilityActivationV1 :=
    { schema := ACTIVATION_SCHEMA_V1, version := 1, activationId := [], nonce,
      predecessorActivationId := none,
      cohortManifestHash := REVIEW_CHANGE_REVISION_MANIFEST_HASH_V1,
      minimumReaderProfile := REVIEW_CHANGE_REVISION_COHORT_V1,
      requiredCapabilities := REVIEW_CHANGE_REVISION_REQUIRED_CAPABILITIES_V1,
      bulkAdoptionManifestHash := manifest.canonicalHash rt.sha256,
      bulkAdoptionManifest := manifest, writer, occurredAt, signer := signerId,
      signature := { alg := text "ed25519", sigVersion := 1, sig := [] } }
  { draft with
    activationId := text "capability-activation:sha256:" ++
      rt.sha256 draft.identityView.canonical.render }

/-- The completion of an activation under its id, not signed yet. -/
def completionDraft (signerId : SignerId) (activation : StoreCapabilityActivationV1)
    (writer : Writer) (occurredAt : Text) : BulkAdoptionCompletionV1 :=
  let draft : BulkAdoptionCompletionV1 :=
    { schema := COMPLETION_SCHEMA_V1, version := 1, completionId := [],
      activationId := activation.activationId,
      bulkAdoptionManifestHash := activation.bulkAdoptionManifestHash,
      coveredRecordSetHash :=
        reservedRecordSetHash rt.sha256 activation.bulkAdoptionManifest.reservedRecords,
      writer, occurredAt, signer := signerId,
      signature := { alg := text "ed25519", sigVersion := 1, sig := [] } }
  { draft with completionId := completionIdOf rt.sha256 draft.identityView }

/-! ## The authority cursor -/

structure JournalRecordIdentityV1 where
  keyDigest : Text
  recordSha256 : Text
  eventPayloadSha256 : Option Text

def JournalRecordIdentityV1.validate (identity : JournalRecordIdentityV1) : Result Unit := do
  Result.ensure (Text.isHexOfLength 64 identity.keyDigest)
    (capabilityError (text "authority record key digest is not canonical SHA-256"))
  Result.ensure (isPrefixedSha256 identity.recordSha256)
    (capabilityError (text "authority record witness is not canonical SHA-256"))
  Result.ensure (identity.eventPayloadSha256.all isPrefixedSha256)
    (capabilityError (text "authority event payload witness is not canonical SHA-256"))

def journalRecordIdentity (entry : JournalEntry B) (eventPayloadSha256 : Option Text) :
    Result JournalRecordIdentityV1 := do
  let identity : JournalRecordIdentityV1 :=
    { keyDigest := entry.keyDigest,
      recordSha256 := text "sha256:" ++ rt.bytesSha256 entry.bytes, eventPayloadSha256 }
  identity.validate
  .ok identity

def digestLE (a b : JournalRecordIdentityV1) : Prop :=
  (compare a.keyDigest b.keyDigest).isLE = true

instance : DecidableRel digestLE := fun _ _ => inferInstanceAs (Decidable (_ = true))

def pairLE (a b : Text × Text) : Prop := (lexOrd.compare a b).isLE = true

instance : DecidableRel pairLE := fun _ _ => inferInstanceAs (Decidable (_ = true))

def hasAdjacentDuplicate : List JournalRecordIdentityV1 → Bool
  | a :: b :: rest => (a.keyDigest == b.keyDigest) || hasAdjacentDuplicate (b :: rest)
  | _ => false

def authorityCursorFromRecordIdentities (sha : Sha256) (identities : List JournalRecordIdentityV1)
    (capabilitySetHash : Text) : Result AuthorityCursorV2 := do
  Result.ensure (isPrefixedSha256 capabilitySetHash)
    (capabilityError (text "authority capability-set hash is not canonical SHA-256"))
  identities.forM (·.validate)
  let identities := identities.insertionSort digestLE
  Result.ensure (!hasAdjacentDuplicate identities)
    (capabilityError (text "authority record identity set contains a duplicate carrier key"))
  let records := identities.map fun identity => Json.obj
    [(text "keyDigest", .str identity.keyDigest), (text "recordHash", .str identity.recordSha256)]
  let eventPairs := (identities.filterMap fun identity => identity.eventPayloadSha256.map
    fun payload => (text "evt:sha256:" ++ identity.keyDigest, payload)).insertionSort pairLE
  let events := eventPairs.map fun pair => Json.obj
    [(text "eventId", .str pair.1), (text "payloadHash", .str pair.2)]
  .ok
    { schema := AUTHORITY_CURSOR_SCHEMA_V2,
      journalRecordCount := min identities.length (2 ^ 64 - 1),
      eventCount := min eventPairs.length (2 ^ 64 - 1),
      journalRecordSetHash := sha256JsonPrefixed sha (.obj
        [(text "schema", .str JOURNAL_RECORD_SET_SCHEMA_V1), (text "records", .arr records)]),
      eventSetHash := sha256JsonPrefixed sha (.obj
        [(text "schema", .str EVENT_SET_SCHEMA_V1), (text "events", .arr events)]),
      capabilitySetHash }

/-! ## The complete router -/

structure JournalInspection (B : Type) where
  status : StoreCapabilityStatus
  cursor : AuthorityCursorV2
  minimumReaderProfile : Option Text
  authorityRecordIdentities : List JournalRecordIdentityV1
  eventEntries : List (JournalEntry B)

/-- A payload of a reserved family says so. -/
def payloadMatchesFamily (eventType : Text) (payload : V) : Bool :=
  match reservedFamily eventType with
  | none => true
  | some family => rt.payloadSchema payload == some family.payloadSchema &&
      rt.payloadVersion payload == some family.payloadVersion

def validateEventProbe (event : EventProbe V) (keyDigest : Text) : Result Unit := do
  Result.ensure (event.schema == text "shore.event" && event.version == 1)
    (capabilityError (text "unsupported event schema/version in Journal router"))
  let expectedDigest := rt.sha256 event.idempotencyKey
  Result.ensure (keyDigest == expectedDigest)
    (capabilityError (text "Journal event logical key does not match its carrier address"))
  Result.ensure (event.eventId == text "evt:sha256:" ++ expectedDigest)
    (capabilityError (text "Journal event ID does not match its logical key"))
  Result.ensure (rt.payloadHash event.payload == event.payloadHash)
    (capabilityError (text "Journal event payload hash mismatch"))
  Result.ensure (isKnownOrReservedEventCode event.eventType)
    (capabilityError (text "unknown Journal event type code " ++ Json.quote event.eventType))
  Result.ensure (payloadMatchesFamily rt event.eventType event.payload)
    (capabilityError
      (text "reserved Change-cohort payload does not match its frozen schema/version"))

def validateLogicalKeyDigest (logicalKey digest : Text) : Result Unit :=
  Result.ensure (rt.sha256 logicalKey == digest)
    (capabilityError (text "Journal control record logical key does not match its carrier address"))

/-- One Journal record, as the router reads it. -/
inductive RoutedRecord (V : Type) where
  | event (probe : EventProbe V)
  | activation (activation : StoreCapabilityActivationV1)
  | completion (completion : BulkAdoptionCompletionV1)

namespace RoutedRecord

def event? : RoutedRecord V → Option (EventProbe V)
  | .event probe => some probe
  | _ => none

def activation? : RoutedRecord V → Option StoreCapabilityActivationV1
  | .activation a => some a
  | _ => none

def completion? : RoutedRecord V → Option BulkAdoptionCompletionV1
  | .completion c => some c
  | _ => none

variable {record : RoutedRecord V}

@[simp] theorem event?_eq_some {probe : EventProbe V} :
    record.event? = some probe ↔ record = .event probe := by
  cases record <;> simp [event?]

@[simp] theorem activation?_eq_some {activation : StoreCapabilityActivationV1} :
    record.activation? = some activation ↔ record = .activation activation := by
  cases record <;> simp [activation?]

@[simp] theorem completion?_eq_some {completion : BulkAdoptionCompletionV1} :
    record.completion? = some completion ↔ record = .completion completion := by
  cases record <;> simp [completion?]

end RoutedRecord

/-- What the router makes of one entry. -/
structure RoutedEntry (V B : Type) where
  entry : JournalEntry B
  record : RoutedRecord V
  identity : JournalRecordIdentityV1

def routeEntry (entry : JournalEntry B) : Result (RoutedEntry V B) := do
  let schema ← (rt.schemaProbe entry.bytes).mapError fun error =>
    ShoreError.message (text "Journal record has no valid typed schema: " ++ error)
  if schema = text "shore.event" then do
    let event ← fromValue rt.eventProbe entry.bytes
    validateEventProbe rt event entry.keyDigest
    let identity ← journalRecordIdentity rt entry (some event.payloadHash)
    .ok ⟨entry, .event event, identity⟩
  else if schema = ACTIVATION_SCHEMA_V1 then do
    let activation ← fromValue rt.activation entry.bytes
    activation.validate rt
    validateLogicalKeyDigest rt activation.logicalKey entry.keyDigest
    let identity ← journalRecordIdentity rt entry none
    .ok ⟨entry, .activation activation, identity⟩
  else if schema = COMPLETION_SCHEMA_V1 then do
    let completion ← fromValue rt.completion entry.bytes
    completion.validate rt
    validateLogicalKeyDigest rt completion.logicalKey entry.keyDigest
    let identity ← journalRecordIdentity rt entry none
    .ok ⟨entry, .completion completion, identity⟩
  else .error (capabilityError (text "unknown Journal record schema " ++ Json.quote schema))

/-- The events with their entries, the activations and the completions, in the order of the
entries. -/
def routedEvents (routed : List (RoutedEntry V B)) : List (JournalEntry B × EventProbe V) :=
  routed.filterMap fun r => r.record.event?.map fun probe => (r.entry, probe)

def routedActivations (routed : List (RoutedEntry V B)) : List StoreCapabilityActivationV1 :=
  routed.filterMap fun r => r.record.activation?

def routedCompletions (routed : List (RoutedEntry V B)) : List BulkAdoptionCompletionV1 :=
  routed.filterMap fun r => r.record.completion?

/-- This reader knows one capability set, so it takes the root activation and no successor. -/
def validateActivationChain : List StoreCapabilityActivationV1 → Result StoreCapabilityActivationV1
  | [root] => do
    Result.ensure root.predecessorActivationId.isNone
      (capabilityError (text "the review_change_revision_v1 activation must not name a predecessor"))
    .ok root
  | _ => .error (capabilityError
      (text "the review_change_revision_v1 reader requires exactly one root activation"))

def validateReservedBytes (reservation : ReservedCohortRecordV1) (bytes : B) : Result Unit :=
  Result.ensure (text "sha256:" ++ rt.bytesSha256 bytes == reservation.recordHash)
    (capabilityError (text "reserved record " ++ reservation.logicalKey ++
      text " has divergent bytes"))

/-- Before the completion every Change-cohort event must be a reserved one. -/
def validateMigrationPrefix (active : StoreCapabilityActivationV1)
    (events : List (JournalEntry B × EventProbe V)) : Result Unit :=
  let reservations := BTreeMap.collect (active.bulkAdoptionManifest.reservedRecords.map
    fun record => (record.logicalKey, record))
  events.forM fun (entry, event) =>
    if isReservedEventCode event.eventType then do
      let reservation ← Result.okOr reservations[event.idempotencyKey]?
        (.message (text "migration prefix contains an unreserved Change-cohort record"))
      validateReservedBytes rt reservation entry.bytes
    else .ok ()

def validateCompletion (completion : BulkAdoptionCompletionV1)
    (active : StoreCapabilityActivationV1) (entries : List (JournalEntry B)) : Result Unit := do
  Result.ensure (completion.writer.actorId == active.writer.actorId)
    (capabilityError (text "capability activation and completion require the same writer"))
  Result.ensure (completion.activationId == active.activationId &&
      completion.bulkAdoptionManifestHash == active.bulkAdoptionManifestHash)
    (capabilityError (text "bulk-adoption completion does not bind the active manifest"))
  let byDigest := BTreeMap.collect (entries.map fun entry => (entry.keyDigest, entry))
  active.bulkAdoptionManifest.reservedRecords.forM fun reservation => do
    let entry ← Result.okOr byDigest[rt.sha256 reservation.logicalKey]?
      (.message (text "bulk-adoption completion is missing reserved record " ++
        reservation.logicalKey))
    validateReservedBytes rt reservation entry.bytes
  Result.ensure (completion.coveredRecordSetHash ==
      reservedRecordSetHash rt.sha256 active.bulkAdoptionManifest.reservedRecords)
    (capabilityError (text "bulk-adoption completion coverage hash mismatch"))

/-- The state of the migration, from what there is of its records. -/
def routedStatus (active : StoreCapabilityActivationV1) (routed : List (RoutedEntry V B)) :
    Result StoreCapabilityStatus := do
  let events := routedEvents routed
  match routedCompletions routed with
  | [] => do
    validateMigrationPrefix rt active events
    .ok (.migrationInProgress active.activationId active.bulkAdoptionManifestHash)
  | [completion] => do
    validateCompletion rt completion active (events.map Prod.fst)
    .ok (.ready active.activationId active.bulkAdoptionManifestHash completion.completionId)
  | _ => .error (capabilityError
      (text "multiple bulk-adoption completion records are unsupported"))

def routeJournalEntries (entries : List (JournalEntry B)) : Result (JournalInspection B) := do
  let routed ← entries.mapM (routeEntry rt)
  let events := routedEvents routed
  let identities := routed.map (·.identity)
  match routedActivations routed with
  | [] => do
    Result.ensure ((routedCompletions routed).isEmpty &&
        !(events.any fun event => isReservedEventCode event.2.eventType))
      (capabilityError (text "Change-cohort records exist without a capability activation"))
    let cursor ← authorityCursorFromRecordIdentities rt.sha256 identities
      (capabilitySetHash rt.sha256 [])
    .ok
      { status := .migrationRequired, cursor, minimumReaderProfile := none,
        authorityRecordIdentities := identities, eventEntries := events.map Prod.fst }
  | activations => do
    let active ← validateActivationChain activations
    let status ← routedStatus rt active routed
    let cursor ← authorityCursorFromRecordIdentities rt.sha256 identities
      (capabilitySetHash rt.sha256 active.requiredCapabilities)
    .ok
      { status, cursor, minimumReaderProfile := some active.minimumReaderProfile,
        authorityRecordIdentities := identities, eventEntries := events.map Prod.fst }

def inspectJournalRecords (journal : Journal B) : Result (JournalInspection B) :=
  routeJournalEntries rt journal.listRecordEntries

/-! ## The bounded reader -/

structure BoundedChangeCapabilityPairV1 where
  activationId : Text
  manifestHash : Text
  completionId : Text
  minimumReaderProfile : Text
  activationRecordSha256 : Text
  completionRecordSha256 : Text

def validateBoundedChangeCapabilityRecords (activationLogicalKey completionLogicalKey : Text)
    (activationBytes completionBytes : B) : Result BoundedChangeCapabilityPairV1 := do
  let activation ← fromValue rt.activation activationBytes
  activation.validate rt
  Result.ensure (activation.logicalKey == activationLogicalKey) (capabilityError
    (text "published capability activation does not match its bounded logical key"))
  let completion ← fromValue rt.completion completionBytes
  completion.validate rt
  Result.ensure (completion.logicalKey == completionLogicalKey) (capabilityError
    (text "published bulk-adoption completion does not match its bounded logical key"))
  Result.ensure (completion.writer.actorId == activation.writer.actorId)
    (capabilityError (text "capability activation and completion require the same writer"))
  Result.ensure (completion.activationId == activation.activationId &&
      completion.bulkAdoptionManifestHash == activation.bulkAdoptionManifestHash)
    (capabilityError (text
      "bounded capability activation/completion identity or manifest linkage mismatch"))
  Result.ensure (completion.coveredRecordSetHash ==
      reservedRecordSetHash rt.sha256 activation.bulkAdoptionManifest.reservedRecords)
    (capabilityError (text "bounded bulk-adoption completion coverage mismatch"))
  .ok
    { activationId := activation.activationId,
      manifestHash := activation.bulkAdoptionManifestHash,
      completionId := completion.completionId,
      minimumReaderProfile := activation.minimumReaderProfile,
      activationRecordSha256 := text "sha256:" ++ rt.bytesSha256 activationBytes,
      completionRecordSha256 := text "sha256:" ++ rt.bytesSha256 completionBytes }

/-- The activation's writer also writes the completion, so the activation addresses it. -/
def expectedCompletionLogicalKey (activation : StoreCapabilityActivationV1) : Text :=
  completionLogicalKey (completionIdOf rt.sha256 (completionIdentityView activation.activationId
    activation.bulkAdoptionManifestHash
    (reservedRecordSetHash rt.sha256 activation.bulkAdoptionManifest.reservedRecords)
    activation.writer.actorId))

def boundedWriterCapabilityStatus (journal : Journal B) : Result StoreCapabilityStatus :=
  match journal.readEventBytes rt.sha256 ROOT_ACTIVATION_LOGICAL_KEY_V1 with
  | none => .ok .migrationRequired
  | some activationBytes => do
    let activation ← fromValue rt.activation activationBytes
    activation.validate rt
    Result.ensure (activation.logicalKey == ROOT_ACTIVATION_LOGICAL_KEY_V1) (capabilityError
      (text "published capability activation does not match its bounded logical key"))
    let completionKey := expectedCompletionLogicalKey rt activation
    match journal.readEventBytes rt.sha256 completionKey with
    | none => .ok (.migrationInProgress activation.activationId activation.bulkAdoptionManifestHash)
    | some completionBytes => do
      let pair ← validateBoundedChangeCapabilityRecords rt ROOT_ACTIVATION_LOGICAL_KEY_V1
        completionKey activationBytes completionBytes
      .ok (.ready pair.activationId pair.manifestHash pair.completionId)

/-! ## Admission -/

/-- Admission of a Change-aware writer. -/
def preflightChangeWriter (journal : Journal B) : Result Unit := do
  match ← boundedWriterCapabilityStatus rt journal with
  | .ready .. => .ok ()
  | .migrationRequired => .error (capabilityError (text
      "migration_required; Change writes require an explicit completed store migration"))
  | .migrationInProgress .. => .error (capabilityError (text
      "migration_in_progress; Change writes refuse partial capability authority"))

/-- Admission of every other writer. -/
def preflightCurrentProduct (journal : Journal B) : Result Unit := do
  match ← boundedWriterCapabilityStatus rt journal with
  | .ready .. => .ok ()
  | .migrationInProgress .. => .error (capabilityError (text
      "migration_in_progress; normal product routes refuse partial Change authority"))
  | .migrationRequired => .ok ()

def eventEntriesForCurrentProduct (journal : Journal B) : Result (List (JournalEntry B)) :=
  if !journal.recordExists rt.sha256 ROOT_ACTIVATION_LOGICAL_KEY_V1 then
    .ok journal.listRecordEntries
  else do
    let inspection ← inspectJournalRecords rt journal
    match inspection.status with
    | .ready .. => .ok inspection.eventEntries
    | .migrationInProgress .. => .error (capabilityError (text
        "migration_in_progress; refusing partial semantic output from an activated store"))
    | .migrationRequired => .error (capabilityError (text
        "activation root disappeared during current-product event routing"))

end Records

end Pointbreak
