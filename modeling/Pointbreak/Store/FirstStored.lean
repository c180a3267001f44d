import Pointbreak.Store.BoundedStatus
import Pointbreak.Store.Readable

/-!
# Store.FirstStored

The store over whole sequences of calls: records are append-only, the first event that is accepted
under a key stays, and a later one is answered from it. Ingesting a list again creates nothing,
because the keys of what the ingest writes on its own account follow from the stored event and the
offered signature.
-/

namespace Pointbreak

open Std Stateful Result StoreCall EventSignatureRecordedPayload Journal List

section FirstStored

variable {V B : Type} {rt : CapabilityRuntime V B} {event stored existing : StoredEvent V}
  {journal journal' : Journal B}

theorem schemaBreakFor_typeCode (eventType : EventType) :
    schemaBreakFor eventType.typeCode = none := by
  have h : ∀ t ∈ EventType.all, schemaBreakFor t.typeCode = none := by decide +kernel
  exact h eventType (EventType.mem_all eventType)

theorem decodeValidatedEvent_toVec (hrt : ReadsBack rt.toStoreRuntime stored)
    (hvalid : validateEvent rt stored = .ok ()) :
    decodeValidatedEvent rt (rt.toVec stored) = .ok existing ↔
      Text.isBlank stored.idempotencyKey = false ∧ existing = stored := by
  have hfrom : rt.fromSlice (rt.toVec stored) = .ok existing ↔
      Text.isBlank stored.idempotencyKey = false ∧ existing = stored := by
    cases hblank : Text.isBlank stored.idempotencyKey with
    | false => simp [hrt.fromSlice hblank, eq_comm]
    | true =>
      obtain ⟨message, hmessage⟩ := hrt.fromSlice_blank hblank
      simp [hmessage]
  rw [← hfrom]
  simp only [decodeValidatedEvent, bind_eq_ok, fromValue_eq_ok, hrt.breakProbe,
    Except.ok.injEq, exists_eq_left', schemaBreakFor_typeCode, eventTypeFromCode_typeCode,
    ensure_eq_ok, Option.isSome_some, Bool.not_false, true_and, exists_const_iff]
  constructor
  · rintro ⟨-, -, -, -, event, hread, u, -, rfl⟩
    exact hread
  · intro hread
    obtain ⟨-, rfl⟩ := hfrom.mp hread
    exact ⟨⟨()⟩, ⟨()⟩, ⟨()⟩, ⟨()⟩, existing, hread, (), hvalid, rfl⟩

theorem readStoredEvent_stored (hrt : ReadsBack rt.toStoreRuntime stored)
    (hvalid : validateEvent rt stored = .ok ())
    (hget : journal[rt.sha256 stored.idempotencyKey]? = some (rt.toVec stored)) :
    readStoredEvent rt journal stored.idempotencyKey = .ok existing ↔
      Text.isBlank stored.idempotencyKey = false ∧ existing = stored := by
  simp only [readStoredEvent, readEventBytes, hget, okOr, bind_eq_ok,
    ensure_eq_ok, beq_iff_eq, Except.ok.injEq, exists_eq_left',
    decodeValidatedEvent_toVec hrt hvalid, and_assoc, exists_and_left, exists_eq_left, exists_const,
    true_and, @eq_comm _ stored]

theorem classifyExisting_isOk : (∃ answer, classifyExisting rt existing event = .ok answer) ↔
    event.payloadHash = existing.payloadHash := by
  rw [classifyExisting]
  split
  · rename_i h
    simp only [h, iff_true]
    split
    · exact ⟨_, rfl⟩
    · split <;> exact ⟨_, rfl⟩
  · rename_i h
    simp [Ne.symm h]

/-- A run that reports what was there already. -/
def AnswersExisting (run : EStateM.Result ShoreError (Journal B) EventWriteOutcome) : Prop :=
  ∃ answer, outcome run = .ok answer ∧ answer ≠ .created

theorem recordEventOnce_unchanged (htaken : journal[rt.sha256 event.idempotencyKey]? ≠ none) :
    finalState ((EventWriteBatch.recordEventOnce rt event).run journal) = journal := by
  cases hrun : (EventWriteBatch.recordEventOnce rt event).run journal with
  | error e journal' => exact recordEventOnce_error hrun
  | ok answer journal' =>
    obtain ⟨-, ⟨hfree, -⟩ | ⟨-, hsame, -⟩⟩ := recordEventOnce_cases hrun
    · exact absurd hfree htaken
    · exact hsame

theorem not_created_of_taken (htaken : journal[rt.sha256 event.idempotencyKey]? ≠ none) :
    outcome ((EventWriteBatch.recordEventOnce rt event).run journal) ≠ .ok .created := by
  intro hcreated
  obtain ⟨journal', hrun⟩ := outcome_eq_ok.mp hcreated
  obtain ⟨-, ⟨hfree, -⟩ | ⟨-, -, existing, -, hclassify⟩⟩ := recordEventOnce_cases hrun
  · exact htaken hfree
  · exact classifyExisting_ne_created hclassify rfl

theorem recordEventOnce_later (hrt : ReadsBack rt.toStoreRuntime stored)
    (hstored : validateEvent rt stored = .ok ())
    (hget : journal[rt.sha256 stored.idempotencyKey]? = some (rt.toVec stored))
    (hkey : event.idempotencyKey = stored.idempotencyKey) :
    AnswersExisting ((EventWriteBatch.recordEventOnce rt event).run journal) ↔
      event.payloadHash = stored.payloadHash ∧ validateEvent rt event = .ok () ∧
        Text.isBlank stored.idempotencyKey = false := by
  constructor
  · rintro ⟨answer, hanswer, hne⟩
    obtain ⟨journal', hrun⟩ := outcome_eq_ok.mp hanswer
    obtain ⟨hvalid, ⟨-, hcreated, -⟩ | ⟨-, -, existing, hread, hclassify⟩⟩ :=
      recordEventOnce_cases hrun
    · exact absurd hcreated hne
    · rw [hkey] at hread
      obtain ⟨hblank, rfl⟩ := (readStoredEvent_stored hrt hstored hget).mp hread
      exact ⟨classifyExisting_isOk.mp ⟨answer, hclassify⟩, hvalid, hblank⟩
  · rintro ⟨hhash, hvalid, hblank⟩
    obtain ⟨answer, hclassify⟩ := classifyExisting_isOk.mpr hhash
    have hread := (readStoredEvent_stored hrt hstored hget).mpr ⟨hblank, rfl⟩
    refine ⟨answer, ?_, classifyExisting_ne_created hclassify⟩
    rw [recordEventOnce_taken hvalid (hkey ▸ hget), hkey, hread]
    show outcome ((lift (classifyExisting rt stored event)).run journal) = .ok answer
    rw [hclassify]
    rfl

theorem preflightCurrentProduct_eq_ok : preflightCurrentProduct rt journal = .ok () ↔
    boundedWriterCapabilityStatus rt journal = .ok .migrationRequired ∨
      ∃ activationId manifestHash completionId, boundedWriterCapabilityStatus rt journal =
        .ok (.ready activationId manifestHash completionId) := by
  rw [preflightCurrentProduct, bind_eq_ok]
  constructor
  · rintro ⟨status, hstatus, h⟩
    cases status with
    | migrationRequired => exact .inl hstatus
    | migrationInProgress => cases h
    | ready a m c => exact .inr ⟨a, m, c, hstatus⟩
  · rintro (hstatus | ⟨a, m, c, hstatus⟩)
    · exact ⟨_, hstatus, rfl⟩
    · exact ⟨_, hstatus, rfl⟩

theorem absent_of_bounded (h : boundedWriterCapabilityStatus rt journal = .ok .migrationRequired) :
    journal[rt.sha256 ROOT_ACTIVATION_LOGICAL_KEY_V1]? = none := by
  rw [boundedWriterCapabilityStatus, readEventBytes] at h
  cases hroot : journal[rt.sha256 ROOT_ACTIVATION_LOGICAL_KEY_V1]? with
  | none => rfl
  | some bytes =>
    rw [hroot] at h
    obtain ⟨active, -, h⟩ := bind_eq_ok.mp h
    obtain ⟨-, -, h⟩ := bind_eq_ok.mp h
    obtain ⟨-, -, h⟩ := bind_eq_ok.mp h
    dsimp only [readEventBytes] at h
    split at h
    · cases h
    · obtain ⟨pair, -, h⟩ := bind_eq_ok.mp h
      cases h

theorem bounded_ready_grows (hgrows : Journal.Grows journal journal')
    {activationId manifestHash completionId : Text}
    (h : boundedWriterCapabilityStatus rt journal =
      .ok (.ready activationId manifestHash completionId)) :
    boundedWriterCapabilityStatus rt journal' =
      .ok (.ready activationId manifestHash completionId) := by
  rw [boundedWriterCapabilityStatus, readEventBytes] at h ⊢
  cases hroot : journal[rt.sha256 ROOT_ACTIVATION_LOGICAL_KEY_V1]? with
  | none =>
    rw [hroot] at h
    cases h
  | some bytes =>
    rw [hroot] at h
    rw [hgrows _ _ hroot]
    obtain ⟨active, hread, h⟩ := bind_eq_ok.mp h
    obtain ⟨⟨⟩, hvalid, h⟩ := bind_eq_ok.mp h
    obtain ⟨⟨⟩, hkey, h⟩ := bind_eq_ok.mp h
    refine bind_eq_ok.mpr ⟨active, hread, bind_eq_ok.mpr ⟨(), hvalid,
      bind_eq_ok.mpr ⟨(), hkey, ?_⟩⟩⟩
    dsimp only [readEventBytes] at h ⊢
    cases hcompletion : journal[rt.sha256 (expectedCompletionLogicalKey rt active)]? with
    | none =>
      rw [hcompletion] at h
      cases h
    | some completionBytes =>
      rw [hcompletion] at h
      rw [hgrows _ _ hcompletion]
      exact h

variable {error : ShoreError}

theorem preflightChangeWriter_refused (h : preflightCurrentProduct rt journal = .error error) :
    ∃ error', preflightChangeWriter rt journal = .error error' := by
  rw [preflightCurrentProduct] at h
  rw [preflightChangeWriter]
  cases hstatus : boundedWriterCapabilityStatus rt journal with
  | error e => exact ⟨e, rfl⟩
  | ok status =>
    rw [hstatus] at h
    cases status with
    | migrationRequired => cases h
    | migrationInProgress => exact ⟨_, rfl⟩
    | ready => cases h

namespace StoreCall

theorem run_of_refused (h : preflightCurrentProduct rt journal = .error error)
    (call : StoreCall V) : call.run rt journal = journal := by
  have hbegin : (beginCurrentProductBatch rt).run journal = .error error journal := by
    show (lift (preflightCurrentProduct rt journal)).run journal = _
    rw [run_lift, h]
  cases call with
  | record event =>
    rw [StoreCall.run, EventStore.recordEventOnce, EStateM.run_bind, hbegin]
    rfl
  | recordChange event =>
    obtain ⟨error', h'⟩ := preflightChangeWriter_refused h
    show finalState ((lift (preflightChangeWriter rt journal) >>= _).run journal) = journal
    rw [EStateM.run_bind, run_lift, h']
    rfl
  | ingest options env =>
    rw [StoreCall.run, ingestEvents]
    refine (ReadsOnly.lift _).unchanged_bind ?_
    intro prepared _
    rw [EStateM.run_bind, hbegin]
    rfl

def runAll (rt : CapabilityRuntime V B) (journal : Journal B) (calls : List (StoreCall V)) :
    Journal B :=
  calls.foldl (StoreCall.run rt) journal

theorem runAll_appends (rt : CapabilityRuntime V B) (journal : Journal B) (calls : List (StoreCall V)) :
    Appends rt (fun e => ∃ call ∈ calls, e ∈ call.offered ∨ BuiltCarrier rt e) journal
      (runAll rt journal calls) := by
  induction calls generalizing journal with
  | nil => exact Appends.refl journal
  | cons call calls ih =>
    refine Appends.trans _ (call.run rt journal) _ ?_ ?_
    · exact (call.appends rt journal).mono fun e he => ⟨call, .head _, he⟩
    · refine (ih (call.run rt journal)).mono ?_
      rintro e ⟨call', hcall, he⟩
      exact ⟨call', .tail _ hcall, he⟩

theorem runAll_of_refused (h : preflightCurrentProduct rt journal = .error error)
    (calls : List (StoreCall V)) : runAll rt journal calls = journal := by
  induction calls with
  | nil => rfl
  | cons call calls ih =>
    rw [runAll, foldl_cons, run_of_refused h]
    exact ih

/-- After any calls the store admits its writers if it did before and no event was stored at the
address of the activation. -/
theorem admits_runAll_iff (hcontrol : ControlRecordsRead rt) (calls : List (StoreCall V))
    (hrt : ∀ event, (∃ call ∈ calls, event ∈ call.offered ∨ BuiltCarrier rt event) →
      ReadsBack rt.toStoreRuntime event) :
    preflightCurrentProduct rt (runAll rt journal calls) = .ok () ↔
      preflightCurrentProduct rt journal = .ok () ∧
        (runAll rt journal calls)[rt.sha256 ROOT_ACTIVATION_LOGICAL_KEY_V1]? =
          journal[rt.sha256 ROOT_ACTIVATION_LOGICAL_KEY_V1]? := by
  have happends := runAll_appends rt journal calls
  constructor
  · intro h
    cases hstart : preflightCurrentProduct rt journal with
    | error e =>
      rw [runAll_of_refused hstart, hstart] at h
      cases h
    | ok u =>
      refine ⟨rfl, ?_⟩
      cases hroot : journal[rt.sha256 ROOT_ACTIVATION_LOGICAL_KEY_V1]? with
      | some bytes => exact happends.grows _ _ hroot
      | none =>
        refine Option.eq_none_iff_forall_ne_some.mpr fun bytes hbytes => ?_
        obtain ⟨event, hP, hvalid, -, rfl⟩ := happends.new_record hroot hbytes
        obtain ⟨status, hstatus⟩ : ∃ status,
            boundedWriterCapabilityStatus rt (runAll rt journal calls) = .ok status := by
          rcases preflightCurrentProduct_eq_ok.mp h with h | ⟨a, m, c, h⟩ <;> exact ⟨_, h⟩
        obtain ⟨active, hactive, -⟩ := bounded_present hbytes hstatus
        exact not_event_of_activation hcontrol hactive.read hactive.valid
          (schemaProbe_toVec (hrt event hP) hvalid)
  · rintro ⟨hstart, hroot⟩
    rw [preflightCurrentProduct_eq_ok] at hstart ⊢
    rcases hstart with hrequired | ⟨a, m, c, hready⟩
    · exact .inl (bounded_of_absent (hroot.trans (absent_of_bounded hrequired)))
    · exact .inr ⟨a, m, c, bounded_ready_grows happends.grows hready⟩

end StoreCall

section Reingest

variable {trust trust' : TrustSet} {env : IngestEnvironment} {session session' : IngestBatchSession V}

variable (rt) in
/-- Writing the event to the Journal transcribes its signature into a carrier with this key. -/
inductive Transcribes (journal : Journal B) (event : StoredEvent V) : Text → Prop where
  | intro {stored : StoredEvent V} {attestation : EventSignature} {signer : SignerId}
      {trust : TrustSet}
      (hread : readStoredEvent rt journal event.idempotencyKey = .ok stored)
      (hclassify : classifyExisting rt stored event = .ok .existingDivergentSignature)
      (hsignature : event.signature = some attestation)
      (hsigner : resolveEffectiveSigner rt.toStoreRuntime event = .ok signer)
      (hgate : (gateCosignatureForStore rt.toStoreRuntime (cosignaturePayload rt stored signer
        attestation) (some stored) trust).stores = true) :
      Transcribes journal event (EventSignatureRecordedPayload.idempotencyKey
        (stored.eventRecordHash rt.toStoreRuntime) signer attestation.sig)

variable (rt) in
/-- The addresses that an ingest of the event can fill are taken. -/
structure Settled (journal : Journal B) (event : StoredEvent V) : Prop where
  taken : journal[rt.sha256 event.idempotencyKey]? ≠ none
  transcribed : event.eventType ≠ .eventSignatureRecorded →
    ∀ key, Transcribes rt journal event key → journal[rt.sha256 key]? ≠ none

/-- The key of a transcribed carrier does not depend on the stamp of the event. -/
theorem Settled.stamp {event : StoredEvent V} {via via' : IngestVia} {receivedAt receivedAt' : Text}
    (h : Settled rt journal (stampIngestProvenance via receivedAt event)) :
    Settled rt journal (stampIngestProvenance via' receivedAt' event) := by
  refine ⟨h.taken, ?_⟩
  rintro hcarrier _ ⟨hread, hclassify, hsignature, hsigner, hgate⟩
  exact h.transcribed hcarrier _ ⟨hread, hclassify, hsignature, hsigner, hgate⟩

theorem taken_of_grows (hgrows : Journal.Grows journal journal') {digest : Text}
    (h : journal[digest]? ≠ none) : journal'[digest]? ≠ none := by
  obtain ⟨bytes, hbytes⟩ := Option.ne_none_iff_exists'.mp h
  rw [hgrows _ _ hbytes]
  exact nofun

theorem readStoredEvent_grows (hgrows : Journal.Grows journal journal') {key : Text}
    (h : journal[rt.sha256 key]? ≠ none) :
    readStoredEvent rt journal' key = readStoredEvent rt journal key := by
  obtain ⟨bytes, hbytes⟩ := Option.ne_none_iff_exists'.mp h
  simp only [readStoredEvent, readEventBytes, hbytes, hgrows _ _ hbytes]

theorem Settled.grows (h : Settled rt journal event) (hgrows : Journal.Grows journal journal') :
    Settled rt journal' event := by
  refine ⟨taken_of_grows hgrows h.taken, ?_⟩
  rintro hcarrier _ ⟨hread, hclassify, hsignature, hsigner, hgate⟩
  rw [readStoredEvent_grows hgrows h.taken] at hread
  exact taken_of_grows hgrows
    (h.transcribed hcarrier _ ⟨hread, hclassify, hsignature, hsigner, hgate⟩)

/-- The trust set decides the status of a co-signature, not whether it is stored. -/
theorem gateCosignatureForStore_stores (carrier : EventSignatureRecordedPayload)
    (target : StoredEvent V) (trust trust' : TrustSet) :
    (gateCosignatureForStore rt.toStoreRuntime carrier (some target) trust).stores =
      (gateCosignatureForStore rt.toStoreRuntime carrier (some target) trust').stores := by
  simp only [gateCosignatureForStore, verifyCosignature]
  by_cases hbinding : target.eventRecordHash rt.toStoreRuntime ≠ carrier.targetEventRecordHash
  · simp only [if_pos hbinding]
  by_cases halg : !carrier.attestation.isEd25519V1
  · simp only [if_neg hbinding, if_pos halg]
  simp only [if_neg hbinding, if_neg halg]
  cases EventToBeSigned.fromEvent target.toShoreEvent carrier.attestingSigner with
  | error e => rfl
  | ok tbs =>
    dsimp only
    split_ifs <;> rfl

theorem taken_of_recordEventOnce {answer : EventWriteOutcome}
    (h : (EventWriteBatch.recordEventOnce rt event).run journal = .ok answer journal') :
    journal'[rt.sha256 event.idempotencyKey]? ≠ none := by
  obtain ⟨-, ⟨-, -, rfl⟩ | ⟨htaken, rfl, -⟩⟩ := recordEventOnce_cases h
  · simp
  · exact htaken

variable {target : StoredEvent V}

theorem readEvent_of_readStoredEvent {key : Text} (h : readStoredEvent rt journal key = .ok stored)
    (hread : readEvent rt journal key = .ok target) : target = stored := by
  simp only [readStoredEvent, readEvent, bind_eq_ok, okOr_eq_ok] at h hread
  obtain ⟨bytes, hbytes, event, hevent, -, -, h⟩ := h
  obtain ⟨bytes', hbytes', event', hevent', -, -, hread⟩ := hread
  cases h
  cases hread
  cases hbytes.symm.trans hbytes'
  exact Except.ok.inj (hevent'.symm.trans hevent)

variable {writer : Writer} {occurredAt : Text}

theorem new_idempotencyKey {rt : StoreRuntime V B} {eventType : EventType} {key : Text}
    {target : EventTarget} {payload : V}
    (h : StoredEvent.new rt eventType key target writer payload occurredAt = .ok event) :
    event.idempotencyKey = key := by
  rw [StoredEvent.new] at h
  obtain ⟨u, -, h⟩ := bind_eq_ok.mp h
  cases h
  rfl

variable {attestation : EventSignature}

theorem assemble_unchanged {signer : SignerId}
        (h : (gateCosignatureForStore rt.toStoreRuntime (cosignaturePayload rt target signer attestation)
        (some target) trust).stores = true →
      journal[rt.sha256 (EventSignatureRecordedPayload.idempotencyKey
        (target.eventRecordHash rt.toStoreRuntime) signer attestation.sig)]? ≠ none) :
    finalState ((assembleAndRecordCosignatureWithWriter rt target signer attestation writer trust
      occurredAt (EventWriteBatch.recordEventOnce rt)).run journal) = journal := by
  rw [assembleAndRecordCosignatureWithWriter]
  refine (ReadsOnly.lift _).unchanged_bind ?_
  intro carrier hcarrier
  have hkey : carrier.idempotencyKey = idempotencyKey
      (target.eventRecordHash rt.toStoreRuntime) signer attestation.sig :=
    new_idempotencyKey (run_lift_eq_ok.mp hcarrier).1
  dsimp only
  split
  · rename_i hstores
    have htaken := h hstores
    rw [← hkey] at htaken
    exact unchanged_bind (recordEventOnce_unchanged htaken) fun _ _ => rfl
  · rfl

theorem transcribe_unchanged (hread : readStoredEvent rt journal event.idempotencyKey = .ok stored)
    (hclassify : classifyExisting rt stored event = .ok .existingDivergentSignature)
    (h : ∀ key, Transcribes rt journal event key → journal[rt.sha256 key]? ≠ none) :
    finalState ((transcribeDivergentSignature rt trust env session event).run journal) = journal := by
  rw [transcribeDivergentSignature]
  refine ReadsOnly.get.unchanged_bind ?_
  intro _ hget
  cases hget
  refine (ReadsOnly.lift _).unchanged_bind ?_
  intro target htarget
  obtain rfl := readEvent_of_readStoredEvent hread (run_lift_eq_ok.mp htarget).1
  split
  · rename_i attestation signer hsignature hsigner
    refine unchanged_bind (assemble_unchanged ?_) ?_
    · intro hstores
      exact h _ ⟨hread, hclassify, hsignature, hsigner, hstores⟩
    · intro record _
      split
      · exact (reads_observeRecordedEvent _ _).unchanged_bind fun _ _ => rfl
      · rfl
  · rfl

theorem Settled.unchanged (h : Settled rt journal event) :
    finalState ((recordVerifiedEvent rt trust env session event).run journal) = journal := by
  rw [recordVerifiedEvent]
  split
  · refine unchanged_bind ?_ fun _ _ => rfl
    rw [ingestDetachedCosignature]
    refine (ReadsOnly.lift _).unchanged_bind fun payload _ => ?_
    refine (reads_resolve _ _).unchanged_bind ?_
    rintro ⟨targets, target⟩ -
    dsimp only
    split
    · refine unchanged_bind (recordEventOnce_unchanged h.taken) fun outcome _ => ?_
      refine (reads_observeBatchWrite _ _ _).unchanged_bind fun _ _ => ?_
      split <;> rfl
    · rfl
    · rfl
    · rfl
  · rename_i hcarrier
    refine unchanged_bind (recordEventOnce_unchanged h.taken) fun answer hanswer => ?_
    refine (reads_observeBatchWrite _ _ _).unchanged_bind fun _ _ => ?_
    dsimp only
    cases answer with
    | created => rfl
    | existing => rfl
    | existingDivergentSignature =>
      obtain ⟨-, ⟨hfree, -⟩ | ⟨-, -, stored, hread, hclassify⟩⟩ := recordEventOnce_cases hanswer
      · exact absurd hfree h.taken
      · exact unchanged_bind (transcribe_unchanged hread hclassify (h.transcribed hcarrier))
          fun _ _ => rfl

/-- The diagnostic reports a carrier that was not stored. -/
def reportsDrop (diagnostic : ProjectionDiagnostic) : Bool :=
  [COSIGNATURE_INVALID_CODE, COSIGNATURE_TARGET_PENDING_CODE,
    COSIGNATURE_BINDING_MISMATCH_CODE].contains diagnostic.code

@[simp] theorem countCarrier_diagnostics (session : IngestBatchSession V)
    (answer : EventWriteOutcome) : (session.countCarrier answer).diagnostics = session.diagnostics := by
  cases answer <;> rfl

theorem diagnoseUntrusted_diagnostics (session : IngestBatchSession V)
    (status : EventVerificationStatus) (answer : EventWriteOutcome) (carrierId targetId : EventId)
    (signer : SignerId) (actor : ActorId) :
    session.diagnostics <+:
      (session.diagnoseUntrusted status answer carrierId targetId signer actor).diagnostics := by
  rw [IngestBatchSession.diagnoseUntrusted]
  split
  · exact prefix_append _ _
  · exact prefix_rfl

theorem cosignature_taken
    (h : (ingestDetachedCosignature rt trust session event).run journal = .ok session' journal') :
    session.diagnostics <+: session'.diagnostics ∧
      ((∀ d ∈ session'.diagnostics, reportsDrop d = false) →
        journal'[rt.sha256 event.idempotencyKey]? ≠ none) := by
  rw [ingestDetachedCosignature] at h
  obtain ⟨payload, J₁, hpayload, h⟩ := run_bind_eq_ok.mp h
  obtain ⟨⟨targets, target⟩, J₂, hresolve, h⟩ := run_bind_eq_ok.mp h
  dsimp only at h
  split at h
  · obtain ⟨answer, J₃, hwrite, hrest⟩ := run_bind_eq_ok.mp h
    obtain ⟨targets', J₄, hobserve, hend⟩ := run_bind_eq_ok.mp hrest
    obtain rfl := (reads_observeBatchWrite _ _ _).eq_of_ok hobserve
    have htaken := taken_of_recordEventOnce hwrite
    split at hend
    · cases hend
      refine ⟨?_, fun _ => htaken⟩
      refine List.IsPrefix.trans ?_ (diagnoseUntrusted_diagnostics _ _ _ _ _ _ _)
      simp
    · cases hend
      simp [htaken]
  -- every other carrier is dropped, and reported as such
  all_goals
    cases h
    refine ⟨prefix_append _ _, fun hnone => ?_⟩
    have hdropped := hnone _ (mem_append_right _ (mem_singleton_self _))
    cases hdropped

theorem assemble_taken {signer : SignerId}
    {record : CosignatureRecord V}
    (h : (assembleAndRecordCosignatureWithWriter rt target signer attestation writer trust
      occurredAt (EventWriteBatch.recordEventOnce rt)).run journal = .ok record journal')
    (hstores : (gateCosignatureForStore rt.toStoreRuntime (cosignaturePayload rt target signer
      attestation) (some target) trust).stores = true) :
    journal'[rt.sha256 (EventSignatureRecordedPayload.idempotencyKey
      (target.eventRecordHash rt.toStoreRuntime) signer attestation.sig)]? ≠ none := by
  rw [assembleAndRecordCosignatureWithWriter] at h
  obtain ⟨carrier, J₁, hcarrier, h⟩ := run_bind_eq_ok.mp h
  have hkey : carrier.idempotencyKey = idempotencyKey
      (target.eventRecordHash rt.toStoreRuntime) signer attestation.sig :=
    new_idempotencyKey (run_lift_eq_ok.mp hcarrier).1
  dsimp only at h
  rw [if_pos hstores] at h
  obtain ⟨answer, J₂, hwrite, h⟩ := run_bind_eq_ok.mp h
  cases h
  rw [← hkey]
  exact taken_of_recordEventOnce hwrite

theorem transcribe_taken
    (h : (transcribeDivergentSignature rt trust env session event).run journal =
      .ok session' journal') :
    session.diagnostics <+: session'.diagnostics ∧
      ∀ key, Transcribes rt journal event key → journal'[rt.sha256 key]? ≠ none := by
  rw [transcribeDivergentSignature] at h
  obtain ⟨_, J₁, hget, h⟩ := run_bind_eq_ok.mp h
  cases hget
  obtain ⟨target, J₂, hlift, hmatch⟩ := run_bind_eq_ok.mp h
  obtain ⟨htarget, rfl⟩ := run_lift_eq_ok.mp hlift
  split at hmatch
  · rename_i attestation signer hsignature hsigner
    obtain ⟨record, J₃, hrecord, hrest⟩ := run_bind_eq_ok.mp hmatch
    have htaken : ∀ key, Transcribes rt journal event key → J₃[rt.sha256 key]? ≠ none := by
      rintro _ ⟨hread, -, hsignature', hsigner', hgate⟩
      obtain rfl := readEvent_of_readStoredEvent hread htarget
      cases hsignature.symm.trans hsignature'
      cases hsigner.symm.trans hsigner'
      refine assemble_taken hrecord ?_
      rw [gateCosignatureForStore_stores]
      exact hgate
    split at hrest
    · obtain ⟨targets, J₄, hobserve, hend⟩ := run_bind_eq_ok.mp hrest
      obtain rfl := (reads_observeRecordedEvent _ _).eq_of_ok hobserve
      cases hend
      refine ⟨?_, htaken⟩
      refine List.IsPrefix.trans ?_ (diagnoseUntrusted_diagnostics _ _ _ _ _ _ _)
      simp
    · cases hrest
      exact ⟨prefix_rfl, htaken⟩
  · rename_i hnone
    cases hmatch
    refine ⟨prefix_rfl, ?_⟩
    rintro _ ⟨-, -, hsignature, hsigner, -⟩
    exact absurd hsigner (hnone _ _ hsignature)

theorem settled_of_run (hrt : ReadsBack rt.toStoreRuntime event)
    (h : (recordVerifiedEvent rt trust env session event).run journal = .ok session' journal') :
    session.diagnostics <+: session'.diagnostics ∧
      ((∀ d ∈ session'.diagnostics, reportsDrop d = false) → Settled rt journal' event) := by
  rw [recordVerifiedEvent] at h
  split at h
  · rename_i hcarrier
    obtain ⟨session₁, J₁, hrun, hend⟩ := run_bind_eq_ok.mp h
    cases hend
    obtain ⟨hinitial, htaken⟩ := cosignature_taken hrun
    exact ⟨hinitial, fun hnone => ⟨htaken hnone, fun hne => absurd hcarrier hne⟩⟩
  · obtain ⟨answer, J₁, hwrite, hrest⟩ := run_bind_eq_ok.mp h
    obtain ⟨targets, J₂, hobserve, hrest'⟩ := run_bind_eq_ok.mp hrest
    obtain rfl := (reads_observeBatchWrite _ _ _).eq_of_ok hobserve
    have htaken := taken_of_recordEventOnce hwrite
    obtain ⟨hvalid, hcases⟩ := recordEventOnce_cases hwrite
    cases answer with
    | created =>
      cases hrest'
      refine ⟨prefix_rfl, fun _ => ⟨htaken, ?_⟩⟩
      -- the stored event is this one, and its signature is its own
      rintro - _ ⟨hread, hclassify, -⟩
      obtain ⟨hfree, -, rfl⟩ | ⟨-, -, existing, -, hcreated⟩ := hcases
      · obtain ⟨-, rfl⟩ := (readStoredEvent_stored hrt hvalid (by simp)).mp hread
        rw [classifyExisting, if_pos rfl, if_pos (by simp [eventSignatureBindingMatches])] at hclassify
        cases hclassify
      · exact absurd rfl (classifyExisting_ne_created hcreated)
    | existing =>
      cases hrest'
      refine ⟨prefix_rfl, fun _ => ⟨htaken, ?_⟩⟩
      rintro - _ ⟨hread, hclassify, -⟩
      obtain ⟨-, hcreated, -⟩ | ⟨-, rfl, existing, hread', hclassify'⟩ := hcases
      · cases hcreated
      · cases hread.symm.trans hread'
        cases hclassify.symm.trans hclassify'
    | existingDivergentSignature =>
      obtain ⟨session₁, J₃, htranscribe, hend⟩ := run_bind_eq_ok.mp hrest'
      cases hend
      obtain ⟨hinitial, htranscribed⟩ := transcribe_taken htranscribe
      have hgrows : Journal.Grows J₂ journal' :=
        ((moves_transcribe (P := IsTranscribed) (fun _ h => h.isTranscribed) _ _).of_ok htranscribe).grows
      refine ⟨hinitial, fun _ => ⟨taken_of_grows hgrows htaken, ?_⟩⟩
      rintro - _ ⟨hread, hclassify, hsignature, hsigner, hgate⟩
      rw [readStoredEvent_grows hgrows htaken] at hread
      exact htranscribed _ ⟨hread, hclassify, hsignature, hsigner, hgate⟩

variable {stamped : List (StoredEvent V)}

theorem settled_of_recordVerifiedEvents (hrt : ∀ e ∈ stamped, ReadsBack rt.toStoreRuntime e)
    (h : (recordVerifiedEvents rt trust env stamped session).run journal = .ok session' journal') :
    session.diagnostics <+: session'.diagnostics ∧
      ((∀ d ∈ session'.diagnostics, reportsDrop d = false) →
        ∀ e ∈ stamped, Settled rt journal' e) := by
  induction stamped generalizing session journal with
  | nil =>
    cases h
    exact ⟨prefix_rfl, fun _ _ he => by cases he⟩
  | cons e stamped ih =>
    rw [recordVerifiedEvents, foldlM_cons] at h
    obtain ⟨session₁, J₁, hstep, hrest⟩ := run_bind_eq_ok.mp h
    obtain ⟨hinitial, hsettled⟩ := settled_of_run (hrt e (.head _)) hstep
    obtain ⟨hinitial', hsettled'⟩ := ih (fun e he => hrt e (.tail _ he)) hrest
    have hmoves : Moves (Appends rt fun _ => True) (recordVerifiedEvents rt trust env stamped session₁) :=
      Moves.foldlM Appends.refl Appends.trans
        (fun _ _ => moves_recordVerifiedEvent (fun _ => trivial) fun _ _ => trivial) session₁
    refine ⟨hinitial.trans hinitial', ?_⟩
    intro hnone
    refine forall_mem_cons.mpr ⟨?_, hsettled' hnone⟩
    exact (hsettled fun d hd => hnone d (hinitial'.subset hd)).grows (hmoves.of_ok hrest).grows

theorem recordVerifiedEvents_unchanged (h : ∀ e ∈ stamped, Settled rt journal e) :
    finalState ((recordVerifiedEvents rt trust env stamped session).run journal) = journal := by
  induction stamped generalizing session with
  | nil => rfl
  | cons e stamped ih =>
    rw [forall_mem_cons] at h
    rw [recordVerifiedEvents, foldlM_cons]
    exact unchanged_bind h.1.unchanged fun _ _ => ih h.2

variable {options : IngestEventsOptions V}

theorem settled_of_ingestEvents
    (hrt : ∀ e ∈ (StoreCall.ingest options env).offered, ReadsBack rt.toStoreRuntime e)
    {result : IngestEventsResult}
    (h : (ingestEvents rt options env).run journal = .ok result journal')
    (hnone : ∀ d ∈ result.diagnostics, reportsDrop d = false) :
    ∀ e ∈ options.events,
      Settled rt journal' (stampIngestProvenance .ingestEvents env.receivedAt e) := by
  rw [ingestEvents] at h
  obtain ⟨⟨stamped, verification⟩, J₁, hprepare, hrest⟩ := run_bind_eq_ok.mp h
  obtain rfl := stamped_of_prepare (run_lift_eq_ok.mp hprepare).1
  obtain ⟨⟨⟩, J₂, hbegin, hrest'⟩ := run_bind_eq_ok.mp hrest
  obtain ⟨session₁, J₃, hrun, hend⟩ := run_bind_eq_ok.mp hrest'
  cases hend
  intro e he
  exact (settled_of_recordVerifiedEvents hrt hrun).2 hnone _ (mem_map_of_mem he)

theorem ingestEvents_unchanged (h : ∀ e ∈ options.events,
      Settled rt journal (stampIngestProvenance .ingestEvents env.receivedAt e)) :
    finalState ((ingestEvents rt options env).run journal) = journal := by
  rw [ingestEvents]
  refine (ReadsOnly.lift _).unchanged_bind ?_
  rintro ⟨stamped, verification⟩ hprepare
  obtain rfl := stamped_of_prepare (run_lift_eq_ok.mp hprepare).1
  refine (reads_preflight _).unchanged_bind fun _ _ => ?_
  refine unchanged_bind (recordVerifiedEvents_unchanged ?_) fun _ _ => rfl
  intro e he
  obtain ⟨offered, hoffered, rfl⟩ := mem_map.mp he
  exact h offered hoffered

end Reingest

theorem record_run (event : StoredEvent V) (journal : Journal B) :
    (EventStore.recordEventOnce rt event).run journal =
      match preflightCurrentProduct rt journal with
      | .ok _ => (EventWriteBatch.recordEventOnce rt event).run journal
      | .error e => .error e journal := by
  have hbegin : (beginCurrentProductBatch rt).run journal =
      (lift (preflightCurrentProduct rt journal) : StoreM B Unit).run journal := rfl
  rw [EventStore.recordEventOnce, EStateM.run_bind, hbegin, run_lift]
  cases preflightCurrentProduct rt journal <;> rfl

theorem record_later (hrt : ReadsBack rt.toStoreRuntime stored)
    (hstored : validateEvent rt stored = .ok ())
    (hget : journal[rt.sha256 stored.idempotencyKey]? = some (rt.toVec stored))
    (hkey : event.idempotencyKey = stored.idempotencyKey) :
    AnswersExisting ((EventStore.recordEventOnce rt event).run journal) ↔
      preflightCurrentProduct rt journal = .ok () ∧ event.payloadHash = stored.payloadHash ∧
        validateEvent rt event = .ok () ∧ Text.isBlank stored.idempotencyKey = false := by
  rw [record_run]
  cases preflightCurrentProduct rt journal with
  | ok u => simp [recordEventOnce_later hrt hstored hget hkey]
  | error e => simp [AnswersExisting, outcome]

theorem error_of_not_answers {run : EStateM.Result ShoreError (Journal B) EventWriteOutcome}
    (hcreated : outcome run ≠ .ok .created) (h : ¬ AnswersExisting run) :
    ∃ e, outcome run = .error e := by
  cases hrun : outcome run with
  | error e => exact ⟨e, rfl⟩
  | ok answer =>
    refine absurd ⟨answer, hrun, ?_⟩ h
    rintro rfl
    exact hcreated hrun

/-- Records are never changed or lost, and a free address is filled by the first event that is
accepted for it, as it was then. A later event under the key of a stored one changes nothing. It is
answered by the payload hashes alone, except when it is not valid, when its key is blank, when the
store refused its writers from the start, or when an event was stored at the address of the
activation record. Ingesting a list again, no carrier of which was dropped, changes nothing. -/
theorem first_stored_wins (hcontrol : ControlRecordsRead rt) (journal : Journal B)
    (calls : List (StoreCall V))
    (hrt : ∀ event, (∃ call ∈ calls, event ∈ call.offered ∨ BuiltCarrier rt event) →
      ReadsBack rt.toStoreRuntime event) :
    (∃ writes, Writes rt journal writes (StoreCall.runAll rt journal calls) ∧
      (∀ w ∈ writes, validateEvent rt w.1 = .ok () ∧
        ∃ call ∈ calls, w.1 ∈ call.offered ∨ IsTranscribed w.1) ∧
      ∀ digest, (StoreCall.runAll rt journal calls)[digest]? = journal[digest]?.or
        ((writes.find? fun w => rt.sha256 w.1.idempotencyKey = digest).map fun w =>
          rt.toVec w.1)) ∧
    (∀ stored event : StoredEvent V,
      (StoreCall.runAll rt journal calls)[rt.sha256 stored.idempotencyKey]? =
        some (rt.toVec stored) → ReadsBack rt.toStoreRuntime stored →
      validateEvent rt stored = .ok () → event.idempotencyKey = stored.idempotencyKey →
      (finalState ((EventStore.recordEventOnce rt event).run (StoreCall.runAll rt journal calls)) =
          StoreCall.runAll rt journal calls ∧
        (¬ AnswersExisting
            ((EventStore.recordEventOnce rt event).run (StoreCall.runAll rt journal calls)) →
          ∃ e, outcome ((EventStore.recordEventOnce rt event).run
            (StoreCall.runAll rt journal calls)) = .error e) ∧
        ((AnswersExisting
              ((EventStore.recordEventOnce rt event).run (StoreCall.runAll rt journal calls)) ↔
            event.payloadHash = stored.payloadHash) ↔
          (event.payloadHash = stored.payloadHash →
            validateEvent rt event = .ok () ∧ Text.isBlank stored.idempotencyKey = false ∧
            preflightCurrentProduct rt journal = .ok () ∧
            (StoreCall.runAll rt journal calls)[rt.sha256 ROOT_ACTIVATION_LOGICAL_KEY_V1]? =
              journal[rt.sha256 ROOT_ACTIVATION_LOGICAL_KEY_V1]?))) ∧
      ((AnswersExisting ((EventWriteBatch.recordEventOnce rt event).run
              (StoreCall.runAll rt journal calls)) ↔
            event.payloadHash = stored.payloadHash) ↔
          (event.payloadHash = stored.payloadHash →
            validateEvent rt event = .ok () ∧ Text.isBlank stored.idempotencyKey = false))) ∧
    (∀ before options env after result journal',
      calls = before ++ .ingest options env :: after →
      (ingestEvents rt options env).run (StoreCall.runAll rt journal before) = .ok result journal' →
      (∀ d ∈ result.diagnostics, reportsDrop d = false) →
      ∀ options' env', options'.events = options.events →
        (StoreCall.ingest options' env').run rt (StoreCall.runAll rt journal calls) =
          StoreCall.runAll rt journal calls) := by
  refine ⟨?_, ?_, ?_⟩
  · obtain ⟨writes, hwrites, hoffered⟩ := runAll_appends rt journal calls
    refine ⟨writes, hwrites, fun w hw => ⟨hwrites.valid w hw, ?_⟩, hwrites.get⟩
    obtain ⟨call, hcall, h⟩ := hoffered w hw
    exact ⟨call, hcall, h.imp_right BuiltCarrier.isTranscribed⟩
  · intro stored event hget hread hstored hkey
    have htaken : (runAll rt journal calls)[rt.sha256 event.idempotencyKey]? ≠ none := by
      rw [hkey, hget]
      exact nofun
    refine ⟨⟨?_, ?_, ?_⟩, ?_⟩
    · rw [record_run]
      split
      · exact recordEventOnce_unchanged htaken
      · rfl
    · refine error_of_not_answers ?_
      rw [record_run]
      split
      · exact not_created_of_taken htaken
      · exact nofun
    · rw [record_later hread hstored hget hkey, admits_runAll_iff hcontrol calls hrt]
      tauto
    · rw [recordEventOnce_later hread hstored hget hkey]
      tauto
  · rintro before options env after result journal' rfl hrun hnone options' env' hevents
    have hsplit : runAll rt journal (before ++ .ingest options env :: after) =
        runAll rt journal' after := by
      rw [runAll, foldl_append, foldl_cons]
      have hcall : (StoreCall.ingest options env).run rt (runAll rt journal before) =
          journal' := by
        rw [StoreCall.run, hrun]
        rfl
      rw [runAll] at hcall
      rw [hcall]
      rfl
    rw [hsplit]
    refine ingestEvents_unchanged ?_
    intro e he
    rw [hevents] at he
    have hreads : ∀ e ∈ (StoreCall.ingest options env).offered, ReadsBack rt.toStoreRuntime e :=
      fun e he => hrt e ⟨_, mem_append_right _ (.head _), .inl he⟩
    exact ((settled_of_ingestEvents hreads hrun hnone e he).stamp).grows
      (runAll_appends rt journal' after).grows

end FirstStored

namespace StoreRecorded

def importEnv : IngestEnvironment where
  receivedAt := now
  writer := writer
  timestamp _ := now

def importNote : IngestEventsOptions StorePayload where
  events := [note]
  verificationPolicy := .advisory
  trustSet := {}

theorem note_ingested_again : AnswersExisting ((EventStore.recordEventOnce runtime note).run
      (StoreCall.runAll runtime ∅ [.ingest importNote importEnv])) ∧
    (StoreCall.ingest importNote importEnv).run runtime
        (StoreCall.runAll runtime ∅ [.ingest importNote importEnv]) =
      StoreCall.runAll runtime ∅ [.ingest importNote importEnv] := by
  have hrun : (runAll runtime ∅ [.ingest importNote importEnv])[
        runtime.sha256 note.idempotencyKey]? =
        some (.event (stampIngestProvenance .ingestEvents now note)) ∧
      (runAll runtime ∅ [.ingest importNote importEnv])[
        runtime.sha256 ROOT_ACTIVATION_LOGICAL_KEY_V1]? = none ∧
      validateEvent runtime note = .ok () ∧ Text.isBlank note.idempotencyKey = false ∧
      preflightCurrentProduct runtime ∅ = .ok () ∧
      ∃ result, outcome ((ingestEvents runtime importNote importEnv).run ∅) = .ok result ∧
        ∀ d ∈ result.diagnostics, reportsDrop d = false := by
    decide +kernel
  obtain ⟨hget, hroot, hvalid, hblank, hadmits, result, houtcome, hnone⟩ := hrun
  obtain ⟨-, hlater, hagain⟩ := first_stored_wins controlRecordsRead ∅
    [.ingest importNote importEnv] fun event _ => readsBack event
  constructor
  · have h := (hlater (stampIngestProvenance .ingestEvents now note) note hget (readsBack _) hvalid
      rfl).1.2.2
    refine (h.mpr fun _ => ⟨hvalid, hblank, hadmits, ?_⟩).mpr rfl
    rw [hroot]
    rfl
  · obtain ⟨journal, hfirst⟩ := outcome_eq_ok.mp houtcome
    exact hagain [] importNote importEnv [] result journal rfl hfirst hnone importNote importEnv rfl

/-- The note is stored, and an equal one is then refused: the writers are no longer admitted. -/
theorem squatter_not_answered : ∃ journal : Journal StoredRecord,
    journal = (StoreCall.record squatter).run runtime ∅ ∧
    journal[runtime.sha256 squatter.idempotencyKey]? = some (runtime.toVec squatter) ∧
    validateEvent runtime squatter = .ok () ∧
    ¬ AnswersExisting ((EventStore.recordEventOnce runtime squatter).run journal) := by
  refine ⟨_, rfl, ?_⟩
  have hrun : ((StoreCall.record squatter).run runtime ∅)[
        runtime.sha256 squatter.idempotencyKey]? = some (.event squatter) ∧
      validateEvent runtime squatter = .ok () ∧
      ∃ error, outcome ((EventStore.recordEventOnce runtime squatter).run
        ((StoreCall.record squatter).run runtime ∅)) = .error error := by
    decide +kernel
  obtain ⟨hget, hvalid, error, hrefused⟩ := hrun
  refine ⟨hget, hvalid, ?_⟩
  rintro ⟨answer, hanswer, -⟩
  rw [hanswer] at hrefused
  cases hrefused

end StoreRecorded

end Pointbreak
