import Pointbreak.Workflow.Ingest

/-!
# Store.Growth

What a store call can do to the Journal, said once: accepted writes, one after the other (`Writes`),
whatever the call returns. The local write, the write of a batch and the ingest are shown to be such
calls; everything about Journals over time follows from that.
-/

namespace Pointbreak

open Std Stateful EStateM EventWriteBatch List

section Growth

variable {V B : Type} {rt : CapabilityRuntime V B} {P Q : StoredEvent V → Prop}
  {journal journal' : Journal B} {event : StoredEvent V}

theorem recordEventOnce_free (hvalid : validateEvent rt event = .ok ())
    (hfree : journal[rt.sha256 event.idempotencyKey]? = none) :
    (EventWriteBatch.recordEventOnce rt event).run journal =
      .ok .created (journal.insert (rt.sha256 event.idempotencyKey) (rt.toVec event)) := by
  have hcontains : journal.contains (rt.sha256 event.idempotencyKey) = false := by
    rw [← ExtTreeMap.isSome_getElem?_eq_contains, hfree]
    rfl
  rw [recordEventOnce, run_bind, run_lift, hvalid]
  simp only [publishValidatedEvent, createEventOnce, run_bind, run_modifyGet,
    Journal.createRecordOnce, hcontains, Bool.false_eq_true, if_false, run_pure]

theorem recordEventOnce_taken (hvalid : validateEvent rt event = .ok ()) {bytes : B}
    (htaken : journal[rt.sha256 event.idempotencyKey]? = some bytes) :
    (EventWriteBatch.recordEventOnce rt event).run journal =
      (lift (readStoredEvent rt journal event.idempotencyKey >>= (classifyExisting rt · event)) :
        StoreM B EventWriteOutcome).run journal := by
  have hcontains : journal.contains (rt.sha256 event.idempotencyKey) = true := by
    rw [← ExtTreeMap.isSome_getElem?_eq_contains, htaken]
    rfl
  rw [recordEventOnce, run_bind, run_lift, hvalid]
  simp only [publishValidatedEvent, createEventOnce, run_bind, run_modifyGet,
    Journal.createRecordOnce, if_pos hcontains, run_get, lift_bind]

theorem recordEventOnce_invalid {error : ShoreError} (h : validateEvent rt event = .error error) :
    (EventWriteBatch.recordEventOnce rt event).run journal = .error error journal := by
  rw [recordEventOnce, run_bind, run_lift, h]

theorem recordEventOnce_error {error : ShoreError}
    (h : (EventWriteBatch.recordEventOnce rt event).run journal = .error error journal') :
    journal' = journal := by
  cases hvalid : validateEvent rt event with
  | error e =>
    rw [recordEventOnce_invalid hvalid] at h
    cases h
    rfl
  | ok u =>
    cases hget : journal[rt.sha256 event.idempotencyKey]? with
    | none =>
      rw [recordEventOnce_free hvalid hget] at h
      cases h
    | some bytes =>
      rw [recordEventOnce_taken hvalid hget, run_lift] at h
      split at h
      · cases h
      · cases h
        rfl

/-- What an accepted write did: it stored the event at a free address, or it found the address taken,
by an event that it can be compared with, and changed nothing. -/
theorem recordEventOnce_cases {outcome : EventWriteOutcome}
    (h : (EventWriteBatch.recordEventOnce rt event).run journal = .ok outcome journal') :
    validateEvent rt event = .ok () ∧
      ((journal[rt.sha256 event.idempotencyKey]? = none ∧ outcome = .created ∧
          journal' = journal.insert (rt.sha256 event.idempotencyKey) (rt.toVec event)) ∨
        (journal[rt.sha256 event.idempotencyKey]? ≠ none ∧ journal' = journal ∧
          ∃ existing, readStoredEvent rt journal event.idempotencyKey = .ok existing ∧
            classifyExisting rt existing event = .ok outcome)) := by
  cases hvalid : validateEvent rt event with
  | error e =>
    rw [recordEventOnce_invalid hvalid] at h
    cases h
  | ok u =>
    refine ⟨rfl, ?_⟩
    cases hget : journal[rt.sha256 event.idempotencyKey]? with
    | none =>
      rw [recordEventOnce_free hvalid hget] at h
      cases h
      exact .inl ⟨rfl, rfl, rfl⟩
    | some bytes =>
      rw [recordEventOnce_taken hvalid hget, run_lift_eq_ok, Result.bind_eq_ok] at h
      obtain ⟨⟨existing, hread, hclassify⟩, rfl⟩ := h
      exact .inr ⟨nofun, rfl, existing, hread, hclassify⟩

theorem classifyExisting_ne_created {existing : StoredEvent V} {outcome : EventWriteOutcome}
    (h : classifyExisting rt existing event = .ok outcome) : outcome ≠ .created := by
  rw [classifyExisting] at h
  split at h
  · split at h
    · cases h
      exact nofun
    · split at h
      · cases h
        exact nofun
      · cases h
        exact nofun
  · cases h

variable (rt) in
/-- Writes that were accepted one after the other, with the answers to them. -/
inductive Writes : Journal B → List (StoredEvent V × EventWriteOutcome) → Journal B → Prop where
  | nil (journal : Journal B) : Writes journal [] journal
  | cons {journal journal₁ journal' : Journal B} {event : StoredEvent V}
      {outcome : EventWriteOutcome} {writes : List (StoredEvent V × EventWriteOutcome)}
      (hwrite : (EventWriteBatch.recordEventOnce rt event).run journal = .ok outcome journal₁)
      (hrest : Writes journal₁ writes journal') : Writes journal ((event, outcome) :: writes) journal'

variable {writes writes' : List (StoredEvent V × EventWriteOutcome)}

namespace Writes

variable (h : Writes rt journal writes journal')

include h

theorem append {journal'' : Journal B}
    (h' : Writes rt journal' writes' journal'') :
    Writes rt journal (writes ++ writes') journal'' := by
  induction h with
  | nil => exact h'
  | cons hwrite _ ih => exact .cons hwrite (ih h')

/-- A record stays, and a free address gets the first event that is accepted for it. -/
theorem get (digest : Text) :
    journal'[digest]? = journal[digest]?.or
      ((writes.find? fun w => rt.sha256 w.1.idempotencyKey = digest).map fun w =>
        rt.toVec w.1) := by
  induction h with
  | nil => rw [find?_nil, Option.map_none, Option.or_none]
  | @cons journal journal₁ _ event _ _ hwrite _ ih =>
    obtain ⟨-, ⟨hfree, -, rfl⟩ | ⟨htaken, rfl, -⟩⟩ := recordEventOnce_cases hwrite
    · rw [ih, BTreeMap.get_insert, find?_cons]
      by_cases hkey : rt.sha256 event.idempotencyKey = digest
      · subst hkey
        rw [hfree]
        simp
      · simp [hkey]
    · rw [ih, find?_cons]
      by_cases hkey : rt.sha256 event.idempotencyKey = digest
      · subst hkey
        obtain ⟨bytes, hbytes⟩ := Option.ne_none_iff_exists'.mp htaken
        simp [hbytes]
      · simp [hkey]

theorem grows : Journal.Grows journal journal' := by
  intro digest bytes hget
  rw [h.get, hget, Option.some_or]

theorem valid :
    ∀ w ∈ writes, validateEvent rt w.1 = .ok () := by
  induction h with
  | nil => simp
  | cons hwrite _ ih =>
    rw [forall_mem_cons]
    exact ⟨(recordEventOnce_cases hwrite).1, ih⟩

end Writes

variable (rt) in
/-- The Journal was changed by accepted writes of events that `P` allows, and by nothing else. -/
def Appends (P : StoredEvent V → Prop) (journal journal' : Journal B) : Prop :=
  ∃ writes, Writes rt journal writes journal' ∧ ∀ w ∈ writes, P w.1

namespace Appends

theorem refl (journal : Journal B) : Appends rt P journal journal := ⟨[], .nil journal, by simp⟩

theorem trans (journal journal' journal'' : Journal B) (h : Appends rt P journal journal')
    (h' : Appends rt P journal' journal'') : Appends rt P journal journal'' := by
  obtain ⟨writes, hwrites, hP⟩ := h
  obtain ⟨writes', hwrites', hP'⟩ := h'
  refine ⟨writes ++ writes', hwrites.append hwrites', ?_⟩
  intro w hw
  exact (mem_append.mp hw).elim (hP w) (hP' w)

theorem mono (hPQ : ∀ e, P e → Q e) (h : Appends rt P journal journal') :
    Appends rt Q journal journal' := by
  obtain ⟨writes, hwrites, hP⟩ := h
  exact ⟨writes, hwrites, fun w hw => hPQ _ (hP w hw)⟩

theorem grows (h : Appends rt P journal journal') : Journal.Grows journal journal' := by
  obtain ⟨writes, hwrites, -⟩ := h
  exact hwrites.grows

theorem new_record (h : Appends rt P journal journal') {digest : Text} {bytes : B}
    (hold : journal[digest]? = none) (hnew : journal'[digest]? = some bytes) :
    ∃ event, P event ∧ validateEvent rt event = .ok () ∧
      digest = rt.sha256 event.idempotencyKey ∧ bytes = rt.toVec event := by
  obtain ⟨writes, hwrites, hP⟩ := h
  rw [hwrites.get, hold, Option.none_or, Option.map_eq_some_iff] at hnew
  obtain ⟨w, hw, rfl⟩ := hnew
  have hmem := mem_of_find?_eq_some hw
  have hkey := find?_some hw
  rw [decide_eq_true_eq] at hkey
  exact ⟨w.1, hP w hmem, hwrites.valid w hmem, hkey.symm, rfl⟩

end Appends

theorem moves_recordEventOnce (hP : P event) :
    Moves (Appends rt P) (EventWriteBatch.recordEventOnce rt event) := by
  intro journal
  cases hrun : (recordEventOnce rt event).run journal with
  | ok outcome journal' =>
    refine ⟨[(event, outcome)], .cons hrun (.nil _), ?_⟩
    intro w hw
    rw [mem_singleton.mp hw]
    exact hP
  | error e journal' =>
    obtain rfl : journal' = journal := recordEventOnce_error hrun
    exact Appends.refl _

theorem reads_preflight (f : Journal B → Result Unit) :
    ReadsOnly (do lift (f (← get)) : StoreM B Unit) :=
  ReadsOnly.get.bind fun _ => ReadsOnly.lift _

theorem moves_record (hP : P event) :
    Moves (Appends rt P) (EventStore.recordEventOnce rt event) :=
  ((reads_preflight _).of_eq Appends.refl).bind Appends.trans fun _ => moves_recordEventOnce hP

theorem moves_recordChange (hP : P event) :
    Moves (Appends rt P) (EventStore.recordChangeEventOnce rt event) := by
  rw [EventStore.recordChangeEventOnce]
  exact (ReadsOnly.get.of_eq Appends.refl).bind Appends.trans fun _ =>
    (Moves.lift Appends.refl _).bind Appends.trans fun _ => moves_recordEventOnce hP

section Ingest

variable {trust : TrustSet} {env : IngestEnvironment} (index : CarrierTargetIndex V)

theorem reads_seed : ReadsOnly (index.seed rt) := by
  rw [CarrierTargetIndex.seed]
  split
  · exact ReadsOnly.pure _
  · exact ReadsOnly.get.bind fun _ => (ReadsOnly.lift _).bind fun _ => ReadsOnly.pure _

theorem reads_resolve (eventId : Text) : ReadsOnly (index.resolve rt eventId) := by
  rw [CarrierTargetIndex.resolve]
  refine (reads_seed index).bind fun index => ?_
  split
  · exact ReadsOnly.pure _
  · split
    · exact ReadsOnly.pure _
    · exact ReadsOnly.get.bind fun _ => (ReadsOnly.lift _).bind fun _ => ReadsOnly.pure _

theorem reads_observeRecordedEvent (event : StoredEvent V) :
    ReadsOnly (index.observeRecordedEvent rt event) := by
  rw [CarrierTargetIndex.observeRecordedEvent]
  split
  · exact ReadsOnly.pure _
  · exact ReadsOnly.get.bind fun _ => (ReadsOnly.lift _).bind fun _ => ReadsOnly.pure _

theorem reads_observeBatchWrite (event : StoredEvent V) (outcome : EventWriteOutcome) :
    ReadsOnly (index.observeBatchWrite rt event outcome) := by
  unfold CarrierTargetIndex.observeBatchWrite
  split
  · exact ReadsOnly.pure _
  · cases outcome with
    | created => exact ReadsOnly.pure _
    | existing => exact reads_observeRecordedEvent index event
    | existingDivergentSignature => exact reads_observeRecordedEvent index event

theorem moves_ingestDetachedCosignature (session : IngestBatchSession V)
    (hP : (∃ payload, rt.eventSignatureRecorded event.payload = .ok payload) → P event) :
    Moves (Appends rt P) (ingestDetachedCosignature rt trust session event) := by
  rw [ingestDetachedCosignature]
  refine (Moves.lift Appends.refl _).bind_of_ok Appends.trans ?_
  intro journal payload journal' hdecode
  have hP : P event := hP ⟨payload, fromValue_eq_ok.mp (run_lift_eq_ok.mp hdecode).1⟩
  refine (?_ : Moves (Appends rt P) _) journal'
  refine ((reads_resolve _ _).of_eq Appends.refl).bind Appends.trans fun resolved => ?_
  obtain ⟨targets, target⟩ := resolved
  dsimp only
  split
  · refine (moves_recordEventOnce hP).bind Appends.trans fun outcome => ?_
    refine ((reads_observeBatchWrite _ _ _).of_eq Appends.refl).bind Appends.trans fun targets => ?_
    split <;> exact Moves.pure Appends.refl _
  all_goals exact Moves.pure Appends.refl _

def IsTranscribed (event : StoredEvent V) : Prop := event.eventType = .eventSignatureRecorded

/-- A carrier as the store builds it over a target. -/
def BuiltCarrier (rt : CapabilityRuntime V B) (carrier : StoredEvent V) : Prop :=
  ∃ target signer attestation envelope writer occurredAt,
    StoredEvent.new rt.toStoreRuntime .eventSignatureRecorded
      (EventSignatureRecordedPayload.idempotencyKey (target.eventRecordHash rt.toStoreRuntime) signer
        attestation.sig) envelope writer
      (rt.eventSignatureValue (cosignaturePayload rt target signer attestation)) occurredAt =
      .ok carrier

theorem BuiltCarrier.isTranscribed (h : BuiltCarrier rt event) : IsTranscribed event := by
  obtain ⟨_, _, _, _, _, _, hnew⟩ := h
  obtain ⟨u, -, ⟨⟩⟩ := Result.bind_eq_ok.mp hnew
  rfl

theorem moves_assemble (hP : ∀ e, BuiltCarrier rt e → P e) (target : StoredEvent V)
    (signer : SignerId) (attestation : EventSignature) (writer : Writer) (occurredAt : Text)
    {recordEventOnce : StoredEvent V → StoreM B EventWriteOutcome}
    (hrecord : ∀ e, P e → Moves (Appends rt P) (recordEventOnce e)) :
    Moves (Appends rt P) (assembleAndRecordCosignatureWithWriter rt target signer attestation writer
      trust occurredAt recordEventOnce) := by
  rw [assembleAndRecordCosignatureWithWriter]
  refine (Moves.lift Appends.refl _).bind_of_ok Appends.trans ?_
  intro journal carrier journal' hrun
  have hcarrier : P carrier := hP carrier ⟨_, _, _, _, _, _, (run_lift_eq_ok.mp hrun).1⟩
  refine (?_ : Moves (Appends rt P) _) journal'
  dsimp only
  split
  · exact (hrecord carrier hcarrier).bind Appends.trans fun _ => Moves.pure Appends.refl _
  · exact Moves.pure Appends.refl _

theorem moves_transcribe (hP : ∀ e, BuiltCarrier rt e → P e) (session : IngestBatchSession V)
    (event : StoredEvent V) :
    Moves (Appends rt P) (transcribeDivergentSignature rt trust env session event) := by
  rw [transcribeDivergentSignature]
  refine (ReadsOnly.get.of_eq Appends.refl).bind Appends.trans fun _ => ?_
  refine (Moves.lift Appends.refl _).bind Appends.trans fun storedTarget => ?_
  split
  · refine (moves_assemble hP _ _ _ _ _ fun _ he => moves_recordEventOnce he).bind Appends.trans
      fun record => ?_
    split
    · exact ((reads_observeRecordedEvent _ _).of_eq Appends.refl).bind Appends.trans fun _ =>
        Moves.pure Appends.refl _
    · exact Moves.pure Appends.refl _
  · exact Moves.pure Appends.refl _

/-- An event that the ingest may write: it is no carrier, or one that can be decoded. -/
def Ingestible (rt : CapabilityRuntime V B) (event : StoredEvent V) : Prop :=
  event.eventType = .eventSignatureRecorded →
    ∃ payload, rt.eventSignatureRecorded event.payload = .ok payload

theorem moves_recordVerifiedEvent (hP : Ingestible rt event → P event)
    (htranscribed : ∀ e, BuiltCarrier rt e → P e) (session : IngestBatchSession V) :
    Moves (Appends rt P) (recordVerifiedEvent rt trust env session event) := by
  rw [recordVerifiedEvent]
  split
  · exact (moves_ingestDetachedCosignature session fun h => hP fun _ => h).bind Appends.trans
      fun _ => Moves.pure Appends.refl _
  · rename_i hcarrier
    refine (moves_recordEventOnce (hP fun h => absurd h hcarrier)).bind Appends.trans fun outcome => ?_
    refine ((reads_observeBatchWrite _ _ _).of_eq Appends.refl).bind Appends.trans fun targets => ?_
    cases outcome with
    | created => exact Moves.pure Appends.refl _
    | existing => exact Moves.pure Appends.refl _
    | existingDivergentSignature =>
      exact (moves_transcribe htranscribed _ _).bind Appends.trans fun _ =>
        Moves.pure Appends.refl _

theorem stamped_of_prepare {events stamped : List (StoredEvent V)} {policy : EventVerificationPolicy}
    {receivedAt : Text} {verification : List IngestEventVerification}
    (h : prepareEventsForIngest rt events policy trust receivedAt = .ok (stamped, verification)) :
    stamped = events.map (stampIngestProvenance .ingestEvents receivedAt) := by
  rw [prepareEventsForIngest] at h
  obtain ⟨u, -, h⟩ := Result.bind_eq_ok.mp h
  obtain ⟨rows, -, h⟩ := Result.bind_eq_ok.mp h
  cases h
  rfl

/-- The ingest appends offered events, with its stamp on them, and carriers of its own. -/
theorem moves_ingestEvents (options : IngestEventsOptions V)
    (hP : ∀ e ∈ options.events, Ingestible rt e →
      P (stampIngestProvenance .ingestEvents env.receivedAt e))
    (htranscribed : ∀ e, BuiltCarrier rt e → P e) :
    Moves (Appends rt P) (ingestEvents rt options env) := by
  rw [ingestEvents]
  refine (Moves.lift Appends.refl _).bind_of_ok Appends.trans ?_
  intro journal prepared journal' hrun
  obtain ⟨stamped, verification⟩ := prepared
  obtain rfl := stamped_of_prepare (run_lift_eq_ok.mp hrun).1
  refine (((reads_preflight _).of_eq Appends.refl).bind Appends.trans fun _ => ?_) journal'
  refine Moves.bind Appends.trans ?_ fun _ => Moves.pure Appends.refl _
  refine Moves.foldlM Appends.refl Appends.trans ?_ _
  intro e he session
  obtain ⟨offered, hoffered, rfl⟩ := mem_map.mp he
  exact moves_recordVerifiedEvent (hP offered hoffered) htranscribed session

/-- A call on the store. -/
inductive StoreCall (V : Type) where
  | record (event : StoredEvent V)
  | recordChange (event : StoredEvent V)
  | ingest (options : IngestEventsOptions V) (env : IngestEnvironment)

namespace StoreCall

def run (rt : CapabilityRuntime V B) (journal : Journal B) : StoreCall V → Journal B
  | .record event => finalState ((EventStore.recordEventOnce rt event).run journal)
  | .recordChange event => finalState ((EventStore.recordChangeEventOnce rt event).run journal)
  | .ingest options env => finalState ((ingestEvents rt options env).run journal)

def offered : StoreCall V → List (StoredEvent V)
  | .record event => [event]
  | .recordChange event => [event]
  | .ingest options env =>
    options.events.map (stampIngestProvenance .ingestEvents env.receivedAt)

/-- A call appends events that were offered to it, and an ingest also carriers of its own. -/
theorem appends (rt : CapabilityRuntime V B) (journal : Journal B) (call : StoreCall V) :
    Appends rt (fun e => e ∈ call.offered ∨ BuiltCarrier rt e) journal (call.run rt journal) := by
  cases call with
  | record event => exact moves_record (.inl (.head _)) journal
  | recordChange event => exact moves_recordChange (.inl (.head _)) journal
  | ingest options env =>
    refine moves_ingestEvents options ?_ (fun e he => .inr he) journal
    intro e he _
    exact .inl (mem_map_of_mem he)

end StoreCall

end Ingest

end Growth

end Pointbreak
