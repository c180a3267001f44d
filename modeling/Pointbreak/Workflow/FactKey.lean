import Pointbreak.Store.Growth
import Pointbreak.Store.Recorded

/-!
# Workflow.FactKey

The idempotency keys of review facts. A key joins the code of the event type, the Revision, the
track and the source key with colons, and all but the code may contain colons themselves; so a key
identifies the fact only if no `revision:track:` is a prefix of another (`fact_keys_identify_iff`).
-/

namespace Pointbreak

open Stateful

def invalidTrackId (message : Text) : ShoreError := .workflowInputInvalid message

def isTrackByte (byte : UInt8) : Bool :=
  (97 ≤ byte.toNat && byte.toNat ≤ 122) || (48 ≤ byte.toNat && byte.toNat ≤ 57) ||
    byte == 45 || byte == 58

def validatedTrackId (value : Text) : Result TrackId := do
  let value := value.trim
  Result.ensure (!value.isEmpty) (invalidTrackId (text "track id cannot be empty"))
  Result.ensure (value.length ≤ 128) (invalidTrackId (text "track id must be 128 bytes or fewer"))
  Result.ensure (value ∉ [text "all", text "none", text "null", text "default", text "*"])
    (invalidTrackId (text "track id is reserved"))
  Result.ensure (!((text "system:").isPrefixOf value || (text "import:").isPrefixOf value))
    (invalidTrackId (text "track namespace is reserved"))
  Result.ensure (value.all isTrackByte) (invalidTrackId
    (text "track id may only contain lowercase ASCII letters, digits, '-' and ':'"))
  .ok ⟨value⟩

def factIdempotencyKey (eventType : EventType) (revisionId : RevisionId) (trackId : TrackId)
    (sourceKey : Text) : Text :=
  eventType.typeCode ++ text ":" ++ revisionId.asStr ++ text ":" ++ trackId.asStr ++ text ":" ++
    sourceKey

def ReviewObservationRecordedPayload.idempotencyKey : RevisionId → TrackId → Text → Text :=
  factIdempotencyKey .reviewObservationRecorded

def ReviewAssessmentRecordedPayload.idempotencyKey : RevisionId → TrackId → Text → Text :=
  factIdempotencyKey .reviewAssessmentRecorded

def InputRequestOpenedPayload.idempotencyKey : RevisionId → TrackId → Text → Text :=
  factIdempotencyKey .inputRequestOpened

def ValidationCheckRecordedPayload.idempotencyKey : RevisionId → TrackId → Text → Text :=
  factIdempotencyKey .validationCheckRecorded

/-- The families whose facts are recorded on a Revision and a track. -/
inductive ReviewFactFamily where
  | observation | assessment | inputRequest | validation
deriving DecidableEq

namespace ReviewFactFamily

def eventType : ReviewFactFamily → EventType
  | .observation => .reviewObservationRecorded
  | .assessment => .reviewAssessmentRecorded
  | .inputRequest => .inputRequestOpened
  | .validation => .validationCheckRecorded

def idempotencyKey : ReviewFactFamily → RevisionId → TrackId → Text → Text
  | .observation => ReviewObservationRecordedPayload.idempotencyKey
  | .assessment => ReviewAssessmentRecordedPayload.idempotencyKey
  | .inputRequest => InputRequestOpenedPayload.idempotencyKey
  | .validation => ValidationCheckRecordedPayload.idempotencyKey

end ReviewFactFamily

def keyScope (revisionId : RevisionId) (trackId : TrackId) : Text :=
  revisionId.asStr ++ text ":" ++ trackId.asStr ++ text ":"

theorem ReviewFactFamily.idempotencyKey_eq (family : ReviewFactFamily) (revisionId : RevisionId)
    (trackId : TrackId) (sourceKey : Text) :
    family.idempotencyKey revisionId trackId sourceKey =
      family.eventType.typeCode ++ (text ":" ++ (keyScope revisionId trackId ++ sourceKey)) := by
  cases family <;> simp [idempotencyKey, ReviewObservationRecordedPayload.idempotencyKey,
    ReviewAssessmentRecordedPayload.idempotencyKey, InputRequestOpenedPayload.idempotencyKey,
    ValidationCheckRecordedPayload.idempotencyKey, factIdempotencyKey, keyScope, eventType]

theorem length_typeCode (eventType : EventType) : eventType.typeCode.length = 4 := by
  cases eventType <;> decide +kernel

/-- The type can be read off a key, and so can what follows it. -/
theorem ReviewFactFamily.idempotencyKey_inj {family family' : ReviewFactFamily}
    {revisionId revisionId' : RevisionId} {trackId trackId' : TrackId}
    {sourceKey sourceKey' : Text} :
    family.idempotencyKey revisionId trackId sourceKey =
        family'.idempotencyKey revisionId' trackId' sourceKey' ↔
      family = family' ∧
        keyScope revisionId trackId ++ sourceKey = keyScope revisionId' trackId' ++ sourceKey' := by
  rw [idempotencyKey_eq, idempotencyKey_eq]
  constructor
  · intro h
    obtain ⟨hcode, hrest⟩ := List.append_inj h (by rw [length_typeCode, length_typeCode])
    refine ⟨?_, List.append_cancel_left hrest⟩
    revert hcode
    cases family <;> cases family' <;> decide +kernel
  · rintro ⟨rfl, hrest⟩
    rw [hrest]

def Nested (s t : Text) : Prop := s <+: t ∨ t <+: s

instance (s t : Text) : Decidable (Nested s t) := inferInstanceAs (Decidable (_ ∨ _))

theorem nested_of_append_eq {s t u v : Text} (h : s ++ u = t ++ v) : Nested s t := by
  obtain ⟨rest, rfl, -⟩ | ⟨rest, rfl, -⟩ := List.append_eq_append_iff.mp h
  · exact .inl (List.prefix_append ..)
  · exact .inr (List.prefix_append ..)

theorem exists_append_eq_of_nested {s t : Text} (h : Nested s t) : ∃ u v, s ++ u = t ++ v := by
  obtain ⟨rest, rfl⟩ | ⟨rest, rfl⟩ := h
  · exact ⟨rest, [], by simp⟩
  · exact ⟨[], rest, by simp⟩

section Store

variable {V B : Type} {rt : CapabilityRuntime V B} {event : StoredEvent V}
  {journal journal' : Journal B}

/-- A write looks at its own address only. -/
theorem outcome_recordEventOnce_congr
    (h : journal[rt.sha256 event.idempotencyKey]? = journal'[rt.sha256 event.idempotencyKey]?) :
    outcome ((EventWriteBatch.recordEventOnce rt event).run journal) =
      outcome ((EventWriteBatch.recordEventOnce rt event).run journal') := by
  cases hvalid : validateEvent rt event with
  | error e => rw [recordEventOnce_invalid hvalid, recordEventOnce_invalid hvalid]; rfl
  | ok u =>
    cases hget : journal[rt.sha256 event.idempotencyKey]? with
    | none =>
      rw [recordEventOnce_free hvalid hget, recordEventOnce_free hvalid (h ▸ hget)]
      rfl
    | some bytes =>
      have hread : readStoredEvent rt journal event.idempotencyKey =
          readStoredEvent rt journal' event.idempotencyKey := by
        rw [readStoredEvent, readStoredEvent, Journal.readEventBytes, Journal.readEventBytes, h]
      rw [recordEventOnce_taken hvalid hget, recordEventOnce_taken hvalid (h ▸ hget), hread]
      rw [run_lift, run_lift]
      split <;> rfl

theorem get_recordEventOnce_of_ne {digest : Text} (hne : digest ≠ rt.sha256 event.idempotencyKey) :
    (finalState ((EventWriteBatch.recordEventOnce rt event).run journal))[digest]? =
      journal[digest]? := by
  cases hrun : (EventWriteBatch.recordEventOnce rt event).run journal with
  | error e journal' =>
    rw [finalState_error, recordEventOnce_error hrun]
  | ok answer journal' =>
    rw [finalState_ok]
    obtain ⟨-, ⟨-, -, rfl⟩ | ⟨-, rfl, -⟩⟩ := recordEventOnce_cases hrun
    · rw [BTreeMap.get_insert, if_neg (Ne.symm hne)]
    · rfl

end Store

/-- Keys of two Revisions and tracks identify their facts, whatever the source keys are, exactly
when neither scope is a prefix of the other; then a write of the one fact never changes the answer
to a write of the other. -/
theorem fact_keys_identify_iff (family family' : ReviewFactFamily)
    (revisionId revisionId' : RevisionId) (trackId trackId' : TrackId) :
    ((∀ sourceKey sourceKey', family.idempotencyKey revisionId trackId sourceKey =
          family'.idempotencyKey revisionId' trackId' sourceKey' →
        family.eventType = family'.eventType ∧ revisionId = revisionId' ∧ trackId = trackId' ∧
          sourceKey = sourceKey') ↔
      (family = family' → Nested (keyScope revisionId trackId) (keyScope revisionId' trackId') →
        revisionId = revisionId' ∧ trackId = trackId')) ∧
    ((family = family' → ¬ Nested (keyScope revisionId trackId) (keyScope revisionId' trackId')) →
      ∀ {V B : Type} (rt : CapabilityRuntime V B) (journal : Journal B) (e e' : StoredEvent V)
        (sourceKey sourceKey' : Text),
        e.idempotencyKey = family.idempotencyKey revisionId trackId sourceKey →
        e'.idempotencyKey = family'.idempotencyKey revisionId' trackId' sourceKey' →
        (rt.sha256 e.idempotencyKey = rt.sha256 e'.idempotencyKey →
          e.idempotencyKey = e'.idempotencyKey) →
        outcome ((EventWriteBatch.recordEventOnce rt e').run
            (finalState ((EventWriteBatch.recordEventOnce rt e).run journal))) =
          outcome ((EventWriteBatch.recordEventOnce rt e').run journal)) := by
  constructor
  · constructor
    · rintro h rfl hnested
      obtain ⟨u, v, huv⟩ := exists_append_eq_of_nested hnested
      obtain ⟨-, hrevision, htrack, -⟩ :=
        h u v (ReviewFactFamily.idempotencyKey_inj.mpr ⟨rfl, huv⟩)
      exact ⟨hrevision, htrack⟩
    · intro h sourceKey sourceKey' hkey
      obtain ⟨rfl, hscope⟩ := ReviewFactFamily.idempotencyKey_inj.mp hkey
      obtain ⟨rfl, rfl⟩ := h rfl (nested_of_append_eq hscope)
      exact ⟨rfl, rfl, rfl, List.append_cancel_left hscope⟩
  · intro hapart V B rt journal e e' sourceKey sourceKey' he he' hsha
    refine outcome_recordEventOnce_congr (get_recordEventOnce_of_ne fun hsame => ?_)
    have hkey := hsha hsame.symm
    rw [he, he', ReviewFactFamily.idempotencyKey_inj] at hkey
    exact hapart hkey.1 (nested_of_append_eq hkey.2)

section Tracks

open StoreRecorded

/-- An observation of Revision `r` with this text, on this track and under this source key. -/
def observationOn (r : Nat) (track sourceKey body : Text) : StoredEvent StorePayload :=
  event .reviewObservationRecorded
    (ReviewObservationRecordedPayload.idempotencyKey (Recorded.rev r) ⟨track⟩ sourceKey)
    (.other body)

def holding (e : StoredEvent StorePayload) : Journal StoredRecord :=
  finalState ((EventWriteBatch.recordEventOnce runtime e).run ∅)

/-- The tracks `a` and `a:b` are accepted, and observations on them have one key; the second is
refused as a conflict with the first. -/
theorem colon_in_track_collides :
    validatedTrackId (text "a") = .ok ⟨text "a"⟩ ∧
    validatedTrackId (text "a:b") = .ok ⟨text "a:b"⟩ ∧
    ReviewObservationRecordedPayload.idempotencyKey (Recorded.rev 1) ⟨text "a"⟩ (text "b:c") =
      ReviewObservationRecordedPayload.idempotencyKey (Recorded.rev 1) ⟨text "a:b"⟩ (text "c") ∧
    outcome ((EventWriteBatch.recordEventOnce runtime
        (observationOn 1 (text "a:b") (text "c") (text "second"))).run
        (holding (observationOn 1 (text "a") (text "b:c") (text "first")))) =
      .error (.message (text "event conflict for idempotency key t:03:rev:01:a:b:c")) := by
  decide +kernel

/-- Observations of two Revisions whose ids have one length are both stored. -/
theorem revisions_told_apart :
    outcome ((EventWriteBatch.recordEventOnce runtime
        (observationOn 2 (text "a:b") (text "c") (text "second"))).run
        (holding (observationOn 1 (text "a") (text "b:c") (text "first")))) = .ok .created := by
  rw [holding, (fact_keys_identify_iff .observation .observation (Recorded.rev 1) (Recorded.rev 2)
    ⟨text "a"⟩ ⟨text "a:b"⟩).2 (fun _ => by decide +kernel) runtime ∅ _ _ (text "b:c") (text "c")
    rfl rfl fun hsha => absurd hsha (by decide +kernel)]
  decide +kernel

end Tracks

end Pointbreak
