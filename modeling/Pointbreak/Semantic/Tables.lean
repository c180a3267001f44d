import Pointbreak.Lib.Tally
import Pointbreak.Semantic.State
import Pointbreak.Workflow.AssessmentView

/-!
# Semantic.Tables

The state that the derived store keeps beside its fact rows: a row of counters, the row of the fact
that represents a semantic id, and the row of its duplicates. A table is a map from its primary key,
an `UPDATE` of the one state row is a function on it, and a failed `CHECK` or a panic is an error.
-/

namespace Pointbreak

open Std BTreeMap
open Text (isCharBoundary)

inductive SqliteLocatorError where
  | sqlite (operation : Text)
  | delta (message : Text)
  /-- The thread unwinds; the transaction is rolled back. -/
  | panicked (message : Text)
deriving DecidableEq

abbrev LocatorResult (α : Type) : Type := Except SqliteLocatorError α

/-- `split_at`, which panics inside a character. -/
def splitAt (value : Text) (mid : Nat) : LocatorResult (Text × Text) :=
  if isCharBoundary value mid then .ok (value.take mid, value.drop mid)
  else .error (.panicked (text "failed to slice string"))

def hexValue (byte : UInt8) : Nat := if byte.toNat ≤ 57 then byte.toNat - 48 else byte.toNat - 87

def decodeHex : Text → List UInt8
  | high :: low :: rest => .ofNat (16 * hexValue high + hexValue low) :: decodeHex rest
  | _ => []

def splitCanonicalDigest (value : Text) : LocatorResult (Option (Text × List UInt8)) :=
  if value.length < 64 then .ok none
  else do
    let (start, hex) ← splitAt value (value.length - 64)
    if start.isEmpty || !hex.all Text.isLowerHex then .ok none
    else .ok (some (start, decodeHex hex))

/-- How a row stores a key: whole, or as a shared part and a digest. -/
inductive StoredKey where
  | raw (value : Text)
  | digest (start : Text) (bytes : List UInt8)

/-- The key as the views read it. -/
def StoredKey.text : StoredKey → Text
  | raw value => value
  | digest start bytes => start ++ Text.lowercaseHex bytes

def encodeIdentity (value : Text) : LocatorResult StoredKey := do
  match ← splitCanonicalDigest value with
  | some (start, digest) => .ok (.digest start digest)
  | none => .ok (.raw value)

/-- The key ends in a character boundary and sixty-four bytes, or is shorter than that. -/
def SplitsCleanly (value : Text) : Prop :=
  64 ≤ value.length → isCharBoundary value (value.length - 64) = true

instance (value : Text) : Decidable (SplitsCleanly value) :=
  inferInstanceAs (Decidable (_ → _ = true))

theorem hexDigit_hexValue {byte : UInt8} (h : Text.isLowerHex byte = true) :
    Text.hexDigit (hexValue byte) = byte ∧ hexValue byte < 16 := by
  simp only [Text.isLowerHex, Bool.or_eq_true, Bool.and_eq_true, decide_eq_true_eq] at h
  rw [hexValue, Text.hexDigit]
  obtain h | h := h
  · rw [if_pos h.2, if_pos (by omega), Nat.add_sub_cancel' h.1, UInt8.ofNat_toNat]
    exact ⟨rfl, by omega⟩
  · have hletter : ¬ byte.toNat ≤ 57 := by omega
    rw [if_neg hletter, if_neg (by omega), Nat.add_sub_cancel' (by omega), UInt8.ofNat_toNat]
    exact ⟨rfl, by omega⟩

theorem lowercaseHex_decodeHex {hex : Text} (h : hex.all Text.isLowerHex = true)
    (heven : hex.length % 2 = 0) : Text.lowercaseHex (decodeHex hex) = hex := by
  induction hex using decodeHex.induct with
  | case1 high low rest ih =>
    simp only [List.all_cons, Bool.and_eq_true] at h
    obtain ⟨hhigh, hhigh'⟩ := hexDigit_hexValue h.1
    obtain ⟨hlow, hlow'⟩ := hexDigit_hexValue h.2.1
    have hbyte : (UInt8.ofNat (16 * hexValue high + hexValue low)).toNat =
        16 * hexValue high + hexValue low := by
      rw [UInt8.toNat_ofNat']
      omega
    have hrest : rest.length % 2 = 0 := by
      simp only [List.length_cons] at heven
      omega
    rw [decodeHex, Text.lowercaseHex, List.flatMap_cons, hbyte,
      show (16 * hexValue high + hexValue low) / 16 = hexValue high by omega,
      show (16 * hexValue high + hexValue low) % 16 = hexValue low by omega, hhigh, hlow]
    exact congrArg (high :: low :: ·) (ih h.2.2 hrest)
  | case2 l hl =>
    cases l with
    | nil => rfl
    | cons a l =>
      cases l with
      | nil => simp at heven
      | cons b l => exact absurd rfl (hl a b l)

theorem text_of_encodeIdentity {value : Text} {key : StoredKey}
    (h : encodeIdentity value = .ok key) : key.text = value := by
  simp only [encodeIdentity, splitCanonicalDigest, Result.bind_eq_ok] at h
  obtain ⟨split, hsplit, h⟩ := h
  by_cases hlen : value.length < 64
  · rw [if_pos hlen] at hsplit
    cases hsplit
    cases h
    rfl
  · rw [if_neg hlen, Result.bind_eq_ok] at hsplit
    obtain ⟨⟨start, hex⟩, hcut, hsplit⟩ := hsplit
    rw [splitAt] at hcut
    split at hcut
    · cases hcut
      split at hsplit
      · cases hsplit
        cases h
        rfl
      · rename_i hdigits
        cases hsplit
        cases h
        simp only [Bool.or_eq_true, not_or, Bool.not_eq_true', Bool.not_eq_false] at hdigits
        have heven : (value.drop (value.length - 64)).length % 2 = 0 := by
          rw [List.length_drop]
          omega
        rw [StoredKey.text, lowercaseHex_decodeHex hdigits.2 heven, List.take_append_drop]
    · cases hcut

theorem encodeIdentity_eq_ok_iff {value : Text} :
    (∃ key, encodeIdentity value = .ok key) ↔ SplitsCleanly value := by
  rw [SplitsCleanly, encodeIdentity, splitCanonicalDigest]
  by_cases hlen : value.length < 64
  · rw [if_pos hlen]
    exact ⟨fun _ h => absurd h (by omega), fun _ => ⟨.raw value, rfl⟩⟩
  · rw [if_neg hlen, splitAt]
    by_cases hcut : isCharBoundary value (value.length - 64) = true
    · rw [if_pos hcut]
      refine ⟨fun _ _ => hcut, fun _ => ?_⟩
      simp only [bind, Except.bind]
      split_ifs <;> exact ⟨_, rfl⟩
    · rw [if_neg hcut]
      exact iff_of_false (by simp [bind, Except.bind]) fun h => hcut (h (by omega))

/-- The family and the key that a fact stands for. -/
def materializedIdentity (fact : SemanticFact) : Option (SemanticFamily × Text) :=
  match fact.kind with
  | .revision _ => fact.revisionId.map fun key => (.revision, key)
  | .observation => fact.semanticId.map fun key => (.observation, key)
  | .assessment _ => fact.semanticId.map fun key => (.assessment, key)
  | .inputRequestOpened _ => fact.semanticId.map fun key => (.request, key)
  | .inputRequestResponded _ => fact.semanticId.map fun key => (.response, key)
  | .validation _ => fact.semanticId.map fun key => (.validation, key)
  | .commitAssociated _ => fact.semanticId.map fun key => (.commitAssociation, key)
  | .commitWithdrawn _ => fact.semanticId.map fun key => (.commitWithdrawal, key)
  | .refAssociated _ => fact.semanticId.map fun key => (.refAssociation, key)
  | .refWithdrawn _ => fact.semanticId.map fun key => (.refWithdrawal, key)
  | .artifactRemoved => fact.contentHash.map fun key => (.removal, key)
  | .other => fact.change.map fun _ => (.changeRecord, fact.eventId)

def duplicateFamily : SemanticFamily → Bool
  | .observation | .assessment | .request | .response | .validation => true
  | _ => false

structure RepresentativeRow where
  key : StoredKey
  fact : SemanticFact

structure DuplicateRow where
  eventCount : Nat
  eventIds : List Text

structure MaterializedSemanticState where
  journalId : Text := DEFAULT_JOURNAL_ID
  currentRevisionId : Option Text := none
  currentObjectId : Option Text := none
  revisionCount : Nat := 0
  eventCount : Nat := 0
  observationCount : Nat := 0
  assessmentCount : Nat := 0
  validationCheckCount : Nat := 0
  inputRequestCount : Nat := 0
  openInputRequestCount : Nat := 0
  openOperativeInputRequestCount : Nat := 0

/-- The fact rows in the order of their sequences, and what is materialised from them. The
representatives are keyed by the family and the digest of the key. -/
structure SemanticTables where
  eventFacts : List SemanticFact := []
  representatives : BTreeMap (SemanticFamily × Text) RepresentativeRow := ∅
  duplicates : BTreeMap (SemanticFamily × Text) DuplicateRow := ∅
  state : MaterializedSemanticState := {}

def SemanticFactKind.requestId : SemanticFactKind → Option Text
  | .inputRequestResponded response => some response.requestId
  | _ => none

def laterFactLE (a b : SemanticFact) : Prop :=
  ((compare b.replayKey a.replayKey).then (compare b.eventId a.eventId)).isLE = true

instance : DecidableRel laterFactLE := fun _ _ => inferInstanceAs (Decidable (_ = true))

def latestInitialized (facts : List SemanticFact) : Option SemanticFact :=
  ((facts.filter fun fact => fact.eventType = EventType.reviewInitialized.asStr &&
    fact.semanticId.isNone).insertionSort laterFactLE).head?

namespace MaterializedSemanticState

variable (state : MaterializedSemanticState)

def incrementMaterializedFamilyCount (family : SemanticFamily) (fact : SemanticFact) :
    LocatorResult MaterializedSemanticState :=
  match family with
  | .revision =>
    match fact.kind with
    | .revision revision => .ok { state with
        revisionCount := state.revisionCount + 1
        currentRevisionId := if state.revisionCount = 0 then fact.revisionId else none
        currentObjectId := if state.revisionCount = 0 then some revision.objectId else none }
    | _ => .error (.delta (text "revision representative has the wrong semantic kind"))
  | .observation => .ok { state with observationCount := state.observationCount + 1 }
  | .assessment => .ok { state with assessmentCount := state.assessmentCount + 1 }
  | .validation => .ok { state with validationCheckCount := state.validationCheckCount + 1 }
  | .request => .ok { state with inputRequestCount := state.inputRequestCount + 1 }
  | _ => .ok state

def replaceCurrentRevision (family : SemanticFamily) (key : Text) (fact : SemanticFact) :
    LocatorResult MaterializedSemanticState :=
  match family with
  | .revision =>
    match fact.kind with
    | .revision revision => .ok { state with
        currentObjectId :=
          if state.revisionCount = 1 ∧ state.currentRevisionId = some key then
            some revision.objectId
          else state.currentObjectId }
    | _ => .error (.delta (text "revision representative has the wrong semantic kind"))
  | _ => .ok state

def countRepresentative (family : SemanticFamily) (key : Text) (fact : SemanticFact)
    (inserted : Bool) : LocatorResult MaterializedSemanticState :=
  if inserted then state.incrementMaterializedFamilyCount family fact
  else state.replaceCurrentRevision family key fact

/-- A counter after a change, which its `CHECK` refuses below zero. -/
def adjusted (count : Nat) (before after : Bool) : LocatorResult Nat :=
  let sum : Int := count + (after.toNat - before.toNat : Int)
  if sum < 0 then .error (.sqlite (text "adjust open request counts")) else .ok sum.toNat

def adjustRequestStateCounts (before after : Bool × Bool) :
    LocatorResult MaterializedSemanticState := do
  let openInputRequestCount ← adjusted state.openInputRequestCount before.1 after.1
  let openOperativeInputRequestCount ←
    adjusted state.openOperativeInputRequestCount before.2 after.2
  .ok { state with openInputRequestCount, openOperativeInputRequestCount }

end MaterializedSemanticState

namespace SemanticTables

variable (sha : Sha256) (tables : SemanticTables) (fact : SemanticFact) (family : SemanticFamily)
  (semanticKey : Text)

def representative : Option RepresentativeRow := tables.representatives[(family, sha semanticKey)]?

def advance : LocatorResult SemanticTables :=
  if fact.eventType = EventType.reviewInitialized.asStr then
    match latestInitialized tables.eventFacts with
    | none => .error (.sqlite (text "select materialized journal"))
    | some row => .ok { tables with
        state := { tables.state with
          eventCount := tables.state.eventCount + 1, journalId := row.journalId } }
  else .ok { tables with
    state := { tables.state with
      eventCount := tables.state.eventCount + 1
      journalId := if tables.state.eventCount = 0 then fact.journalId else tables.state.journalId } }

def upsertDuplicate (eventCount : Nat) (eventIds : List Text) (eventId : Text) : SemanticTables :=
  { tables with
    duplicates := tables.duplicates.insert (family, semanticKey)
      { eventCount, eventIds := (sortedUnique (eventIds ++ [eventId])).take 5 } }

def updateMaterializedDuplicate (eventId : Text) : LocatorResult SemanticTables :=
  match tables.duplicates[(family, semanticKey)]? with
  | some row =>
    .ok (tables.upsertDuplicate family semanticKey (row.eventCount + 1) row.eventIds eventId)
  | none =>
    match tables.representative sha family semanticKey with
    | none => .ok tables
    | some row =>
      if row.key.text ≠ semanticKey then
        .error (.delta (text "semantic duplicate digest resolves to a different key"))
      else .ok (tables.upsertDuplicate family semanticKey 2 [row.fact.eventId] eventId)

/-- Only some families have rows of duplicates. -/
def recordDuplicate (eventId : Text) : LocatorResult SemanticTables :=
  if duplicateFamily family then tables.updateMaterializedDuplicate sha family semanticKey eventId
  else .ok tables

/-- A response row that represents its id names the request. -/
def isResponded (requestId : Text) : Bool :=
  tables.representatives.toList.any fun (key, row) =>
    key.1 = .response && row.fact.kind.requestId = some requestId

def requestProjectionState (requestId : Text) : LocatorResult (Bool × Bool) :=
  match tables.representative sha .request requestId with
  | none => .ok (false, false)
  | some row =>
    if row.key.text ≠ requestId then
      .error (.delta (text "request representative digest resolves to a different key"))
    else
      let isOpen := !tables.isResponded requestId
      .ok (isOpen, isOpen && row.fact.assertionMode = .operative)

/-- The requests whose state a new representative can change. -/
def affectedRequests (previous : Option RepresentativeRow) : LocatorResult (BTreeSet Text) :=
  match family with
  | .request => .ok ((∅ : BTreeSet Text).insert semanticKey)
  | .response =>
    match fact.kind with
    | .inputRequestResponded response =>
      let old := previous.bind fun row => row.fact.kind.requestId
      .ok ((BTreeSet.collect old.toList).insert response.requestId)
    | _ => .error (.delta (text "response representative has the wrong semantic kind"))
  | _ => .ok ∅

/-- The state of a request before an update is settled against its state after it. -/
def settleRequest (before : Text × (Bool × Bool)) : LocatorResult SemanticTables := do
  let after ← tables.requestProjectionState sha before.1
  let state ← tables.state.adjustRequestStateCounts before.2 after
  .ok { tables with state }

def requestStates (affected : BTreeSet Text) : LocatorResult (List (Text × (Bool × Bool))) :=
  affected.toList.mapM fun requestId => do
    let state ← tables.requestProjectionState sha requestId
    .ok (requestId, state)

def replaceRepresentative (previous : Option RepresentativeRow) : LocatorResult SemanticTables := do
  let affected ← affectedRequests fact family semanticKey previous
  let before ← tables.requestStates sha affected
  let key ← encodeIdentity semanticKey
  let state ← tables.state.countRepresentative family semanticKey fact previous.isNone
  before.foldlM (settleRequest sha) { tables with
    representatives := tables.representatives.insert (family, sha semanticKey) { key, fact }
    state }

/-- The fact stands for its key if no fact does yet, or if its event id is the lower one. -/
def retainRepresentative : LocatorResult SemanticTables :=
  let previous := tables.representative sha family semanticKey
  if previous.any fun row => row.key.text ≠ semanticKey then
    .error (.delta (text "semantic representative digest resolves to a different key"))
  else if previous.all fun row => compare fact.eventId row.fact.eventId = .lt then
    tables.replaceRepresentative sha fact family semanticKey previous
  else .ok tables

def updateMaterializedProjection : LocatorResult SemanticTables := do
  let tables ← tables.advance fact
  match materializedIdentity fact with
  | none => .ok tables
  | some (family, semanticKey) =>
    let tables ← tables.recordDuplicate sha family semanticKey fact.eventId
    tables.retainRepresentative sha fact family semanticKey

/-- The ids of the fact are encoded for its row, and the projection follows. -/
def insertFact : LocatorResult SemanticTables := do
  let _revision ← fact.revisionId.mapM encodeIdentity
  let _semantic ← fact.semanticId.mapM encodeIdentity
  let _content ← fact.contentHash.mapM encodeIdentity
  { tables with eventFacts := tables.eventFacts ++ [fact] }.updateMaterializedProjection sha fact

end SemanticTables

/-- The texts that the rows of a fact store as keys. -/
def SemanticFact.storedKeys (fact : SemanticFact) : List Text :=
  fact.revisionId.toList ++ fact.semanticId.toList ++ fact.contentHash.toList ++
    ((materializedIdentity fact).map Prod.snd).toList

theorem mapM_encodeIdentity {value : Option Text} :
    (∃ key, value.mapM encodeIdentity = .ok key) ↔ ∀ text ∈ value.toList, SplitsCleanly text := by
  cases value with
  | none => simp [pure, Except.pure]
  | some value =>
    rw [Option.toList_some, List.forall_mem_singleton, ← encodeIdentity_eq_ok_iff]
    cases h : encodeIdentity value <;> simp [Functor.map, Except.map, h]

theorem SemanticTables.insertFact_eq_ok {sha : Sha256} {tables tables' : SemanticTables}
    {fact : SemanticFact} : tables.insertFact sha fact = .ok tables' ↔
      (∀ key ∈ fact.revisionId.toList ++ fact.semanticId.toList ++ fact.contentHash.toList,
        SplitsCleanly key) ∧
      { tables with eventFacts := tables.eventFacts ++ [fact] }.updateMaterializedProjection sha fact =
        .ok tables' := by
  simp only [insertFact, Result.bind_eq_ok, exists_and_right, mapM_encodeIdentity,
    List.forall_mem_append, and_assoc]

abbrev MaterializedSemanticDuplicate : Type := (SemanticFamily × Text) × DuplicateRow

def materializedDuplicateDiagnostic (duplicate : MaterializedSemanticDuplicate) : Option Json :=
  if duplicate.2.eventCount < 2 then none
  else duplicate.1.1.duplicateLabel.map fun (code, label) =>
    diagnosticValue code (duplicateMessage label duplicate.1.2 (duplicate.2.eventIds ++
      if DUPLICATE_EVENT_LIMIT < duplicate.2.eventCount then [text "..."] else []))

def materializedDuplicateDiagnostics (duplicates : List MaterializedSemanticDuplicate) :
    List Json :=
  (duplicates.insertionSort duplicateGroupLE).filterMap materializedDuplicateDiagnostic

def SemanticStateSnapshot.fromMaterialized (state : MaterializedSemanticState)
    (duplicates : List MaterializedSemanticDuplicate) : SemanticStateSnapshot :=
  { state with eventSetHash := none, diagnostics := materializedDuplicateDiagnostics duplicates }

def SemanticTables.queryMaterializedState (tables : SemanticTables) : SemanticStateSnapshot :=
  .fromMaterialized tables.state
    (tables.duplicates.toList.filter fun duplicate => 2 ≤ duplicate.2.eventCount)

end Pointbreak
