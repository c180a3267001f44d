import Pointbreak.Projection.Cosignature
import Pointbreak.Store.Listed

/-!
# Workflow.EventSignature

Co-signing a stored event. The key of the carrier is the whole attestation: record hash, signer and
signature. The co-signature set counts members by the key of the carrier, which is the same as
counting attestations as long as every carrier that comes in from elsewhere has the key of its
attestation.
-/

namespace Pointbreak

open Std Stateful KeyedLog List

/-- What makes two attestations the same. -/
structure AttestationTriple where
  targetEventRecordHash : Text
  attestingSigner : SignerId
  sig : Text

def AttestationTriple.key (triple : AttestationTriple) : Text :=
  EventSignatureRecordedPayload.idempotencyKey triple.targetEventRecordHash triple.attestingSigner
    triple.sig

def EventSignatureRecordedPayload.triple (payload : EventSignatureRecordedPayload) :
    AttestationTriple where
  targetEventRecordHash := payload.targetEventRecordHash
  attestingSigner := payload.attestingSigner
  sig := payload.attestation.sig

def EventSignature.ed25519V1 (sig : Text) : EventSignature where
  alg := ED25519_SIGNATURE_ALG
  sigVersion := EVENT_SIGNATURE_VERSION
  sig := sig

def CosignatureGateDecision.dropDiagnosticCode : CosignatureGateDecision → Option Text
  | .store _ => none
  | .dropInvalid => some COSIGNATURE_INVALID_CODE
  | .targetPending => some COSIGNATURE_TARGET_PENDING_CODE
  | .bindingMismatch => some COSIGNATURE_BINDING_MISMATCH_CODE

structure EventSignatureRecordResult where
  eventId : EventId
  targetEventId : EventId
  targetEventRecordHash : Text
  attestingSigner : SignerId
  eventsCreated : Nat
  eventsExisting : Nat

section EventSignature

variable {V B : Type} (rt : CapabilityRuntime V B)

def recordEventSignature (targetEventId : EventId) (signer : EventSigner) (writer : Writer)
    (occurredAt : Text) : StoreM B EventSignatureRecordResult := do
  let validationEvents ← lift (listEvents rt (← get))
  let target ← lift (Result.okOr (validationEvents.find? fun event => event.eventId = targetEventId)
    (.message (text "co-signature target event not found: " ++ targetEventId.asStr)))
  let tbs ← lift (EventToBeSigned.fromEvent target.toShoreEvent signer.signerId)
  let sig ← lift (signer.signEventMessage
    (eventSignaturePreAuthenticationEncoding rt.toStoreRuntime tbs))
  -- trust does not gate storage, so the empty trust set will do
  let record ← assembleAndRecordCosignatureWithWriter rt target signer.signerId (.ed25519V1 sig)
    writer {} occurredAt (EventStore.recordEventOnce rt)
  match record.decision.dropDiagnosticCode with
  | some code =>
    throw (.message (text "refusing to store co-signature carrier (" ++ code ++ text ")"))
  | none =>
    let created := record.writeOutcome = some .created
    pure
      { eventId := record.carrier.eventId, targetEventId := target.eventId,
        targetEventRecordHash := target.eventRecordHash rt.toStoreRuntime,
        attestingSigner := signer.signerId, eventsCreated := if created then 1 else 0,
        eventsExisting := if created then 0 else 1 }

/-- A call that can bring attestations into the store. -/
inductive AttestCall (V : Type) where
  | cosign (targetEventId : EventId) (signer : EventSigner) (writer : Writer) (occurredAt : Text)
  | ingest (options : IngestEventsOptions V) (env : IngestEnvironment)

namespace AttestCall

def run (journal : Journal B) : AttestCall V → Journal B
  | .cosign targetEventId signer writer occurredAt =>
    finalState ((recordEventSignature rt targetEventId signer writer occurredAt).run journal)
  | .ingest options env => finalState ((ingestEvents rt options env).run journal)

def runAll (journal : Journal B) (calls : List (AttestCall V)) : Journal B :=
  calls.foldl (run rt) journal

def imported : AttestCall V → List (StoredEvent V)
  | .cosign .. => []
  | .ingest options _ => options.events

def offered : AttestCall V → List (StoredEvent V)
  | .cosign .. => []
  | .ingest options env =>
    options.events.map (stampIngestProvenance .ingestEvents env.receivedAt)

end AttestCall

def COLON : UInt8 := 58

/-- A carrier has the key of its attestation, and the signature of an event is written without
colons, as base64 is. -/
structure PlainlyKeyed (rt : StoreRuntime V B) (event : StoredEvent V) : Prop where
  carrier : event.eventType = .eventSignatureRecorded →
    ∀ payload, rt.eventSignatureRecorded event.payload = .ok payload →
      event.idempotencyKey = payload.triple.key
  inline : ∀ signature, event.signature = some signature → COLON ∉ signature.sig

/-- What the model takes from serde and from the signature library: a carrier that the store builds
can be read, and a signature that verifies is base64. -/
structure SignaturesRead (rt : StoreRuntime V B) : Prop where
  payload : ∀ payload, rt.eventSignatureRecorded (rt.eventSignatureValue payload) = .ok payload
  base64 : ∀ signer message sig, rt.verifyStrict signer message sig = true → COLON ∉ sig

section Members

variable (rt : StoreRuntime V B) (events : List (StoredEvent V)) (trust : TrustSet)
  (target : StoredEvent V)

/-- The attestation that the event's own signature is. -/
def inlineTriple : Option AttestationTriple := do
  let signature ← target.signature
  let attestingSigner ← (resolveEffectiveSigner rt target).toOption.or target.signer
  some ⟨target.eventRecordHash rt, attestingSigner, signature.sig⟩

/-- An attestation of the event: its own signature, or one in a carrier that verifies. -/
def AttestedBy (triple : AttestationTriple) : Prop :=
  inlineTriple rt target = some triple ∨
    ∃ carrier, CarrierOf rt events target.eventId.asStr carrier ∧
      Cosigns rt trust target carrier.payload ∧ carrier.payload.triple = triple

/-- The member of the set that stands for an attestation. -/
def StandsFor (member : CosignatureMember) (triple : AttestationTriple) : Prop :=
  member.attestingSigner = triple.attestingSigner ∧
    match member.source with
    | .inline => inlineTriple rt target = some triple
    | .detached carrierEventId => ∃ carrier, CarrierOf rt events target.eventId.asStr carrier ∧
        carrier.event.eventId.asStr = carrierEventId ∧ Cosigns rt trust target carrier.payload ∧
        carrier.payload.triple = triple

variable {rt events trust target}

theorem inlineMember_key : (inlineMember rt target trust).map Prod.fst =
    (inlineTriple rt target).map AttestationTriple.key := by
  simp only [inlineMember, inlineTriple, Option.bind_eq_bind]
  cases target.signature with
  | none => rfl
  | some signature => cases (resolveEffectiveSigner rt target).toOption.or target.signer <;> rfl

theorem inline_standsFor : List.Forall₂ (StandsFor rt events trust target)
    ((inlineMember rt target trust).map Prod.snd).toList (inlineTriple rt target).toList := by
  rw [inlineMember, inlineTriple]
  cases hsignature : target.signature with
  | none => exact .nil
  | some signature =>
    cases hsigner : (resolveEffectiveSigner rt target).toOption.or target.signer with
    | none => exact .nil
    | some signer =>
      refine .cons ⟨rfl, ?_⟩ .nil
      simp only [inlineTriple, hsignature, hsigner]
      rfl

theorem append_colon_inj {s s' sig sig' : Text} (hsig : COLON ∉ sig) (hsig' : COLON ∉ sig')
    (h : s ++ COLON :: sig = s' ++ COLON :: sig') : s = s' ∧ sig = sig' := by
  -- where one part before a colon is longer, a signature has that colon in it
  obtain ⟨rest, rfl, hrest⟩ | ⟨rest, rfl, hrest⟩ := append_eq_append_iff.mp h
  · cases rest with
    | nil => simpa using hrest
    | cons _ rest => exact absurd (by simp [(List.cons.inj hrest).2]) hsig
  · cases rest with
    | nil => simpa using hrest.symm
    | cons _ rest => exact absurd (by simp [(List.cons.inj hrest).2]) hsig'

/-- Over one record, signatures without colons are told apart by their keys. -/
theorem AttestationTriple.key_inj {t t' : AttestationTriple}
    (hrecord : t.targetEventRecordHash = t'.targetEventRecordHash) (hsig : COLON ∉ t.sig)
    (hsig' : COLON ∉ t'.sig) (h : t.key = t'.key) : t = t' := by
  obtain ⟨record, ⟨signer⟩, sig⟩ := t
  obtain ⟨record', ⟨signer'⟩, sig'⟩ := t'
  obtain rfl : record = record' := hrecord
  have hcolon : text ":" = [COLON] := by decide +kernel
  simp only [key, EventSignatureRecordedPayload.idempotencyKey, hcolon, append_assoc,
    singleton_append, append_cancel_left_eq] at h
  obtain ⟨hsigner, rfl⟩ := append_colon_inj hsig hsig' h
  cases hsigner
  rfl

-- with a colon in it, the signature could begin at either
example : AttestationTriple.key ⟨text "r", ⟨text "s"⟩, text "t:u"⟩ =
    AttestationTriple.key ⟨text "r", ⟨text "s:t"⟩, text "u"⟩ := by
  decide +kernel

variable {payload : EventSignatureRecordedPayload}

/-- A verified attestation is of this record, and without colons. -/
theorem Cosigns.plain (hrt : SignaturesRead rt) (h : Cosigns rt trust target payload) :
    payload.triple.targetEventRecordHash = target.eventRecordHash rt ∧
      COLON ∉ payload.triple.sig := by
  obtain ⟨hrecord, ⟨message, hverify⟩, -⟩ := h.spec
  exact ⟨hrecord.symm, hrt.base64 _ _ _ hverify⟩

variable (rt events trust target) in
abbrev detachedOf : BTreeMap Text CosignatureMember :=
  detachedMembers rt (carriersOf rt events target.eventId.asStr) target
    ((inlineTriple rt target).map AttestationTriple.key) trust

variable (rt events trust target) in
/-- The entry of the map under a key, against the attestation of the carrier with that key. -/
structure StandsUnder (entry : Text × CosignatureMember) (triple : AttestationTriple) : Prop where
  key : triple.key = entry.1
  free : (inlineTriple rt target).map AttestationTriple.key ≠ some entry.1
  standsFor : StandsFor rt events trust target entry.2 triple
  carrier : ∃ carrier, CarrierOf rt events target.eventId.asStr carrier ∧
    Cosigns rt trust target carrier.payload ∧ carrier.payload.triple = triple

section OneToOne

variable (hone : OneForEachKey events) (hkeyed : ∀ e ∈ events, PlainlyKeyed rt e)
include hone hkeyed

theorem exists_standsUnder {entry : Text × CosignatureMember}
    (hentry : entry ∈ (detachedOf rt events trust target).toList) :
    ∃ triple, StandsUnder rt events trust target entry triple := by
  obtain ⟨carrier, hof, hkey, hmember⟩ :=
    (get_detached_iff hone.carriers).mp (BTreeMap.mem_toList_iff.mp hentry)
  obtain ⟨hfree, hcosigns⟩ := detachedMember_isSome.mp ⟨_, hmember⟩
  have htriple := (hkeyed _ hof.mem).carrier hof.eventType _ hof.payload
  refine ⟨carrier.payload.triple, htriple.symm.trans hkey, hkey ▸ hfree, ?_, carrier, hof,
    hcosigns, rfl⟩
  obtain ⟨status, -, -, hmember⟩ := detachedMember_eq_some.mp hmember
  rw [← hmember]
  exact ⟨rfl, carrier, hof, rfl, hcosigns, rfl⟩

/-- An attestation in a carrier is the event's own, or what an entry of the map stands for. -/
theorem own_or_detached (hrt : SignaturesRead rt) (htarget : target ∈ events)
    {carrier : DetachedCarrier V} (hof : CarrierOf rt events target.eventId.asStr carrier)
    (hcosigns : Cosigns rt trust target carrier.payload) :
    inlineTriple rt target = some carrier.payload.triple ∨
      ∃ entry ∈ (detachedOf rt events trust target).toList, ∀ triple,
        StandsUnder rt events trust target entry triple → triple = carrier.payload.triple := by
  obtain ⟨hrecord, hcolon⟩ := hcosigns.plain hrt
  have hkey := (hkeyed _ hof.mem).carrier hof.eventType _ hof.payload
  by_cases hinline : (inlineTriple rt target).map AttestationTriple.key =
      some carrier.event.idempotencyKey
  · obtain ⟨own, hown, hownKey⟩ := Option.map_eq_some_iff.mp hinline
    obtain ⟨signature, hsignature, hsigner⟩ := Option.bind_eq_some_iff.mp hown
    obtain ⟨signer, -, ⟨⟩⟩ := Option.bind_eq_some_iff.mp hsigner
    rw [← AttestationTriple.key_inj hrecord.symm ((hkeyed _ htarget).inline _ hsignature)
      hcolon (hownKey.trans hkey)]
    exact .inl hown
  · obtain ⟨member, hmember⟩ := detachedMember_isSome.mpr ⟨hinline, hcosigns⟩
    refine .inr ⟨_, BTreeMap.mem_toList_iff.mpr
      ((get_detached_iff hone.carriers).mpr ⟨carrier, hof, rfl, hmember⟩), ?_⟩
    rintro _ ⟨hkey', -, -, carrier', -, hcosigns', rfl⟩
    obtain ⟨hrecord', hcolon'⟩ := hcosigns'.plain hrt
    exact AttestationTriple.key_inj (hrecord'.trans hrecord.symm) hcolon' hcolon
      (hkey'.trans hkey)

/-- The members of a set stand for the attestations of the event, one for each. -/
theorem members_oneToOne (hrt : SignaturesRead rt) (htarget : target ∈ events)
    {index : CosignatureIndex V} (hindex : CosignatureIndex.build rt events = .ok index) :
    ∃ triples : List AttestationTriple, triples.Nodup ∧
      (∀ triple, triple ∈ triples ↔ AttestedBy rt events trust target triple) ∧
      List.Forall₂ (StandsFor rt events trust target)
        (index.cosignaturesForTarget rt target trust).members triples := by
  have : Nonempty AttestationTriple := ⟨⟨[], ⟨[]⟩, []⟩⟩
  choose! image himage using fun entry =>
    @exists_standsUnder _ _ rt events trust target hone hkeyed entry
  have hnodup : ((detachedOf rt events trust target).toList.map image).Nodup := by
    refine .of_map AttestationTriple.key ?_
    have hkeys : (detachedOf rt events trust target).toList.map (AttestationTriple.key ∘ image) =
        (detachedOf rt events trust target).toList.map Prod.fst :=
      map_congr_left fun entry hentry => (himage entry hentry).key
    rw [map_map, hkeys]
    exact BTreeMap.nodup_fst _
  refine ⟨(inlineTriple rt target).toList ++ (detachedOf rt events trust target).toList.map image,
    ?_, ?_, ?_⟩
  · refine nodup_append.mpr ⟨?_, hnodup, ?_⟩
    · cases inlineTriple rt target <;> simp
    · rintro triple hinline _ hin rfl
      obtain ⟨entry, hentry, rfl⟩ := mem_map.mp hin
      have hfree := (himage entry hentry).free
      rw [Option.mem_toList] at hinline
      rw [hinline] at hfree
      exact hfree (congrArg some (himage entry hentry).key)
  · intro triple
    rw [mem_append, Option.mem_toList]
    constructor
    · rintro (hinline | hin)
      · exact .inl hinline
      · obtain ⟨entry, hentry, rfl⟩ := mem_map.mp hin
        exact .inr (himage entry hentry).carrier
    · rintro (hinline | ⟨carrier, hof, hcosigns, rfl⟩)
      · exact .inl hinline
      · refine (own_or_detached hone hkeyed hrt htarget hof hcosigns).imp_right ?_
        rintro ⟨entry, hentry, honly⟩
        exact mem_map.mpr ⟨entry, hentry, honly _ (himage entry hentry)⟩
  · have hcarriers : index[target.eventId.asStr]?.getD [] =
        carriersOf rt events target.eventId.asStr := getD_groupM hindex _
    simp only [CosignatureIndex.cosignaturesForTarget, hcarriers, inlineMember_key]
    refine rel_append inline_standsFor ?_
    rw [BTreeMap.vals, List.forall₂_map_left_iff, List.forall₂_map_right_iff, List.forall₂_same]
    exact fun entry hentry => (himage entry hentry).standsFor

end OneToOne

end Members

variable {rt} {event : StoredEvent V} {journal : Journal B}

theorem new_eq_ok {rt : StoreRuntime V B} {eventType : EventType} {key occurredAt : Text}
    {target : EventTarget} {writer : Writer} {payload : V}
    (h : StoredEvent.new rt eventType key target writer payload occurredAt = .ok event) :
    event.payload = payload ∧ event.signature = none := by
  rw [StoredEvent.new] at h
  obtain ⟨u, -, h⟩ := Result.bind_eq_ok.mp h
  cases h
  exact ⟨rfl, rfl⟩

section Attested

variable (hrt : SignaturesRead rt.toStoreRuntime)

include hrt

theorem BuiltCarrier.plainlyKeyed (h : BuiltCarrier rt event) :
    PlainlyKeyed rt.toStoreRuntime event ∧ Ingestible rt event := by
  obtain ⟨target, signer, attestation, envelope, writer, occurredAt, hnew⟩ := h
  have hkey := new_idempotencyKey hnew
  obtain ⟨hpayload, hsignature⟩ := new_eq_ok hnew
  have hdecode : rt.eventSignatureRecorded event.payload =
      .ok (cosignaturePayload rt target signer attestation) := by
    rw [hpayload]
    exact hrt.payload _
  refine ⟨⟨?_, ?_⟩, fun _ => ⟨_, hdecode⟩⟩
  · intro _ payload hread
    rw [hdecode] at hread
    cases hread
    exact hkey
  · intro signature hs
    rw [hsignature] at hs
    cases hs

end Attested

section Appended

variable {P : StoredEvent V → Prop} (hbuilt : ∀ e, BuiltCarrier rt e → P e)

include hbuilt

theorem moves_recordEventSignature (targetEventId : EventId)
    (signer : EventSigner) (writer : Writer) (occurredAt : Text) :
    Moves (Appends rt P) (recordEventSignature rt targetEventId signer writer occurredAt) := by
  rw [recordEventSignature]
  refine (ReadsOnly.get.of_eq Appends.refl).bind Appends.trans fun _ => ?_
  refine (Moves.lift Appends.refl _).bind Appends.trans fun events => ?_
  refine (Moves.lift Appends.refl _).bind Appends.trans fun target => ?_
  refine (Moves.lift Appends.refl _).bind Appends.trans fun tbs => ?_
  refine (Moves.lift Appends.refl _).bind Appends.trans fun sig => ?_
  refine Moves.bind Appends.trans ?_ fun record => ?_
  · exact moves_assemble hbuilt _ _ _ _ _ fun _ he => moves_record he
  · dsimp only
    split
    · exact Moves.throw Appends.refl _
    · exact Moves.pure Appends.refl _

theorem AttestCall.appends (call : AttestCall V)
    (hoffered : ∀ e ∈ call.offered, Ingestible rt e → P e) (journal : Journal B) :
    Appends rt P journal (call.run rt journal) := by
  cases call with
  | cosign targetEventId signer writer occurredAt =>
    exact moves_recordEventSignature hbuilt targetEventId signer writer occurredAt journal
  | ingest options env =>
    refine moves_ingestEvents options ?_ hbuilt journal
    intro e he hingestible
    exact hoffered _ (mem_map_of_mem he) hingestible

theorem AttestCall.runAll_appends (calls : List (AttestCall V))
    (hoffered : ∀ call ∈ calls, ∀ e ∈ call.offered, Ingestible rt e → P e) (journal : Journal B) :
    Appends rt P journal (AttestCall.runAll rt journal calls) := by
  induction calls generalizing journal with
  | nil => exact Appends.refl _
  | cons call calls ih =>
    refine Appends.trans _ _ _ (call.appends hbuilt (hoffered call mem_cons_self) journal) ?_
    exact ih (fun c hc => hoffered c (.tail _ hc)) _

end Appended

/-- In every store that co-signatures and ingests of keyed events lead to, an attestation counts
once, whatever the order of the events. -/
theorem attestations_count_once (hsignatures : SignaturesRead rt.toStoreRuntime)
    (calls : List (AttestCall V))
    (hrt : ∀ event, (∃ call ∈ calls, event ∈ call.offered) ∨ BuiltCarrier rt event →
      ReadsBack rt.toStoreRuntime event)
    (himported : ∀ call ∈ calls, ∀ e ∈ call.imported, PlainlyKeyed rt.toStoreRuntime e)
    {events : List (StoredEvent V)}
    (hlist : listEvents rt (AttestCall.runAll rt ∅ calls) = .ok events) {target : StoredEvent V}
    (htarget : target ∈ events) (trust : TrustSet) :
    ∃ set, (∀ events' : List (StoredEvent V), events'.Perm events →
        cosignaturesForEvent rt.toStoreRuntime events' target.eventId.asStr trust = .ok set) ∧
      ∃ triples : List AttestationTriple, triples.Nodup ∧
        (∀ triple, triple ∈ triples ↔ AttestedBy rt.toStoreRuntime events trust target triple) ∧
        List.Forall₂ (StandsFor rt.toStoreRuntime events trust target) set.members triples := by
  have hbuilt : ∀ e, BuiltCarrier rt e → (PlainlyKeyed rt.toStoreRuntime e ∧ Ingestible rt e) ∧
      ReadsBack rt.toStoreRuntime e := fun e he => ⟨he.plainlyKeyed hsignatures, hrt e (.inr he)⟩
  have hoffered : ∀ call ∈ calls, ∀ e ∈ call.offered, Ingestible rt e →
      (PlainlyKeyed rt.toStoreRuntime e ∧ Ingestible rt e) ∧ ReadsBack rt.toStoreRuntime e := by
    intro call hcall e he hingestible
    refine ⟨⟨?_, hingestible⟩, hrt e (.inl ⟨call, hcall, he⟩)⟩
    cases call with
    | cosign => cases he
    | ingest options env =>
      obtain ⟨imported, hmem, rfl⟩ := mem_map.mp he
      exact ⟨(himported _ hcall imported hmem).carrier, (himported _ hcall imported hmem).inline⟩
  have hstored : ∀ e ∈ events, PlainlyKeyed rt.toStoreRuntime e ∧ Ingestible rt e := by
    intro e he
    obtain ⟨bytes, hget, hdecode⟩ := get_of_listed hlist he
    obtain ⟨written, ⟨hwritten, hread⟩, hvalid, -, rfl⟩ :=
      (AttestCall.runAll_appends hbuilt calls hoffered ∅).new_record (by simp) hget
    obtain ⟨-, rfl⟩ := (decodeValidatedEvent_toVec hread hvalid).mp hdecode
    exact hwritten
  have hone : OneForEachKey events :=
    fun e he e' he' hkey => eq_of_listed_digest hlist he he' (congrArg rt.sha256 hkey)
  obtain ⟨index, hindex⟩ : ∃ index,
      CosignatureIndex.build rt.toStoreRuntime events = .ok index := by
    refine groupM_isOk.mpr fun e he => ?_
    rw [readCarrier]
    split
    · rename_i ht
      obtain ⟨payload, hpayload⟩ := (hstored e he).2 ht
      exact ⟨_, Result.bind_eq_ok.mpr ⟨payload, fromValue_eq_ok.mpr hpayload, rfl⟩⟩
    · exact ⟨_, rfl⟩
  refine ⟨index.cosignaturesForTarget rt.toStoreRuntime target trust, ?_,
    members_oneToOne hone (fun e he => (hstored e he).1) hsignatures htarget hindex⟩
  intro events' hperm
  obtain ⟨index', hindex'⟩ := groupM_isOk_perm hperm hindex
  rw [← cosignaturesForTarget_perm hone.carriers hperm hindex hindex', cosignaturesForEvent]
  cases hfind : events'.find? fun event => event.eventId.asStr = target.eventId.asStr with
  | none =>
    have hnone := find?_eq_none.mp hfind target (hperm.mem_iff.mpr htarget)
    simp at hnone
  | some found =>
    have hid : found.eventId.asStr = target.eventId.asStr := by simpa using find?_some hfind
    have hmem := hperm.mem_iff.mp (mem_of_find?_eq_some hfind)
    obtain rfl := eq_of_listed_eventId hlist hmem htarget hid
    exact Result.bind_eq_ok.mpr ⟨index', hindex', rfl⟩

end EventSignature

namespace StoreRecorded

theorem signaturesRead : SignaturesRead runtime.toStoreRuntime where
  payload _ := rfl
  base64 signer message sig h := by
    obtain rfl : sig = signatureOf signer message := of_decide_eq_true h
    have hhex : Text.isHexOfLength 64 (signatureOf signer message) = true :=
      Text.isHexOfLength_hexOf 64 _
    simp only [Text.isHexOfLength, Bool.and_eq_true, all_eq_true] at hhex
    intro hcolon
    exact absurd (hhex.2 COLON hcolon) (by decide)

def maintainer : EventSigner where
  signerId := signer
  signEventMessage message := .ok (signatureOf signer message)

def cosignNote : List (AttestCall StorePayload) :=
  [.ingest importNote importEnv, .cosign note.eventId maintainer writer now]

def noteAttestation : EventSignatureRecordedPayload :=
  cosignaturePayload runtime note signer (.ed25519V1 (signatureOf signer
    (((EventToBeSigned.fromEvent note.toShoreEvent signer).toOption.map
      (eventSignaturePreAuthenticationEncoding runtime.toStoreRuntime)).getD [])))

def importedNote : StoredEvent StorePayload := stampIngestProvenance .ingestEvents now note

theorem cosigned_note_counts_once : ∃ events set member,
    listEvents runtime (AttestCall.runAll runtime ∅ cosignNote) = .ok events ∧
    importedNote ∈ events ∧
    (∀ events' : List (StoredEvent StorePayload), events'.Perm events →
      cosignaturesForEvent runtime.toStoreRuntime events' importedNote.eventId.asStr {} =
        .ok set) ∧
    set.members = [member] ∧
    (∀ triple, AttestedBy runtime.toStoreRuntime events {} importedNote triple ↔
      triple = noteAttestation.triple) ∧
    StandsFor runtime.toStoreRuntime events {} importedNote member noteAttestation.triple := by
  have hrun : ∃ events, listEvents runtime (AttestCall.runAll runtime ∅ cosignNote) = .ok events ∧
      importedNote ∈ events ∧
      (∀ e ∈ events, e.eventType = .eventSignatureRecorded → e.payload = .signature noteAttestation) ∧
      ∃ set, cosignaturesForEvent runtime.toStoreRuntime events importedNote.eventId.asStr {} =
        .ok set ∧ set.members.length = 1 := by decide +kernel
  obtain ⟨events, hlist, hnote, hcarriers, found, hfound, hlength⟩ := hrun
  have hkeyed : ∀ call ∈ cosignNote, ∀ e ∈ call.imported,
      PlainlyKeyed runtime.toStoreRuntime e := by
    intro call hcall e he
    rcases mem_pair.mp hcall with rfl | rfl
    · obtain rfl := mem_singleton.mp he
      refine ⟨fun h => EventType.noConfusion h, ?_⟩
      intro signature h
      cases h
    · cases he
  obtain ⟨set, hset, triples, -, hmem, hall⟩ := attestations_count_once signaturesRead cosignNote
    (fun event _ => readsBack event) hkeyed hlist hnote {}
  obtain rfl : set = found := Except.ok.inj ((hset events (.refl _)).symm.trans hfound)
  obtain ⟨member, hmember⟩ := length_eq_one_iff.mp hlength
  have htriples : triples.length = 1 := hall.length_eq.symm.trans hlength
  obtain ⟨triple, rfl⟩ := length_eq_one_iff.mp htriples
  have htriple : triple = noteAttestation.triple := by
    rcases (hmem triple).mp (mem_singleton_self _) with hinline | ⟨carrier, hof, -, rfl⟩
    · cases hinline
    · have hread := hof.payload
      rw [hcarriers _ hof.mem hof.eventType] at hread
      exact congrArg EventSignatureRecordedPayload.triple (Except.ok.inj hread).symm
  rw [hmember, List.forall₂_cons] at hall
  rw [← htriple]
  refine ⟨events, set, member, hlist, hnote, hset, hmember, fun other => ?_, hall.1⟩
  rw [← hmem, mem_singleton]

/-- One attestation of the note, in a carrier with this key. -/
def carrierUnder (key : Text) : StoredEvent StorePayload :=
  event .eventSignatureRecorded key (.signature noteAttestation)

/-- The note with two carriers of the one attestation. -/
def importTwice : IngestEventsOptions StorePayload where
  events := [note, carrierUnder (text "t:15:a"), carrierUnder (text "t:15:b")]
  verificationPolicy := .advisory
  trustSet := {}

theorem attestation_counts_twice : ∃ events target set,
    listEvents runtime (AttestCall.runAll runtime ∅ [.ingest importTwice importEnv]) = .ok events ∧
    target ∈ events ∧
    cosignaturesForEvent runtime.toStoreRuntime events target.eventId.asStr {} = .ok set ∧
    ¬ ∃ triples : List AttestationTriple, triples.Nodup ∧
        (∀ triple, triple ∈ triples ↔ AttestedBy runtime.toStoreRuntime events {} target triple) ∧
        List.Forall₂ (StandsFor runtime.toStoreRuntime events {} target) set.members triples := by
  have hrun : ∃ events, listEvents runtime (AttestCall.runAll runtime ∅
        [.ingest importTwice importEnv]) = .ok events ∧
      (∃ e ∈ events, e.eventId = note.eventId ∧ e.signature = none) ∧
      (∀ e ∈ events, e.eventType = .eventSignatureRecorded →
        e.payload = (carrierUnder (text "t:15:a")).payload) ∧
      ∃ set, cosignaturesForEvent runtime.toStoreRuntime events note.eventId.asStr {} = .ok set ∧
        set.members.length = 2 := by decide +kernel
  obtain ⟨events, hlist, ⟨target, htarget, hid, hunsigned⟩, hcarriers, set, hcosignatures,
    hlength⟩ := hrun
  rw [← hid] at hcosignatures
  refine ⟨events, target, set, hlist, htarget, hcosignatures, ?_⟩
  rintro ⟨triples, hnodup, hmem, hall⟩
  -- both carriers hold the one payload
  obtain ⟨payload, hpayload⟩ : ∃ payload, runtime.eventSignatureRecorded
      (carrierUnder (text "t:15:a")).payload = .ok payload := ⟨_, rfl⟩
  have hsame : ∀ triple ∈ triples, triple = payload.triple := by
    intro triple htriple
    rcases (hmem triple).mp htriple with hinline | ⟨carrier, hof, -, rfl⟩
    · simp [inlineTriple, hunsigned] at hinline
    · have heq := hcarriers _ hof.mem hof.eventType
      have hread := hof.payload
      rw [heq] at hread
      rw [Except.ok.inj (hread.symm.trans hpayload)]
  have hle : triples.length ≤ [payload.triple].length :=
    (hnodup.subperm fun triple htriple => mem_singleton.mpr (hsame triple htriple)).length_le
  rw [← hall.length_eq, hlength, length_singleton] at hle
  omega

end StoreRecorded

end Pointbreak
