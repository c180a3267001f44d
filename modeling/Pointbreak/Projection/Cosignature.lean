import Pointbreak.Signing.Verify

/-!
# Projection.Cosignature

The co-signatures of an event: its own signature, and the detached carriers that target it, each
with the status that it has for a reader. A carrier by a signer that the reader knows as exactly one
other actor is a trusted endorsement.
-/

namespace Pointbreak

open Std KeyedLog List

inductive CosignatureSource where
  | inline
  | detached (carrierEventId : Text)
deriving DecidableEq

inductive AuthoringReason where
  | authoringNotEndorsement

inductive EndorsementUntrustedReason where
  | unknownEndorser | ambiguousEndorser

inductive CosignatureClassification where
  | authoring (reason : Option AuthoringReason)
  | endorsementTrusted (endorser : ActorId)
  | endorsementUntrusted (reason : EndorsementUntrustedReason)

structure CosignatureMember where
  attestingSigner : SignerId
  status : EventVerificationStatus
  source : CosignatureSource
  classification : CosignatureClassification

structure CosignatureSet where
  targetEventId : Text
  members : List CosignatureMember

def CosignatureClassification.isTrusted : CosignatureClassification → Bool
  | .endorsementTrusted _ => true
  | _ => false

def CosignatureSet.hasTrustedEndorsement (set : CosignatureSet) : Bool :=
  set.members.any fun member => member.classification.isTrusted

def CosignatureSet.inlineStatus (set : CosignatureSet) : Option EventVerificationStatus :=
  (set.members.find? fun member => member.source = .inline).map (·.status)

def CosignatureSet.hasValidMember (set : CosignatureSet) : Bool :=
  set.members.any fun member => member.status = .valid

def CosignatureSet.hasUntrustedMember (set : CosignatureSet) : Bool :=
  set.members.any fun member => member.status = .untrustedKey

/-- A signer that may sign for the target's own actor is an author, whoever else it is. -/
def classifyCosignatureMember (source : CosignatureSource) (status : EventVerificationStatus)
    (attestingSigner : SignerId) (targetActor : ActorId) (trust : TrustSet) :
    CosignatureClassification :=
  match source with
  | .inline => .authoring none
  | .detached _ =>
    match status with
    | .valid =>
      if (trust.reverseResolve attestingSigner).toList.any (· ≠ targetActor) then
        .authoring (some .authoringNotEndorsement)
      else .authoring none
    | .untrustedKey =>
      match (trust.reverseResolve attestingSigner).toList with
      | [endorser] => .endorsementTrusted endorser
      | [] => .endorsementUntrusted .unknownEndorser
      | _ => .endorsementUntrusted .ambiguousEndorser
    | .invalid | .unsigned => .authoring none

section Cosignature

variable {V B : Type} (rt : StoreRuntime V B)

structure DetachedCarrier (V : Type) where
  event : StoredEvent V
  payload : EventSignatureRecordedPayload

abbrev CosignatureIndex (V : Type) : Type := BTreeMap Text (List (DetachedCarrier V))

def readCarrier (event : StoredEvent V) : Result (Option (Text × DetachedCarrier V)) :=
  if event.eventType = .eventSignatureRecorded then do
    let payload ← fromValue rt.eventSignatureRecorded event.payload
    .ok (some (payload.targetEventId.asStr, { event, payload }))
  else .ok none

def CosignatureIndex.build (events : List (StoredEvent V)) : Result (CosignatureIndex V) :=
  groupM (readCarrier rt) events

/-- The event's own signature, under the key that a carrier of it would have. -/
def inlineMember (target : StoredEvent V) (trust : TrustSet) : Option (Text × CosignatureMember) := do
  let signature ← target.signature
  let status := verifyEventSignature rt target trust
  let attestingSigner ← (resolveEffectiveSigner rt target).toOption.or target.signer
  some (EventSignatureRecordedPayload.idempotencyKey (target.eventRecordHash rt) attestingSigner
      signature.sig,
    { attestingSigner, status, source := .inline,
      classification := classifyCosignatureMember .inline status attestingSigner
        target.writer.actorId trust })

/-- What a carrier adds. One that does not verify, or names another record, adds nothing, and
neither does one with the key of the event's own signature. -/
def detachedMember (target : StoredEvent V) (inlineKey : Option Text) (trust : TrustSet)
    (carrier : DetachedCarrier V) : Option CosignatureMember :=
  match verifyCosignature rt carrier.payload target trust with
  | .attested status =>
    if (status = .valid ∨ status = .untrustedKey) ∧
        inlineKey ≠ some carrier.event.idempotencyKey then
      let source := CosignatureSource.detached carrier.event.eventId.asStr
      some
        { attestingSigner := carrier.payload.attestingSigner, status, source,
          classification := classifyCosignatureMember source status carrier.payload.attestingSigner
            target.writer.actorId trust }
    else none
  | .bindingMismatch => none

/-- The first carrier of a key stays. -/
def detachedMembers (carriers : List (DetachedCarrier V)) (target : StoredEvent V)
    (inlineKey : Option Text) (trust : TrustSet) : BTreeMap Text CosignatureMember :=
  carriers.foldl (fun detached carrier =>
    match detachedMember rt target inlineKey trust carrier with
    | none => detached
    | some member =>
      if detached.contains carrier.event.idempotencyKey then detached
      else detached.insert carrier.event.idempotencyKey member) ∅

def CosignatureIndex.cosignaturesForTarget (index : CosignatureIndex V) (target : StoredEvent V)
    (trust : TrustSet) : CosignatureSet :=
  let inline := inlineMember rt target trust
  let carriers := index[target.eventId.asStr]?.getD []
  let detached := detachedMembers rt carriers target (inline.map Prod.fst) trust
  { targetEventId := target.eventId.asStr,
    members := (inline.map Prod.snd).toList ++ detached.vals }

def cosignaturesForEvent (events : List (StoredEvent V)) (targetEventId : Text) (trust : TrustSet) : Result CosignatureSet :=
  match events.find? fun event => event.eventId.asStr = targetEventId with
  | none => .ok { targetEventId, members := [] }
  | some target => do
    let index ← CosignatureIndex.build rt events
    .ok (index.cosignaturesForTarget rt target trust)

/-- The carrier is a signature over the event by a signer that may not sign for the event's actor
and that the reader knows as exactly one actor. -/
def Endorses (trust : TrustSet) (target : StoredEvent V) (payload : EventSignatureRecordedPayload) :
    Prop :=
  verifyCosignature rt payload target trust = .attested .untrustedKey ∧
    ∃ endorser, (trust.reverseResolve payload.attestingSigner).toList = [endorser]

/-- Some carrier among the events, other than one with the key of the event's own signature, is a
trusted endorsement of the event. -/
def TrustedEndorsement (events : List (StoredEvent V)) (trust : TrustSet) (target : StoredEvent V) :
    Prop :=
  ∃ carrier ∈ events, ∃ payload, carrier.eventType = .eventSignatureRecorded ∧
    rt.eventSignatureRecorded carrier.payload = .ok payload ∧
    payload.targetEventId.asStr = target.eventId.asStr ∧
    (inlineMember rt target trust).map Prod.fst ≠ some carrier.idempotencyKey ∧
    Endorses rt trust target payload

variable {rt} {events : List (StoredEvent V)} {target : StoredEvent V} {trust : TrustSet}

theorem isTrusted_detached {carrierId : Text} {status : EventVerificationStatus} {signer : SignerId}
    {actor : ActorId} :
    (classifyCosignatureMember (.detached carrierId) status signer actor trust).isTrusted = true ↔
      status = .untrustedKey ∧ ∃ endorser, (trust.reverseResolve signer).toList = [endorser] := by
  cases status with
  | valid =>
    simp only [classifyCosignatureMember]
    split <;> simp [CosignatureClassification.isTrusted]
  | untrustedKey =>
    simp only [classifyCosignatureMember]
    split
    · rename_i endorser h
      simp [CosignatureClassification.isTrusted, h]
    · rename_i h
      simp [CosignatureClassification.isTrusted, h]
    · rename_i h
      simp only [CosignatureClassification.isTrusted, true_and]
      exact ⟨nofun, fun ⟨endorser, he⟩ => by simp_all⟩
  | invalid => simp [classifyCosignatureMember, CosignatureClassification.isTrusted]
  | unsigned => simp [classifyCosignatureMember, CosignatureClassification.isTrusted]

variable {inlineKey : Option Text} {carrier : DetachedCarrier V} {member : CosignatureMember}

theorem detachedMember_eq_some : detachedMember rt target inlineKey trust carrier = some member ↔
    ∃ status, verifyCosignature rt carrier.payload target trust = .attested status ∧
      ((status = .valid ∨ status = .untrustedKey) ∧
        inlineKey ≠ some carrier.event.idempotencyKey) ∧
      ⟨carrier.payload.attestingSigner, status, .detached carrier.event.eventId.asStr,
        classifyCosignatureMember (.detached carrier.event.eventId.asStr) status
          carrier.payload.attestingSigner target.writer.actorId trust⟩ = member := by
  rw [detachedMember]
  cases verifyCosignature rt carrier.payload target trust with
  | bindingMismatch => simp
  | attested status => simp [Option.ite_none_right_eq_some]

theorem detachedMember_isTrusted :
    (∃ member, detachedMember rt target inlineKey trust carrier = some member ∧
        member.classification.isTrusted = true) ↔
      inlineKey ≠ some carrier.event.idempotencyKey ∧ Endorses rt trust target carrier.payload := by
  simp only [detachedMember_eq_some]
  constructor
  · rintro ⟨_, ⟨status, hverify, ⟨-, hfree⟩, rfl⟩, htrusted⟩
    rw [isTrusted_detached] at htrusted
    obtain ⟨rfl, hendorser⟩ := htrusted
    exact ⟨hfree, hverify, hendorser⟩
  · rintro ⟨hfree, hverify, hendorser⟩
    refine ⟨_, ⟨_, hverify, ⟨.inr rfl, hfree⟩, rfl⟩, ?_⟩
    rw [isTrusted_detached]
    exact ⟨rfl, hendorser⟩

def memberEntry (rt : StoreRuntime V B) (target : StoredEvent V) (inlineKey : Option Text)
    (trust : TrustSet) (carrier : DetachedCarrier V) : Option (Text × CosignatureMember) :=
  (detachedMember rt target inlineKey trust carrier).map fun m => (carrier.event.idempotencyKey, m)

theorem memberEntry_eq_some {key : Text} :
    memberEntry rt target inlineKey trust carrier = some (key, member) ↔
      detachedMember rt target inlineKey trust carrier = some member ∧
        carrier.event.idempotencyKey = key := by
  simp only [memberEntry, Option.map_eq_some_iff, Prod.mk.injEq]
  exact ⟨fun ⟨_, h, hk, hm⟩ => ⟨hm ▸ h, hk⟩, fun ⟨h, hk⟩ => ⟨member, h, hk, rfl⟩⟩

theorem get_detachedMembers (carriers : List (DetachedCarrier V)) (inlineKey : Option Text)
    (key : Text) : (detachedMembers rt carriers target inlineKey trust)[key]? =
      (entries (memberEntry rt target inlineKey trust) key carriers).head? := by
  rw [← foldl_first]
  refine get_foldl (fun (s : BTreeMap Text CosignatureMember) (k : Text) => s[k]?) _
    (fun old m => old.getD m) ?_ carriers ∅ key
  intro s c k
  cases hm : detachedMember rt target inlineKey trust c with
  | none => simp [memberEntry, hm]
  | some m =>
    simp only [memberEntry, hm, Option.map_some, ← ExtTreeMap.isSome_getElem?_eq_contains]
    by_cases hk : c.event.idempotencyKey = k
    · subst hk
      cases hs : s[c.event.idempotencyKey]? with
      | none => simp
      | some old => simp [hs]
    · rw [if_neg hk]
      split
      · rfl
      · rw [BTreeMap.get_insert, if_neg hk]

def OneForEachKey (events : List (StoredEvent V)) : Prop :=
  ∀ e ∈ events, ∀ e' ∈ events, e.idempotencyKey = e'.idempotencyKey → e = e'

def OneCarrierForEachKey (events : List (StoredEvent V)) : Prop :=
  ∀ e ∈ events, ∀ e' ∈ events, e.eventType = .eventSignatureRecorded →
    e'.eventType = .eventSignatureRecorded → e.idempotencyKey = e'.idempotencyKey → e = e'

theorem OneForEachKey.carriers {events : List (StoredEvent V)} (h : OneForEachKey events) :
    OneCarrierForEachKey events :=
  fun e he e' he' _ _ hkey => h e he e' he' hkey

theorem readCarrier_eq_ok {event : StoredEvent V} {key : Text} :
    readCarrier rt event = .ok (some (key, carrier)) ↔ event.eventType = .eventSignatureRecorded ∧
      rt.eventSignatureRecorded event.payload = .ok carrier.payload ∧ carrier.event = event ∧
      key = carrier.payload.targetEventId.asStr := by
  obtain ⟨event', payload⟩ := carrier
  rw [readCarrier]
  split
  · rename_i ht
    simp only [Result.bind_eq_ok, fromValue_eq_ok, Except.ok.injEq, Option.some.injEq,
      Prod.mk.injEq, DetachedCarrier.mk.injEq, ht, true_and]
    constructor
    · rintro ⟨p, hp, rfl, rfl, rfl⟩
      exact ⟨hp, rfl, rfl⟩
    · rintro ⟨hp, rfl, rfl⟩
      exact ⟨payload, hp, rfl, rfl, rfl⟩
  · rename_i ht
    simp [ht]

structure CarrierOf (rt : StoreRuntime V B) (events : List (StoredEvent V)) (eventId : Text)
    (carrier : DetachedCarrier V) : Prop where
  mem : carrier.event ∈ events
  eventType : carrier.event.eventType = .eventSignatureRecorded
  payload : rt.eventSignatureRecorded carrier.event.payload = .ok carrier.payload
  targets : carrier.payload.targetEventId.asStr = eventId

def carriersOf (rt : StoreRuntime V B) (events : List (StoredEvent V)) (eventId : Text) :
    List (DetachedCarrier V) :=
  entries (readEntry (readCarrier rt)) eventId events

variable {eventId : Text}

theorem mem_carriersOf :
    carrier ∈ carriersOf rt events eventId ↔ CarrierOf rt events eventId carrier := by
  rw [carriersOf, mem_entries]
  simp only [readEntry, Option.join_eq_some_iff, Result.toOption_eq_some, readCarrier_eq_ok]
  constructor
  · rintro ⟨event, he, ht, hp, rfl, rfl⟩
    exact ⟨he, ht, hp, rfl⟩
  · rintro ⟨he, ht, hp, rfl⟩
    exact ⟨carrier.event, he, ht, hp, rfl, rfl⟩

variable {index : CosignatureIndex V}

/-- An event counts as endorsed when, under some key, the first carrier that counts endorses it. -/
theorem hasTrustedEndorsement_eq (hindex : CosignatureIndex.build rt events = .ok index) :
    (index.cosignaturesForTarget rt target trust).hasTrustedEndorsement = true ↔
      ∃ key member, (entries (memberEntry rt target ((inlineMember rt target trust).map Prod.fst)
        trust) key (carriersOf rt events target.eventId.asStr)).head? = some member ∧
        member.classification.isTrusted = true := by
  simp only [CosignatureIndex.cosignaturesForTarget, CosignatureSet.hasTrustedEndorsement,
    any_append, Bool.or_eq_true, any_eq_true, BTreeMap.mem_vals_iff,
    get_detachedMembers, getD_groupM hindex]
  constructor
  · rintro (⟨member, hmember, htrusted⟩ | ⟨member, ⟨key, hmember⟩, htrusted⟩)
    · simp only [Option.mem_toList, Option.map_eq_some_iff] at hmember
      obtain ⟨entry, hentry, rfl⟩ := hmember
      -- the event's own signature is not an endorsement
      obtain ⟨signature, -, hsigner⟩ := Option.bind_eq_some_iff.mp hentry
      obtain ⟨signer, -, ⟨⟩⟩ := Option.bind_eq_some_iff.mp hsigner
      cases htrusted
    · exact ⟨key, member, hmember, htrusted⟩
  · rintro ⟨key, member, hmember, htrusted⟩
    exact .inr ⟨member, ⟨key, hmember⟩, htrusted⟩

theorem trustedEndorsement_of_has (hindex : CosignatureIndex.build rt events = .ok index)
    (h : (index.cosignaturesForTarget rt target trust).hasTrustedEndorsement = true) :
    TrustedEndorsement rt events trust target := by
  obtain ⟨key, member, hmember, htrusted⟩ := (hasTrustedEndorsement_eq hindex).mp h
  obtain ⟨carrier, hcarrier, hentry⟩ := mem_entries.mp (mem_of_mem_head? hmember)
  obtain ⟨hmem, -⟩ := memberEntry_eq_some.mp hentry
  obtain ⟨hkey, hendorses⟩ := detachedMember_isTrusted.mp ⟨member, hmem, htrusted⟩
  have hof := mem_carriersOf.mp hcarrier
  exact ⟨carrier.event, hof.mem, carrier.payload, hof.eventType, hof.payload, hof.targets, hkey,
    hendorses⟩

/-- The co-signature verifies, whoever the signer is for the reader. -/
def Cosigns (rt : StoreRuntime V B) (trust : TrustSet) (target : StoredEvent V)
    (payload : EventSignatureRecordedPayload) : Prop :=
  verifyCosignature rt payload target trust = .attested .valid ∨
    verifyCosignature rt payload target trust = .attested .untrustedKey

/-- A trusted endorsement whose key no lesser co-signature of the event has. -/
def FirmEndorsement (rt : StoreRuntime V B) (events : List (StoredEvent V)) (trust : TrustSet)
    (target : StoredEvent V) : Prop :=
  ∃ carrier, CarrierOf rt events target.eventId.asStr carrier ∧
    (inlineMember rt target trust).map Prod.fst ≠ some carrier.event.idempotencyKey ∧
    Endorses rt trust target carrier.payload ∧
    ∀ other, CarrierOf rt events target.eventId.asStr other →
      other.event.idempotencyKey = carrier.event.idempotencyKey →
      Cosigns rt trust target other.payload → Endorses rt trust target other.payload

section Reorder

variable {events' : List (StoredEvent V)} (hperm : events'.Perm events)
include hperm

theorem carrierOf_perm {carrier : DetachedCarrier V} :
    CarrierOf rt events' eventId carrier ↔ CarrierOf rt events eventId carrier := by
  constructor
  · intro h
    exact ⟨hperm.mem_iff.mp h.mem, h.eventType, h.payload, h.targets⟩
  · intro h
    exact ⟨hperm.mem_iff.mpr h.mem, h.eventType, h.payload, h.targets⟩

theorem trustedEndorsement_perm :
    TrustedEndorsement rt events' trust target ↔ TrustedEndorsement rt events trust target := by
  simp only [TrustedEndorsement, hperm.mem_iff]

theorem firmEndorsement_perm :
    FirmEndorsement rt events' trust target ↔ FirmEndorsement rt events trust target := by
  simp only [FirmEndorsement, carrierOf_perm hperm]

end Reorder

section Counted

variable (hone : OneCarrierForEachKey events)
include hone

theorem get_detached_iff {inlineKey : Option Text} {key : Text} :
    (detachedMembers rt (carriersOf rt events target.eventId.asStr) target inlineKey trust)[key]? =
        some member ↔
      ∃ carrier, CarrierOf rt events target.eventId.asStr carrier ∧
        carrier.event.idempotencyKey = key ∧
        detachedMember rt target inlineKey trust carrier = some member := by
  have hfunctional : Functional (memberEntry rt target inlineKey trust)
      (carriersOf rt events target.eventId.asStr) := by
    rw [functional_iff]
    rintro ⟨e, p⟩ hc ⟨k, m⟩ hm ⟨e', p'⟩ hc' ⟨k', m'⟩ hm' rfl
    obtain ⟨hm, hk⟩ := memberEntry_eq_some.mp hm
    obtain ⟨hm', hk'⟩ := memberEntry_eq_some.mp hm'
    have hof := mem_carriersOf.mp hc
    have hof' := mem_carriersOf.mp hc'
    obtain rfl : e = e' := hone _ hof.mem _ hof'.mem hof.eventType hof'.eventType (hk.trans hk'.symm)
    obtain rfl : p = p' := Except.ok.inj (hof.payload.symm.trans hof'.payload)
    exact Option.some.inj (hm.symm.trans hm')
  simp only [get_detachedMembers, hfunctional.head?_eq_some, mem_entries, memberEntry_eq_some,
    mem_carriersOf]
  exact exists_congr fun carrier => and_congr_right fun _ => and_comm

theorem cosignaturesForTarget_perm {events' : List (StoredEvent V)} (hperm : events'.Perm events)
    {index index' : CosignatureIndex V} (hindex : CosignatureIndex.build rt events = .ok index)
    (hindex' : CosignatureIndex.build rt events' = .ok index') :
    index'.cosignaturesForTarget rt target trust = index.cosignaturesForTarget rt target trust := by
  have hone' : OneCarrierForEachKey events' :=
    fun e he e' he' => hone e (hperm.mem_iff.mp he) e' (hperm.mem_iff.mp he')
  have hcarriers : index[target.eventId.asStr]?.getD [] =
      carriersOf rt events target.eventId.asStr := getD_groupM hindex _
  have hcarriers' : index'[target.eventId.asStr]?.getD [] =
      carriersOf rt events' target.eventId.asStr := getD_groupM hindex' _
  have hsame : ∀ inlineKey, detachedMembers rt (carriersOf rt events' target.eventId.asStr) target
      inlineKey trust =
        detachedMembers rt (carriersOf rt events target.eventId.asStr) target inlineKey trust := by
    intro inlineKey
    refine ExtTreeMap.ext_getElem? fun key => Option.ext fun member => ?_
    rw [get_detached_iff hone', get_detached_iff hone]
    simp only [carrierOf_perm hperm]
  simp only [CosignatureIndex.cosignaturesForTarget, hcarriers, hcarriers', hsame]

end Counted

section Silent

variable {left right whole : List (StoredEvent V)} (hmix : Interleaves left right whole)
  (hright : ∀ event ∈ right, event.eventType ≠ .eventSignatureRecorded)
include hmix hright

theorem build_of_interleaves : CosignatureIndex.build rt whole = CosignatureIndex.build rt left := by
  refine hmix.foldlM_eq (fun event hevent groups => ?_) ∅
  rw [readCarrier, if_neg (hright event hevent)]
  rfl

theorem cosignaturesForEvent_of_interleaves (hid : ∀ event ∈ right, event.eventId.asStr ≠ eventId) :
    cosignaturesForEvent rt whole eventId trust = cosignaturesForEvent rt left eventId trust := by
  rw [cosignaturesForEvent, cosignaturesForEvent, build_of_interleaves hmix hright,
    ← head?_filter, ← head?_filter,
    hmix.filter_eq fun event hevent => decide_eq_false (hid event hevent)]

end Silent

theorem cosignaturesForEvent_append {front back : List (StoredEvent V)}
    (hback : ∀ event ∈ back, event.eventType ≠ .eventSignatureRecorded) {event : StoredEvent V}
    (hevent : event ∈ front) :
    cosignaturesForEvent rt (front ++ back) event.eventId.asStr trust =
      cosignaturesForEvent rt front event.eventId.asStr trust := by
  have hfound : (front.find? fun other => other.eventId.asStr = event.eventId.asStr).isSome := by
    rw [find?_isSome]
    exact ⟨event, hevent, decide_eq_true rfl⟩
  rw [cosignaturesForEvent, cosignaturesForEvent, build_of_interleaves (.append front back) hback,
    find?_append, Option.or_of_isSome hfound]

structure Unverified (rt : StoreRuntime V B) (events : List (StoredEvent V)) (trust : TrustSet)
    (target : StoredEvent V) : Prop where
  inline : verifyEventSignature rt target trust ≠ .valid
  detached : ∀ carrier, CarrierOf rt events target.eventId.asStr carrier →
    verifyCosignature rt carrier.payload target trust ≠ .attested .valid

theorem Unverified.hasValidMember (hindex : CosignatureIndex.build rt events = .ok index)
    (h : Unverified rt events trust target) :
    (index.cosignaturesForTarget rt target trust).hasValidMember = false := by
  rw [CosignatureSet.hasValidMember, any_eq_false]
  intro member hmember hvalid
  have hstatus : member.status = .valid := of_decide_eq_true hvalid
  simp only [CosignatureIndex.cosignaturesForTarget, mem_append, Option.mem_toList,
    Option.map_eq_some_iff, BTreeMap.mem_vals_iff, get_detachedMembers, getD_groupM hindex]
    at hmember
  rcases hmember with ⟨entry, hentry, rfl⟩ | ⟨key, hkey⟩
  · obtain ⟨signature, -, hsigner⟩ := Option.bind_eq_some_iff.mp hentry
    obtain ⟨signer, -, ⟨⟩⟩ := Option.bind_eq_some_iff.mp hsigner
    exact h.inline hstatus
  · obtain ⟨carrier, hcarrier, hentry⟩ := mem_entries.mp (mem_of_head? hkey)
    obtain ⟨hmem, -⟩ := memberEntry_eq_some.mp hentry
    refine h.detached carrier (mem_carriersOf.mp hcarrier) ?_
    obtain ⟨status, hverify, -, rfl⟩ := detachedMember_eq_some.mp hmem
    rw [hverify, ← hstatus]

variable {payload : EventSignatureRecordedPayload}

/-- A co-signature that counts is one of the record, by a signer whose signature verifies. It is a
valid one if the signer may sign for the writer. -/
theorem Cosigns.spec (h : Cosigns rt trust target payload) :
    target.eventRecordHash rt = payload.targetEventRecordHash ∧
      (∃ message, rt.verifyStrict payload.attestingSigner message payload.attestation.sig = true) ∧
      (verifyCosignature rt payload target trust = .attested .valid ↔
        trust.authorizes rt target.writer.actorId payload.attestingSigner = true) := by
  unfold Cosigns verifyCosignature at h
  unfold verifyCosignature
  -- a check that fails before the signer is judged leaves an outcome that does not count
  repeat' split at h
  all_goals simp_all
  all_goals exact ⟨_, ‹_›⟩

/-- A co-signature does not endorse one record and merely co-sign another: the record hash binds the
writer, and only the writer's own signers are no endorsers. -/
theorem Endorses.of_cosigns {other : StoredEvent V}
    (hwriter : target.eventRecordHash rt = other.eventRecordHash rt →
      target.writer.actorId = other.writer.actorId)
    (h : Endorses rt trust target payload) (hcosigns : Cosigns rt trust other payload) :
    Endorses rt trust other payload := by
  obtain ⟨hverify, hendorser⟩ := h
  obtain ⟨hrecord, -, hforeign⟩ := Cosigns.spec (.inr hverify)
  obtain ⟨hrecord', -, hown⟩ := hcosigns.spec
  rw [← hwriter (hrecord.trans hrecord'.symm)] at hown
  rcases hcosigns with hvalid | huntrusted
  · cases hverify.symm.trans (hforeign.mpr (hown.mp hvalid))
  · exact ⟨huntrusted, hendorser⟩

theorem detachedMember_isSome :
    (∃ member, detachedMember rt target inlineKey trust carrier = some member) ↔
      inlineKey ≠ some carrier.event.idempotencyKey ∧ Cosigns rt trust target carrier.payload := by
  simp only [detachedMember_eq_some]
  constructor
  · rintro ⟨_, status, hverify, ⟨rfl | rfl, hfree⟩, -⟩
    · exact ⟨hfree, .inl hverify⟩
    · exact ⟨hfree, .inr hverify⟩
  · rintro ⟨hfree, hverify | hverify⟩
    · exact ⟨_, _, hverify, ⟨.inl rfl, hfree⟩, rfl⟩
    · exact ⟨_, _, hverify, ⟨.inr rfl, hfree⟩, rfl⟩

theorem has_of_firmEndorsement (hindex : CosignatureIndex.build rt events = .ok index)
    (h : FirmEndorsement rt events trust target) :
    (index.cosignaturesForTarget rt target trust).hasTrustedEndorsement = true := by
  obtain ⟨carrier, hof, hkey, hendorses, honly⟩ := h
  rw [hasTrustedEndorsement_eq hindex]
  obtain ⟨member, hmember⟩ := detachedMember_isSome.mpr ⟨hkey, .inr hendorses.1⟩
  have hin : member ∈ entries (memberEntry rt target ((inlineMember rt target trust).map Prod.fst)
      trust) carrier.event.idempotencyKey (carriersOf rt events target.eventId.asStr) :=
    mem_entries.mpr ⟨carrier, mem_carriersOf.mpr hof, memberEntry_eq_some.mpr ⟨hmember, rfl⟩⟩
  obtain ⟨first, hfirst⟩ := Option.isSome_iff_exists.mp
    (isSome_head?.mpr (ne_nil_of_mem hin))
  refine ⟨_, first, hfirst, ?_⟩
  -- the first one under the key endorses too, since all of them do
  obtain ⟨other, hother, hentry⟩ := mem_entries.mp (mem_of_mem_head? hfirst)
  obtain ⟨hm, hk⟩ := memberEntry_eq_some.mp hentry
  obtain ⟨hfree, hcosigns⟩ := detachedMember_isSome.mp ⟨first, hm⟩
  obtain ⟨m, hm', htrusted⟩ := detachedMember_isTrusted.mpr
    ⟨hfree, honly other (mem_carriersOf.mp hother) hk hcosigns⟩
  rw [hm] at hm'
  cases hm'
  exact htrusted

/-- When the lesser co-signatures of an event come first, only a firm endorsement counts. -/
theorem firmEndorsement_of_has {front back : List (StoredEvent V)}
    (hindex : CosignatureIndex.build rt (front ++ back) = .ok index)
    (hfront : ∀ carrier, CarrierOf rt front target.eventId.asStr carrier →
      ¬ Endorses rt trust target carrier.payload)
    (hback : ∀ carrier, CarrierOf rt (front ++ back) target.eventId.asStr carrier →
      Cosigns rt trust target carrier.payload → ¬ Endorses rt trust target carrier.payload →
      carrier.event ∈ front)
    (h : (index.cosignaturesForTarget rt target trust).hasTrustedEndorsement = true) :
    FirmEndorsement rt (front ++ back) trust target := by
  obtain ⟨key, member, hmember, htrusted⟩ := (hasTrustedEndorsement_eq hindex).mp h
  obtain ⟨carrier, hcarrier, hentry⟩ := mem_entries.mp (mem_of_mem_head? hmember)
  obtain ⟨hm, hk⟩ := memberEntry_eq_some.mp hentry
  obtain ⟨hfree, hendorses⟩ := detachedMember_isTrusted.mp ⟨member, hm, htrusted⟩
  refine ⟨carrier, mem_carriersOf.mp hcarrier, hfree, hendorses, fun other hother hsame hcosigns =>
    by_contra fun hlesser => ?_⟩
  have hotherFront := hback other hother hcosigns hlesser
  -- so the list under the key starts in the front, where nothing endorses
  rw [carriersOf, entries_append, entries_append, head?_append] at hmember
  obtain ⟨m, hm'⟩ := detachedMember_isSome.mpr ⟨hsame ▸ hfree, hcosigns⟩
  have hin : m ∈ entries (memberEntry rt target ((inlineMember rt target trust).map Prod.fst) trust)
      key (carriersOf rt front target.eventId.asStr) :=
    mem_entries.mpr ⟨other, mem_carriersOf.mpr
      ⟨hotherFront, hother.eventType, hother.payload, hother.targets⟩,
      memberEntry_eq_some.mpr ⟨hm', hsame.trans hk⟩⟩
  obtain ⟨first, hfirst⟩ := Option.isSome_iff_exists.mp
    (isSome_head?.mpr (ne_nil_of_mem hin))
  rw [carriersOf] at hfirst
  rw [hfirst, Option.some_or] at hmember
  cases hmember
  obtain ⟨c, hc, hcentry⟩ := mem_entries.mp (mem_of_mem_head? hfirst)
  obtain ⟨hcm, -⟩ := memberEntry_eq_some.mp hcentry
  obtain ⟨-, hcendorses⟩ := detachedMember_isTrusted.mp ⟨member, hcm, htrusted⟩
  exact hfront c (mem_carriersOf.mp hc) hcendorses

end Cosignature

end Pointbreak
