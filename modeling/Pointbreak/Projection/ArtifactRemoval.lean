import Pointbreak.Projection.Cosignature
import Pointbreak.Store.Recorded

/-!
# Projection.ArtifactRemoval

Which content hashes the events claim as removed, and what a claim amounts to for a reader: it is
operative by possession when it is local, by trust when its signature is valid or a co-signature
endorses it, and never when its own signature does not verify. The status of a hash should be that
of its strongest claim (`StrongestClaim`); the fold stops at the first operative one.
-/

namespace Pointbreak

open Std KeyedLog List

inductive RemovalPolicy where
  | advisory | possessionOrTrusted | trustedStrict
deriving DecidableEq

inductive RemovalOperativeStatus where
  | noClaim | operativePossession | operativeTrusted | claimUnsigned | claimUntrusted | claimInvalid
deriving DecidableEq

structure RemovalClaim (V : Type) where
  contentHash : Text
  event : StoredEvent V

/-- What one claim has going for it: the `(status, arm_a, arm_b)` of the source. -/
structure ClaimEvidence where
  status : EventVerificationStatus
  possessed : Bool
  trusted : Bool

def claimReason : EventVerificationStatus → RemovalOperativeStatus
  | .unsigned => .claimUnsigned
  | _ => .claimUntrusted

def RemovalOperativeStatus.rank : RemovalOperativeStatus → Nat
  | .claimInvalid => 0
  | .claimUnsigned => 1
  | .claimUntrusted => 2
  | _ => 3

def maxStatus (a b : RemovalOperativeStatus) : RemovalOperativeStatus :=
  if b.rank ≥ a.rank then b else a

def RemovalPolicy.operative (policy : RemovalPolicy) (evidence : ClaimEvidence) : Bool :=
  match policy with
  | .advisory => false
  | .possessionOrTrusted => evidence.possessed || evidence.trusted
  | .trustedStrict => evidence.trusted

def strongestFrom (policy : RemovalPolicy) (best : RemovalOperativeStatus) :
    List ClaimEvidence → RemovalOperativeStatus
  | [] => best
  | evidence :: rest =>
    if evidence.status = .invalid then strongestFrom policy best rest
    else if policy.operative evidence then
      if evidence.trusted then .operativeTrusted else .operativePossession
    else strongestFrom policy (maxStatus best (claimReason evidence.status)) rest

def RemovalOperativeStatus.isOperative : RemovalOperativeStatus → Bool
  | .operativePossession | .operativeTrusted => true
  | _ => false

abbrev ArtifactRemovalProjection (V : Type) : Type := BTreeMap Text (List (RemovalClaim V))

section Removal

variable {V B : Type} (rt : StoreRuntime V B)

def readClaim (event : StoredEvent V) : Result (Option (Text × RemovalClaim V)) :=
  if event.eventType = .artifactRemoved then do
    let payload ← fromValue rt.artifactRemoved event.payload
    .ok (some (payload.contentHash, { contentHash := payload.contentHash, event }))
  else .ok none

def ArtifactRemovalProjection.fromEvents (events : List (StoredEvent V)) :
    Result (ArtifactRemovalProjection V) :=
  groupM (readClaim rt) events

def RemovalClaim.evaluate (claim : RemovalClaim V) (trust : TrustSet) (cosig : CosignatureIndex V) :
    ClaimEvidence :=
  let status := verifyEventSignature rt claim.event trust
  { status, possessed := claim.event.ingest.isNone,
    trusted := status = .valid ||
      (cosig.cosignaturesForTarget rt claim.event trust).hasTrustedEndorsement }

def ArtifactRemovalProjection.operativeStatus (projection : ArtifactRemovalProjection V)
    (contentHash : Text) (trust : TrustSet) (policy : RemovalPolicy) (cosig : CosignatureIndex V) :
    RemovalOperativeStatus :=
  match projection[contentHash]? with
  | none => .noClaim
  | some claims => strongestFrom policy .claimInvalid (claims.map (·.evaluate rt trust cosig))

def ArtifactRemovalProjection.isOperativeSuppress (projection : ArtifactRemovalProjection V)
    (contentHash : Text) (trust : TrustSet) (policy : RemovalPolicy) (cosig : CosignatureIndex V) :
    Bool :=
  (projection.operativeStatus rt contentHash trust policy cosig).isOperative

/-- The status of a hash over a list of events: the projection and the index are of one list. -/
def removalStatus (events : List (StoredEvent V)) (contentHash : Text) (trust : TrustSet)
    (policy : RemovalPolicy) : Result RemovalOperativeStatus := do
  let projection ← ArtifactRemovalProjection.fromEvents rt events
  let cosig ← CosignatureIndex.build rt events
  .ok (projection.operativeStatus rt contentHash trust policy cosig)

end Removal

variable {evidence : ClaimEvidence}

section Fold

variable {policy : RemovalPolicy} {best : RemovalOperativeStatus} {claims : List ClaimEvidence}

def ClaimEvidence.Operative (policy : RemovalPolicy) (evidence : ClaimEvidence) : Prop :=
  evidence.status ≠ .invalid ∧ policy.operative evidence = true

instance (evidence : ClaimEvidence) : Decidable (evidence.Operative policy) :=
  inferInstanceAs (Decidable (_ ∧ _))

theorem strongestFrom_of_operative (h : claims.find? (·.Operative policy) = some evidence) :
    strongestFrom policy best claims =
      if evidence.trusted then .operativeTrusted else .operativePossession := by
  induction claims generalizing best with
  | nil => cases h
  | cons first rest ih =>
    rw [strongestFrom]
    by_cases hfirst : first.Operative policy
    · rw [find?_cons_of_pos (by simpa using hfirst)] at h
      cases h
      rw [if_neg hfirst.1, if_pos hfirst.2]
    · rw [find?_cons_of_neg (by simpa using hfirst)] at h
      split
      · exact ih h
      · rename_i hinvalid
        rw [if_neg fun hop => hfirst ⟨hinvalid, hop⟩]
        exact ih h

theorem maxStatus_spec (a b : RemovalOperativeStatus) : (maxStatus a b = a ∨ maxStatus a b = b) ∧
    a.rank ≤ (maxStatus a b).rank ∧ b.rank ≤ (maxStatus a b).rank := by
  unfold maxStatus
  split
  · rename_i hle
    exact ⟨.inr rfl, hle, Nat.le_refl _⟩
  · rename_i hlt
    exact ⟨.inl rfl, Nat.le_refl _, Nat.le_of_not_le hlt⟩

theorem strongestFrom_of_none (hno : ∀ c ∈ claims, ¬ c.Operative policy) :
    (strongestFrom policy best claims = best ∨ ∃ c ∈ claims, c.status ≠ .invalid ∧
      strongestFrom policy best claims = claimReason c.status) ∧
    best.rank ≤ (strongestFrom policy best claims).rank ∧
    ∀ c ∈ claims, c.status ≠ .invalid →
      (claimReason c.status).rank ≤ (strongestFrom policy best claims).rank := by
  induction claims generalizing best with
  | nil => simp [strongestFrom]
  | cons first rest ih =>
    obtain ⟨hfirst, hrest⟩ := forall_mem_cons.mp hno
    rw [strongestFrom]
    by_cases hinvalid : first.status = .invalid
    · rw [if_pos hinvalid]
      simpa [hinvalid] using ih hrest
    · rw [if_neg hinvalid, if_neg fun hop => hfirst ⟨hinvalid, hop⟩]
      obtain ⟨hmax, hleft, hright⟩ := maxStatus_spec best (claimReason first.status)
      obtain ⟨hmem, hbest, hall⟩ := ih hrest
      refine ⟨?_, hleft.trans hbest, forall_mem_cons.mpr ⟨fun _ => hright.trans hbest, hall⟩⟩
      rcases hmem with heq | ⟨c, hc, hvalid, heq⟩
      · rw [heq]
        exact hmax.imp_right fun hreason => ⟨first, .head _, hinvalid, hreason⟩
      · exact .inr ⟨c, .tail _ hc, hvalid, heq⟩

/-- A removal is operative exactly when some claim makes it so. -/
theorem isOperative_strongestFrom : (strongestFrom policy .claimInvalid claims).isOperative = true ↔
    ∃ c ∈ claims, c.Operative policy := by
  cases hfind : claims.find? (·.Operative policy) with
  | some evidence =>
    have hoperative : evidence.Operative policy := by simpa using find?_some hfind
    rw [strongestFrom_of_operative hfind]
    refine iff_of_true ?_ ⟨evidence, mem_of_find?_eq_some hfind, hoperative⟩
    split <;> rfl
  | none =>
    have hno : ∀ c ∈ claims, ¬ c.Operative policy := by simpa using hfind
    refine iff_of_false ?_ (by simpa using hno)
    rcases (strongestFrom_of_none hno).1 with heq | ⟨c, -, -, heq⟩
    · rw [heq]
      decide
    · rw [heq]
      cases c.status <;> decide

theorem exists_trusted_of_strongestFrom
    (h : strongestFrom policy .claimInvalid claims = .operativeTrusted) :
    ∃ c ∈ claims, c.Operative policy ∧ c.trusted = true := by
  obtain ⟨c, hc, hop⟩ := isOperative_strongestFrom.mp (by rw [h]; rfl)
  obtain ⟨evidence, hfind⟩ : ∃ evidence, claims.find? (·.Operative policy) = some evidence :=
    Option.isSome_iff_exists.mp (find?_isSome.mpr ⟨c, hc, decide_eq_true hop⟩)
  rw [strongestFrom_of_operative hfind] at h
  refine ⟨evidence, mem_of_find?_eq_some hfind, by simpa using find?_some hfind, ?_⟩
  by_contra hnot
  rw [if_neg hnot] at h
  cases h

end Fold

section Strongest

variable {V B : Type} (rt : StoreRuntime V B) (events : List (StoredEvent V)) (trust : TrustSet)

structure IsClaim (contentHash : Text) (event : StoredEvent V) : Prop where
  mem : event ∈ events
  eventType : event.eventType = .artifactRemoved
  payload : rt.artifactRemoved event.payload = .ok { contentHash }

/-- A claim that is not below the integrity floor. -/
structure Stands (contentHash : Text) (event : StoredEvent V) : Prop
    extends IsClaim rt events contentHash event where
  valid : verifyEventSignature rt event trust ≠ .invalid

/-- The claim is validly signed or trusted-endorsed. -/
def TrustedClaim (event : StoredEvent V) : Prop :=
  verifyEventSignature rt event trust = .valid ∨ TrustedEndorsement rt events trust event

/-- The claim is trusted however the carriers are ordered. -/
def FirmClaim (event : StoredEvent V) : Prop :=
  verifyEventSignature rt event trust = .valid ∨ FirmEndorsement rt events trust event

def NoneOperative (policy : RemovalPolicy) (contentHash : Text) : Prop :=
  ∀ event, Stands rt events trust contentHash event →
    (policy ≠ .advisory → ¬ TrustedClaim rt events trust event) ∧
    (policy = .possessionOrTrusted → event.ingest ≠ none)

/-- The status that the strongest claim on a hash gives it. -/
inductive StrongestClaim (policy : RemovalPolicy) (contentHash : Text) :
    RemovalOperativeStatus → Prop where
  | noClaim (hnone : ∀ event, ¬ IsClaim rt events contentHash event) :
      StrongestClaim policy contentHash .noClaim
  | trusted {event : StoredEvent V} (hpolicy : policy ≠ .advisory)
      (hstands : Stands rt events trust contentHash event)
      (htrusted : TrustedClaim rt events trust event) :
      StrongestClaim policy contentHash .operativeTrusted
  | possession {event : StoredEvent V} (hpolicy : policy = .possessionOrTrusted)
      (hstands : Stands rt events trust contentHash event) (hlocal : event.ingest = none)
      (hnone : ∀ other, Stands rt events trust contentHash other →
        ¬ TrustedClaim rt events trust other) :
      StrongestClaim policy contentHash .operativePossession
  | invalid {event : StoredEvent V} (hclaim : IsClaim rt events contentHash event)
      (hall : ∀ other, ¬ Stands rt events trust contentHash other) :
      StrongestClaim policy contentHash .claimInvalid
  | untrusted {event : StoredEvent V} (hnone : NoneOperative rt events trust policy contentHash)
      (hstands : Stands rt events trust contentHash event)
      (hsigned : verifyEventSignature rt event trust ≠ .unsigned) :
      StrongestClaim policy contentHash .claimUntrusted
  | unsigned {event : StoredEvent V} (hnone : NoneOperative rt events trust policy contentHash)
      (hstands : Stands rt events trust contentHash event)
      (hall : ∀ other, Stands rt events trust contentHash other →
        verifyEventSignature rt other trust = .unsigned) :
      StrongestClaim policy contentHash .claimUnsigned

variable {rt events trust} {policy : RemovalPolicy} {contentHash : Text} {event : StoredEvent V}
  {status : RemovalOperativeStatus} {projection : ArtifactRemovalProjection V}
  {index : CosignatureIndex V}

theorem StrongestClaim.eq_trusted (h : StrongestClaim rt events trust policy contentHash status)
    (hpolicy : policy ≠ .advisory) (hstands : Stands rt events trust contentHash event)
    (htrusted : TrustedClaim rt events trust event) : status = .operativeTrusted := by
  cases h with
  | noClaim hnone => exact absurd hstands.toIsClaim (hnone event)
  | trusted => rfl
  | possession _ _ _ hnone => exact absurd htrusted (hnone event hstands)
  | invalid _ hall => exact absurd hstands (hall event)
  | untrusted hnone | unsigned hnone => exact absurd htrusted ((hnone event hstands).1 hpolicy)

theorem StrongestClaim.unique {status status' : RemovalOperativeStatus}
    (h : StrongestClaim rt events trust policy contentHash status)
    (h' : StrongestClaim rt events trust policy contentHash status') : status = status' := by
  cases h <;> cases h' <;> grind [NoneOperative, → Stands.toIsClaim]

def claimsOf (rt : StoreRuntime V B) (events : List (StoredEvent V)) (contentHash : Text) :
    List (RemovalClaim V) :=
  entries (readEntry (readClaim rt)) contentHash events

variable {claim : RemovalClaim V}

theorem readClaim_eq_ok {key : Text} :
    readClaim rt event = .ok (some (key, claim)) ↔ event.eventType = .artifactRemoved ∧
      rt.artifactRemoved event.payload = .ok { contentHash := key } ∧ claim = ⟨key, event⟩ := by
  rw [readClaim]
  split
  · rename_i ht
    simp only [Result.bind_eq_ok, fromValue_eq_ok, Except.ok.injEq, Option.some.injEq,
      Prod.mk.injEq, ht, true_and]
    constructor
    · rintro ⟨⟨_⟩, hp, rfl, rfl⟩
      exact ⟨hp, rfl⟩
    · rintro ⟨hp, rfl⟩
      exact ⟨_, hp, rfl, rfl⟩
  · rename_i ht
    simp [ht]

theorem mem_claimsOf :
    claim ∈ claimsOf rt events contentHash ↔
      IsClaim rt events contentHash claim.event ∧ claim.contentHash = contentHash := by
  rw [claimsOf, mem_entries]
  simp only [readEntry, Option.join_eq_some_iff, Result.toOption_eq_some, readClaim_eq_ok]
  constructor
  · rintro ⟨event, he, ht, hp, rfl⟩
    exact ⟨⟨he, ht, hp⟩, rfl⟩
  · rintro ⟨⟨he, ht, hp⟩, rfl⟩
    exact ⟨claim.event, he, ht, hp, rfl⟩

theorem get_removals {projection : ArtifactRemovalProjection V}
    (hprojection : ArtifactRemovalProjection.fromEvents rt events = .ok projection) :
    projection[contentHash]? = if claimsOf rt events contentHash = [] then none
      else some (claimsOf rt events contentHash) :=
  get_groupM hprojection contentHash

theorem removalStatus_eq {index : CosignatureIndex V} {projection : ArtifactRemovalProjection V}
    (hprojection : ArtifactRemovalProjection.fromEvents rt events = .ok projection)
    (hindex : CosignatureIndex.build rt events = .ok index) :
    removalStatus rt events contentHash trust policy = .ok
      (if claimsOf rt events contentHash = [] then .noClaim
       else strongestFrom policy .claimInvalid
        ((claimsOf rt events contentHash).map (·.evaluate rt trust index))) := by
  simp only [removalStatus, hprojection, hindex, bind, Except.bind,
    ArtifactRemovalProjection.operativeStatus, get_removals hprojection]
  by_cases hnil : claimsOf rt events contentHash = []
  · simp [hnil]
  · simp [hnil]

/-- The event co-signs some record of the list without endorsing it. -/
def LesserCarrier (rt : StoreRuntime V B) (events : List (StoredEvent V)) (trust : TrustSet)
    (event : StoredEvent V) : Prop :=
  ∃ target ∈ events, ∃ carrier, CarrierOf rt events target.eventId.asStr carrier ∧
    carrier.event = event ∧ Cosigns rt trust target carrier.payload ∧
    ¬ Endorses rt trust target carrier.payload

/-- The record hash binds the writer. -/
def RecordBindsWriter (rt : StoreRuntime V B) (events : List (StoredEvent V)) : Prop :=
  ∀ e ∈ events, ∀ e' ∈ events, e.eventRecordHash rt = e'.eventRecordHash rt →
    e.writer.actorId = e'.writer.actorId

theorem LesserCarrier.eventType (h : LesserCarrier rt events trust event) :
    event.eventType = .eventSignatureRecorded := by
  obtain ⟨_, -, carrier, hof, rfl, -⟩ := h
  exact hof.eventType

theorem LesserCarrier.mem (h : LesserCarrier rt events trust event) : event ∈ events := by
  obtain ⟨_, -, carrier, hof, rfl, -⟩ := h
  exact hof.mem

section Evidence

variable (hindex : CosignatureIndex.build rt events = .ok index) {claim : RemovalClaim V}
include hindex

theorem trustedClaim_of_evaluate (h : (claim.evaluate rt trust index).trusted = true) :
    TrustedClaim rt events trust claim.event := by
  simp only [RemovalClaim.evaluate, Bool.or_eq_true, decide_eq_true_eq] at h
  exact h.imp_right (trustedEndorsement_of_has hindex)

theorem evaluate_of_firmClaim (h : FirmClaim rt events trust claim.event) :
    (claim.evaluate rt trust index).trusted = true := by
  simp only [RemovalClaim.evaluate, Bool.or_eq_true, decide_eq_true_eq]
  exact h.imp_right (has_of_firmEndorsement hindex)

end Evidence

theorem firmClaim_of_evaluate (hwriter : RecordBindsWriter rt events)
    {front back : List (StoredEvent V)} (hperm : (front ++ back).Perm events)
    (hfront : ∀ e ∈ front, e.eventType = .eventSignatureRecorded → LesserCarrier rt events trust e)
    (hlesser : ∀ e, LesserCarrier rt events trust e → e ∈ front) {index : CosignatureIndex V}
    (hindex : CosignatureIndex.build rt (front ++ back) = .ok index) (hmem : claim.event ∈ events)
    (h : (claim.evaluate rt trust index).trusted = true) :
    FirmClaim rt events trust claim.event := by
  simp only [RemovalClaim.evaluate, Bool.or_eq_true, decide_eq_true_eq] at h
  refine h.imp_right fun h => (firmEndorsement_perm hperm).mp (firmEndorsement_of_has hindex ?_ ?_ h)
  · intro carrier hof hendorses
    obtain ⟨target, htarget, other, hother, heq, hcosigns, hnot⟩ :=
      hfront carrier.event hof.mem hof.eventType
    have hpayload : other.payload = carrier.payload := by
      have h1 := hother.payload
      rw [heq, hof.payload] at h1
      exact (Except.ok.inj h1).symm
    rw [hpayload] at hcosigns hnot
    exact hnot (hendorses.of_cosigns (hwriter _ hmem _ htarget) hcosigns)
  · intro carrier hof hcosigns hnot
    exact hlesser _ ⟨claim.event, hmem, carrier, (carrierOf_perm hperm).mp hof, rfl, hcosigns, hnot⟩

/-- The first operative claim is a trusted one in every order: no standing claim is trusted at all,
or some is firmly, and so is every local one that the policy would take instead. -/
def TrustNotShadowed (rt : StoreRuntime V B) (events : List (StoredEvent V)) (trust : TrustSet)
    (policy : RemovalPolicy) (contentHash : Text) : Prop :=
  policy ≠ .advisory →
    (∃ event, Stands rt events trust contentHash event ∧ TrustedClaim rt events trust event) →
    (∃ event, Stands rt events trust contentHash event ∧ FirmClaim rt events trust event) ∧
    (policy = .possessionOrTrusted → ∀ event, Stands rt events trust contentHash event →
      event.ingest = none → FirmClaim rt events trust event)

section Perm

variable {events' : List (StoredEvent V)} (hperm : events'.Perm events)
include hperm

theorem stands_perm {event : StoredEvent V} :
    Stands rt events' trust contentHash event ↔ Stands rt events trust contentHash event := by
  constructor
  · rintro ⟨⟨hmem, ht, hp⟩, hvalid⟩
    exact ⟨⟨hperm.mem_iff.mp hmem, ht, hp⟩, hvalid⟩
  · rintro ⟨⟨hmem, ht, hp⟩, hvalid⟩
    exact ⟨⟨hperm.mem_iff.mpr hmem, ht, hp⟩, hvalid⟩

theorem trustNotShadowed_perm :
    TrustNotShadowed rt events' trust policy contentHash ↔
      TrustNotShadowed rt events trust policy contentHash := by
  simp only [TrustNotShadowed, stands_perm hperm, TrustedClaim, FirmClaim,
    trustedEndorsement_perm hperm, firmEndorsement_perm hperm]

theorem StrongestClaim.perm (h : StrongestClaim rt events' trust policy contentHash status) :
    StrongestClaim rt events trust policy contentHash status := by
  have hclaim : ∀ event, IsClaim rt events' contentHash event ↔
      IsClaim rt events contentHash event := fun event =>
    ⟨fun ⟨hmem, ht, hp⟩ => ⟨hperm.mem_iff.mp hmem, ht, hp⟩,
      fun ⟨hmem, ht, hp⟩ => ⟨hperm.mem_iff.mpr hmem, ht, hp⟩⟩
  have htrust : ∀ event, TrustedClaim rt events' trust event ↔ TrustedClaim rt events trust event := by
    intro event
    simp only [TrustedClaim, trustedEndorsement_perm hperm]
  cases h with
  | noClaim hnone => exact .noClaim fun event => (hclaim event).not.mp (hnone event)
  | trusted hpolicy hstands htrusted =>
    exact .trusted hpolicy ((stands_perm hperm).mp hstands) ((htrust _).mp htrusted)
  | possession hpolicy hstands hlocal hnone =>
    exact .possession hpolicy ((stands_perm hperm).mp hstands) hlocal fun other hother =>
      (htrust other).not.mp (hnone other ((stands_perm hperm).mpr hother))
  | invalid h hall =>
    exact .invalid ((hclaim _).mp h) fun other => (stands_perm hperm).not.mp (hall other)
  | untrusted hnone hstands hsigned =>
    refine .untrusted (fun other hother => ?_) ((stands_perm hperm).mp hstands) hsigned
    rw [← htrust other]
    exact hnone other ((stands_perm hperm).mpr hother)
  | unsigned hnone hstands hall =>
    refine .unsigned (fun other hother => ?_) ((stands_perm hperm).mp hstands) fun other hother =>
      hall other ((stands_perm hperm).mpr hother)
    rw [← htrust other]
    exact hnone other ((stands_perm hperm).mpr hother)

end Perm

section Status

theorem mem_evidence :
    evidence ∈ (claimsOf rt events contentHash).map (·.evaluate rt trust index) ↔
      ∃ event, IsClaim rt events contentHash event ∧
        evidence = (RemovalClaim.mk contentHash event).evaluate rt trust index := by
  simp only [mem_map, mem_claimsOf]
  constructor
  · rintro ⟨⟨_, event⟩, ⟨hclaim, rfl⟩, rfl⟩
    exact ⟨event, hclaim, rfl⟩
  · rintro ⟨event, hclaim, rfl⟩
    exact ⟨_, ⟨hclaim, rfl⟩, rfl⟩

theorem operative_evaluate_iff {event : StoredEvent V} :
    ((RemovalClaim.mk contentHash event).evaluate rt trust index).Operative policy ↔
      verifyEventSignature rt event trust ≠ .invalid ∧
      ((policy ≠ .advisory ∧
        ((RemovalClaim.mk contentHash event).evaluate rt trust index).trusted = true) ∨
      (policy = .possessionOrTrusted ∧ event.ingest = none)) := by
  unfold ClaimEvidence.Operative
  cases policy <;> simp [RemovalPolicy.operative, RemovalClaim.evaluate, or_comm]

variable (hindex : CosignatureIndex.build rt events = .ok index)
include hindex

theorem strongestFrom_claims (hcond : TrustNotShadowed rt events trust policy contentHash)
    (hclaims : claimsOf rt events contentHash ≠ []) :
    StrongestClaim rt events trust policy contentHash (strongestFrom policy .claimInvalid
      ((claimsOf rt events contentHash).map (·.evaluate rt trust index))) := by
  cases hfind : ((claimsOf rt events contentHash).map (·.evaluate rt trust index)).find?
      (·.Operative policy) with
  | some evidence =>
    rw [strongestFrom_of_operative hfind]
    have hop : evidence.Operative policy := by simpa using find?_some hfind
    obtain ⟨event, hclaim, rfl⟩ := mem_evidence.mp (mem_of_find?_eq_some hfind)
    obtain ⟨hvalid, harm⟩ := operative_evaluate_iff.mp hop
    have hstands : Stands rt events trust contentHash event := ⟨hclaim, hvalid⟩
    have hpolicy : policy ≠ .advisory := by
      rcases harm with ⟨hpolicy, -⟩ | ⟨rfl, -⟩
      · exact hpolicy
      · decide
    split
    · rename_i htrusted
      exact .trusted hpolicy hstands (trustedClaim_of_evaluate hindex htrusted)
    · rename_i hnot
      obtain ⟨hpossession, hlocal⟩ := harm.resolve_left fun h => hnot h.2
      refine .possession hpossession hstands hlocal fun other hother htrusted => hnot ?_
      exact evaluate_of_firmClaim hindex
        ((hcond hpolicy ⟨other, hother, htrusted⟩).2 hpossession event hstands hlocal)
  | none =>
    have hno : ∀ c ∈ (claimsOf rt events contentHash).map (·.evaluate rt trust index),
        ¬ c.Operative policy := by simpa using hfind
    have hnone : NoneOperative rt events trust policy contentHash := by
      intro event hstands
      have hnot := hno _ (mem_evidence.mpr ⟨event, hstands.toIsClaim, rfl⟩)
      rw [operative_evaluate_iff] at hnot
      refine ⟨fun hpolicy htrusted => ?_, fun hpossession hlocal =>
        hnot ⟨hstands.valid, .inr ⟨hpossession, hlocal⟩⟩⟩
      -- a trusted claim would come with a firm one, which is operative
      obtain ⟨⟨firm, hfirm, hf⟩, -⟩ := hcond hpolicy ⟨event, hstands, htrusted⟩
      exact hno _ (mem_evidence.mpr ⟨firm, hfirm.toIsClaim, rfl⟩)
        (operative_evaluate_iff.mpr ⟨hfirm.valid, .inl ⟨hpolicy, evaluate_of_firmClaim hindex hf⟩⟩)
    obtain ⟨hmem, -, hmax⟩ := @strongestFrom_of_none policy .claimInvalid _ hno
    have hrank : ∀ {event}, Stands rt events trust contentHash event →
        (claimReason (verifyEventSignature rt event trust)).rank ≤ _ := fun hstands =>
      hmax _ (mem_evidence.mpr ⟨_, hstands.toIsClaim, rfl⟩) hstands.valid
    rcases hmem with heq | ⟨c, hc, hvalid, heq⟩
    · rw [heq] at hrank ⊢
      obtain ⟨claim, hclaim⟩ := exists_mem_of_ne_nil _ hclaims
      refine .invalid (mem_claimsOf.mp hclaim).1 fun other hother => ?_
      have hle := hrank hother
      cases hs : verifyEventSignature rt other trust <;> rw [hs] at hle <;> cases hle
    · obtain ⟨event, hclaim, rfl⟩ := mem_evidence.mp hc
      have hstands : Stands rt events trust contentHash event := ⟨hclaim, hvalid⟩
      rw [heq] at hrank ⊢
      change StrongestClaim _ _ _ _ _ (claimReason (verifyEventSignature rt event trust))
      cases hs : verifyEventSignature rt event trust with
      | unsigned =>
        refine .unsigned hnone hstands fun other hother => ?_
        have hle := hrank hother
        simp only [RemovalClaim.evaluate, hs] at hle
        cases hs' : verifyEventSignature rt other trust with
        | unsigned => rfl
        | invalid => exact absurd hs' hother.valid
        | _ => simp [hs', claimReason, RemovalOperativeStatus.rank] at hle
      | _ => exact .untrusted hnone hstands (by rw [hs]; decide)

theorem removalStatus_strongest
    (hprojection : ArtifactRemovalProjection.fromEvents rt events = .ok projection)
    (hcond : TrustNotShadowed rt events trust policy contentHash) :
    ∃ status, removalStatus rt events contentHash trust policy = .ok status ∧
      StrongestClaim rt events trust policy contentHash status := by
  rw [removalStatus_eq hprojection hindex]
  refine ⟨_, rfl, ?_⟩
  split
  · rename_i hnil
    refine .noClaim fun event hclaim => ?_
    have hmem : RemovalClaim.mk contentHash event ∈ claimsOf rt events contentHash :=
      mem_claimsOf.mpr ⟨hclaim, rfl⟩
    rw [hnil] at hmem
    cases hmem
  · rename_i hclaims
    exact strongestFrom_claims hindex hcond hclaims

variable (hprojection : ArtifactRemovalProjection.fromEvents rt events = .ok projection)
  (hwriter : RecordBindsWriter rt events)
include hprojection hwriter

theorem exists_leading_order (trust : TrustSet) (lead : StoredEvent V → Prop)
    (hlead : ∀ e ∈ events, lead e → e.eventType ≠ .eventSignatureRecorded) :
    ∃ front back : List (StoredEvent V), ∃ index', (front ++ back).Perm events ∧
      CosignatureIndex.build rt (front ++ back) = .ok index' ∧
      (∀ e, e ∈ front ↔ e ∈ events ∧ (lead e ∨ LesserCarrier rt events trust e)) ∧
      (∀ claim : RemovalClaim V, claim.event ∈ events →
        (claim.evaluate rt trust index').trusted = true → FirmClaim rt events trust claim.event) ∧
      removalStatus rt (front ++ back) contentHash trust policy = .ok
        (if claimsOf rt (front ++ back) contentHash = [] then .noClaim
         else strongestFrom policy .claimInvalid
          ((claimsOf rt (front ++ back) contentHash).map (·.evaluate rt trust index'))) := by
  classical
  let early (e : StoredEvent V) : Bool := lead e ∨ LesserCarrier rt events trust e
  have hperm : (events.filter early ++ events.filter (!early ·)).Perm events :=
    filter_append_perm early events
  obtain ⟨index', hindex'⟩ := groupM_isOk_perm hperm hindex
  obtain ⟨projection', hprojection'⟩ := groupM_isOk_perm hperm hprojection
  have hfront : ∀ e, e ∈ events.filter early ↔
      e ∈ events ∧ (lead e ∨ LesserCarrier rt events trust e) := by
    intro e
    simp [early]
  refine ⟨_, _, index', hperm, hindex', hfront, ?_, removalStatus_eq hprojection' hindex'⟩
  intro claim hmem
  refine firmClaim_of_evaluate hwriter hperm ?_ ?_ hindex' hmem
  · intro e he ht
    obtain ⟨hin, hcase⟩ := (hfront e).mp he
    exact hcase.resolve_left fun hl => hlead e hin hl ht
  · intro e hlesser
    exact (hfront e).mpr ⟨hlesser.mem, .inr hlesser⟩

theorem trustNotShadowed_of_perm
    (hstrongest : StrongestClaim rt events trust policy contentHash status)
    (h : ∀ events' : List (StoredEvent V), events'.Perm events →
      removalStatus rt events' contentHash trust policy = .ok status) :
    TrustNotShadowed rt events trust policy contentHash := by
  rintro hpolicy ⟨event, hstands, htrusted⟩
  obtain rfl := hstrongest.eq_trusted hpolicy hstands htrusted
  constructor
  · obtain ⟨front, back, index', hperm, -, -, hfirm, hstatus⟩ :=
      exists_leading_order hindex hprojection hwriter trust (fun _ => False) (by simp)
    rw [h _ hperm, Except.ok.injEq] at hstatus
    split at hstatus
    · cases hstatus
    · obtain ⟨c, hc, hop, htrust⟩ := exists_trusted_of_strongestFrom hstatus.symm
      obtain ⟨other, hother, rfl⟩ := mem_evidence.mp hc
      have hstands' : Stands rt (front ++ back) trust contentHash other :=
        ⟨hother, (operative_evaluate_iff.mp hop).1⟩
      have hin := (stands_perm hperm).mp hstands'
      exact ⟨other, hin, hfirm _ hin.mem htrust⟩
  · rintro rfl local' hlocalStands hlocal
    obtain ⟨front, back, index', hperm, -, hfront, hfirm, hstatus⟩ :=
      exists_leading_order hindex hprojection hwriter trust (fun e => e = local') (by
        rintro e - rfl
        rw [hlocalStands.eventType]
        decide)
    rw [h _ hperm, Except.ok.injEq] at hstatus
    have hmem : local' ∈ front := (hfront _).mpr ⟨hlocalStands.mem, .inl rfl⟩
    -- in that order the local claim comes first
    have honly : ∀ evidence ∈ (claimsOf rt front contentHash).map (·.evaluate rt trust index'),
        evidence = (RemovalClaim.mk contentHash local').evaluate rt trust index' := by
      intro evidence hevidence
      obtain ⟨other, hother, rfl⟩ := mem_evidence.mp hevidence
      rcases ((hfront _).mp hother.mem).2 with rfl | hlesser
      · rfl
      · have := hother.eventType
        rw [hlesser.eventType] at this
        cases this
    have hself : (RemovalClaim.mk contentHash local').evaluate rt trust index' ∈
        (claimsOf rt front contentHash).map (·.evaluate rt trust index') :=
      mem_evidence.mpr ⟨local', ⟨hmem, hlocalStands.eventType, hlocalStands.payload⟩, rfl⟩
    have hoperative : ((RemovalClaim.mk contentHash local').evaluate rt trust index').Operative
        .possessionOrTrusted :=
      operative_evaluate_iff.mpr ⟨hlocalStands.valid, .inr ⟨rfl, hlocal⟩⟩
    have hfind : ((claimsOf rt (front ++ back) contentHash).map
        (·.evaluate rt trust index')).find? (·.Operative .possessionOrTrusted) =
          some ((RemovalClaim.mk contentHash local').evaluate rt trust index') := by
      have happend : claimsOf rt (front ++ back) contentHash =
          claimsOf rt front contentHash ++ claimsOf rt back contentHash := entries_append ..
      rw [happend, map_append, find?_append]
      obtain ⟨first, hfirst⟩ : ∃ first, ((claimsOf rt front contentHash).map
          (·.evaluate rt trust index')).find? (·.Operative .possessionOrTrusted) = some first :=
        Option.isSome_iff_exists.mp (find?_isSome.mpr ⟨_, hself, decide_eq_true hoperative⟩)
      rw [honly first (mem_of_find?_eq_some hfirst)] at hfirst
      rw [hfirst, Option.some_or]
    split at hstatus
    · cases hstatus
    · rw [strongestFrom_of_operative hfind] at hstatus
      split at hstatus
      · rename_i htrust
        exact hfirm _ hlocalStands.mem htrust
      · cases hstatus

end Status

theorem isOperative_of_strict
    (h : projection.isOperativeSuppress rt contentHash trust .trustedStrict index = true) :
    projection.isOperativeSuppress rt contentHash trust .possessionOrTrusted index = true := by
  unfold ArtifactRemovalProjection.isOperativeSuppress
    ArtifactRemovalProjection.operativeStatus at h ⊢
  cases hclaims : projection[contentHash]? with
  | none => simp [hclaims, RemovalOperativeStatus.isOperative] at h
  | some claims =>
    simp only [hclaims] at h ⊢
    obtain ⟨c, hc, hvalid, hop⟩ := isOperative_strongestFrom.mp h
    refine isOperative_strongestFrom.mpr ⟨c, hc, hvalid, ?_⟩
    simp only [RemovalPolicy.operative] at hop ⊢
    rw [hop, Bool.or_true]

/-- The status is that of the strongest claim, in every order of the events, exactly when trust is
not shadowed; the strict policy suppresses no more than the default one in any case. -/
theorem strongest_claim_wins_iff {projection : ArtifactRemovalProjection V}
    {index : CosignatureIndex V}
    (hprojection : ArtifactRemovalProjection.fromEvents rt events = .ok projection)
    (hindex : CosignatureIndex.build rt events = .ok index) (hwriter : RecordBindsWriter rt events) :
    ((∃ status, StrongestClaim rt events trust policy contentHash status ∧
        ∀ events' : List (StoredEvent V), events'.Perm events →
          removalStatus rt events' contentHash trust policy = .ok status) ∧
      (projection.isOperativeSuppress rt contentHash trust .trustedStrict index = true →
        projection.isOperativeSuppress rt contentHash trust .possessionOrTrusted index = true)) ↔
    TrustNotShadowed rt events trust policy contentHash := by
  constructor
  · rintro ⟨⟨status, hstrongest, hperm⟩, -⟩
    exact trustNotShadowed_of_perm hindex hprojection hwriter hstrongest hperm
  · intro hcond
    refine ⟨?_, isOperative_of_strict⟩
    obtain ⟨status, -, hstrongest⟩ := removalStatus_strongest hindex hprojection hcond
    refine ⟨status, hstrongest, fun events' hperm => ?_⟩
    obtain ⟨index', hindex'⟩ := groupM_isOk_perm hperm hindex
    obtain ⟨projection', hprojection'⟩ := groupM_isOk_perm hperm hprojection
    obtain ⟨status', hstatus', hstrongest'⟩ := removalStatus_strongest hindex' hprojection'
      ((trustNotShadowed_perm hperm).mpr hcond)
    rw [hstatus', hstrongest.unique (hstrongest'.perm hperm)]

end Strongest

namespace StoreRecorded

def localRemoval : StoredEvent StorePayload :=
  event .artifactRemoved (ArtifactRemovedPayload.idempotencyKey (text "sha256:h"))
    (.wire (.artifactRemoved ⟨text "sha256:h"⟩))

/-- A removal of the same content from a mirror, by an actor that is its own key. Its key is not
`ArtifactRemovedPayload.idempotencyKey` of its hash: no validator compares the two, neither when
the record is imported nor when it is read, so the store keeps both records. -/
def signedRemoval : StoredEvent StorePayload :=
  let unsigned := { event .artifactRemoved (text "t:16:sha256:h mirror")
    (.wire (.artifactRemoved ⟨text "sha256:h"⟩)) with
      writer := { writer with actorId := ⟨signer.asStr⟩ }
      ingest := some { via := .ingestEvents, receivedAt := now } }
  { unsigned with
    signature := (EventToBeSigned.fromEvent unsigned.toShoreEvent signer).toOption.map fun tbs =>
      { alg := ED25519_SIGNATURE_ALG, sigVersion := EVENT_SIGNATURE_VERSION,
        sig := signatureOf signer
          (eventSignaturePreAuthenticationEncoding runtime.toStoreRuntime tbs) } }

theorem signedRemoval_stands : Stands runtime.toStoreRuntime [localRemoval, signedRemoval] {}
    (text "sha256:h") signedRemoval ∧
    verifyEventSignature runtime.toStoreRuntime signedRemoval {} = .valid := by
  have hvalid : verifyEventSignature runtime.toStoreRuntime signedRemoval {} = .valid := by
    decide +kernel
  exact ⟨⟨⟨by simp, rfl, rfl⟩, by rw [hvalid]; decide⟩, hvalid⟩

theorem removals_bind_writers :
    RecordBindsWriter runtime.toStoreRuntime [localRemoval, signedRemoval] := by
  have hdistinct : localRemoval.eventRecordHash runtime.toStoreRuntime ≠
      signedRemoval.eventRecordHash runtime.toStoreRuntime := by decide +kernel
  intro e he e' he' heq
  rcases mem_pair.mp he with rfl | rfl <;> rcases mem_pair.mp he' with rfl | rfl
  · rfl
  · exact absurd heq hdistinct
  · exact absurd heq.symm hdistinct
  · rfl

theorem removals_project : ∃ projection, ArtifactRemovalProjection.fromEvents
    runtime.toStoreRuntime [localRemoval, signedRemoval] = .ok projection := by
  refine groupM_isOk.mpr fun e he => ?_
  rcases mem_pair.mp he with rfl | rfl <;> exact ⟨_, readClaim_eq_ok.mpr ⟨rfl, rfl, rfl⟩⟩

theorem removals_index : ∃ index, CosignatureIndex.build runtime.toStoreRuntime
    [localRemoval, signedRemoval] = .ok index := by
  refine groupM_isOk.mpr fun e he => ⟨none, if_neg ?_⟩
  rcases mem_pair.mp he with rfl | rfl <;> exact EventType.noConfusion

theorem strict_removal_strongest : ∃ projection index,
    ArtifactRemovalProjection.fromEvents runtime.toStoreRuntime [localRemoval, signedRemoval] =
      .ok projection ∧
    CosignatureIndex.build runtime.toStoreRuntime [localRemoval, signedRemoval] = .ok index ∧
    RecordBindsWriter runtime.toStoreRuntime [localRemoval, signedRemoval] ∧
    (∃ status, StrongestClaim runtime.toStoreRuntime [localRemoval, signedRemoval] {} .trustedStrict
        (text "sha256:h") status ∧
      ∀ events' : List (StoredEvent StorePayload), events'.Perm [localRemoval, signedRemoval] →
        removalStatus runtime.toStoreRuntime events' (text "sha256:h") {} .trustedStrict =
          .ok status) := by
  obtain ⟨projection, hprojection⟩ := removals_project
  obtain ⟨index, hindex⟩ := removals_index
  obtain ⟨hstands, hvalid⟩ := signedRemoval_stands
  refine ⟨projection, index, hprojection, hindex, removals_bind_writers, ?_⟩
  refine ((strongest_claim_wins_iff hprojection hindex removals_bind_writers).mpr ?_).1
  intro _ _
  exact ⟨⟨signedRemoval, hstands, .inl hvalid⟩, fun h => RemovalPolicy.noConfusion h⟩

/-- The local claim first, and the removal is operative by possession only. -/
theorem local_claim_shadows :
    ¬ ∃ status, StrongestClaim runtime.toStoreRuntime [localRemoval, signedRemoval] {}
        .possessionOrTrusted (text "sha256:h") status ∧
      ∀ events' : List (StoredEvent StorePayload), events'.Perm [localRemoval, signedRemoval] →
        removalStatus runtime.toStoreRuntime events' (text "sha256:h") {} .possessionOrTrusted =
          .ok status := by
  rintro ⟨status, hstrongest, h⟩
  obtain ⟨hstands, hvalid⟩ := signedRemoval_stands
  obtain rfl := hstrongest.eq_trusted (by decide) hstands (.inl hvalid)
  have hpossession : (removalStatus runtime.toStoreRuntime [localRemoval, signedRemoval]
      (text "sha256:h") {} .possessionOrTrusted).toOption = some .operativePossession := by
    decide +kernel
  rw [h _ (.refl _)] at hpossession
  cases hpossession

end StoreRecorded

end Pointbreak
