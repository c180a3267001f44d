import Pointbreak.Lib.BTree
import Pointbreak.Lib.Json

/-!
# Model.Ids

Identifiers are strings tagged with what they name, so that one kind cannot be used for another;
they are compared and ordered by their text. The prefixes are those minted into derived ids.
-/

namespace Pointbreak

open Std List

/-- What an identifier names. -/
inductive IdKind where
  | journal | event | revision | change
  | changeDeclarationClaim | changeMembershipClaim | changeMembershipWithdrawal
  | changeLinkClaim | changeRevisionRelationClaim | changeRevisionRelationWithdrawal
  | reviewFactPort | actor | track | observation
  | inputRequest | inputRequestResponse | assessment | workObject | checkpoint
  | object | engagement | validationCheck
  | commitAssociation | commitWithdrawal | refAssociation | refWithdrawal
  | revisionRelationAttestation | signer

structure Ident (kind : IdKind) where
  asStr : Text
deriving DecidableEq

namespace Ident

variable {kind : IdKind}

instance : Ord (Ident kind) := ⟨fun a b => compare a.asStr b.asStr⟩

instance : TransOrd (Ident kind) where
  eq_swap {a b} := OrientedOrd.eq_swap (a := a.asStr) (b := b.asStr)
  isLE_trans {a b c} h h' := TransOrd.isLE_trans (a := a.asStr) (b := b.asStr) (c := c.asStr) h h'

instance : LawfulEqOrd (Ident kind) where
  eq_of_compare {a b} h := by
    cases a
    cases b
    congr
    exact LawfulEqOrd.eq_of_compare h

instance {kind' : IdKind} : Ord (Ident kind × Ident kind') := lexOrd

instance {kind' : IdKind} : TransOrd (Ident kind × Ident kind') :=
  inferInstanceAs (TransCmp (compareLex (compareOn Prod.fst) (compareOn Prod.snd)))

instance {kind' : IdKind} : LawfulEqOrd (Ident kind × Ident kind') :=
  inferInstanceAs (LawfulEqCmp lexOrd.compare)

/-- The JSON form: the bare string. -/
def toValue (id : Ident kind) : Json := .str id.asStr

@[simp] theorem canonical_toValue (id : Ident kind) : id.toValue.canonical = id.toValue := by
  rw [toValue, Json.canonical_str]

@[simp] theorem toValue_inj {a b : Ident kind} : a.toValue = b.toValue ↔ a = b := by
  constructor
  · intro h
    cases a
    cases b
    simpa [toValue] using h
  · intro h
    rw [h]

end Ident

abbrev JournalId := Ident .journal
abbrev EventId := Ident .event
abbrev RevisionId := Ident .revision
abbrev ChangeId := Ident .change
abbrev ChangeDeclarationClaimId := Ident .changeDeclarationClaim
abbrev ChangeMembershipClaimId := Ident .changeMembershipClaim
abbrev ChangeMembershipWithdrawalId := Ident .changeMembershipWithdrawal
abbrev ChangeLinkClaimId := Ident .changeLinkClaim
abbrev ChangeRevisionRelationClaimId := Ident .changeRevisionRelationClaim
abbrev ChangeRevisionRelationWithdrawalId := Ident .changeRevisionRelationWithdrawal
abbrev ReviewFactPortId := Ident .reviewFactPort
abbrev ActorId := Ident .actor
abbrev TrackId := Ident .track
abbrev ObservationId := Ident .observation
abbrev InputRequestId := Ident .inputRequest
abbrev InputRequestResponseId := Ident .inputRequestResponse
abbrev AssessmentId := Ident .assessment
abbrev WorkObjectId := Ident .workObject
abbrev CheckpointId := Ident .checkpoint
abbrev ObjectId := Ident .object
abbrev EngagementId := Ident .engagement
abbrev ValidationCheckId := Ident .validationCheck
abbrev CommitAssociationId := Ident .commitAssociation
abbrev CommitWithdrawalId := Ident .commitWithdrawal
abbrev RefAssociationId := Ident .refAssociation
abbrev RefWithdrawalId := Ident .refWithdrawal
abbrev RevisionRelationAttestationId := Ident .revisionRelationAttestation
/-- An Ed25519 key as a `did:key`. -/
abbrev SignerId := Ident .signer

namespace IdPrefix

def CHANGE : Text := text "change"
def CHANGE_DECLARATION : Text := text "change-declaration"
def CHANGE_MEMBERSHIP : Text := text "change-membership"
def CHANGE_MEMBERSHIP_WITHDRAWAL : Text := text "change-membership-withdrawal"
def CHANGE_LINK : Text := text "change-link"
def CHANGE_REVISION_RELATION : Text := text "change-revision-relation"
def CHANGE_REVISION_RELATION_WITHDRAWAL : Text := text "change-revision-relation-withdrawal"
def REVIEW_FACT_PORT : Text := text "fact-port"
def REVISION_RELATION_ATTESTATION : Text := text "relation-attestation"

end IdPrefix

inductive EventVerificationStatus where
  | valid | invalid | untrustedKey | unsigned
deriving DecidableEq

/-- What a reader says about an encoding that is no longer supported. -/
structure SchemaBreakRecord where
  retired : Text
  brokenAt : Text
  anchor : Text
deriving DecidableEq

/-- The errors the modelled functions return. -/
inductive ShoreError where
  | message (text : Text)
  | json (text : Text)
  | invalidEvent (message : Text)
  | workflowInputInvalid (reason : Text)
  | unsupportedEventSchemaVersion (schema : Text) (version : Nat)
  | unsupportedEventType (record : SchemaBreakRecord)
  | unsupportedEventEnvelope (record : SchemaBreakRecord)
  | eventVerificationRejected (eventId : EventId) (status : EventVerificationStatus)
deriving DecidableEq

abbrev Result (α : Type) : Type := Except ShoreError α

namespace Result

def ensure (check : Bool) (error : ShoreError) : Result Unit :=
  if check then .ok () else .error error

@[simp] theorem ensure_eq_ok {check : Bool} {error : ShoreError} {u : Unit} :
    ensure check error = .ok u ↔ check = true := by
  cases check <;> simp [ensure]

def okOr {α : Type} (value : Option α) (error : ShoreError) : Result α :=
  match value with
  | some a => .ok a
  | none => .error error

@[simp] theorem okOr_eq_ok {α : Type} {value : Option α} {error : ShoreError} {a : α} :
    okOr value error = .ok a ↔ value = some a := by
  cases value <;> simp [okOr]

@[simp] theorem bind_eq_ok {ε α β : Type} {x : Except ε α} {f : α → Except ε β} {b : β} :
    (x >>= f) = .ok b ↔ ∃ a, x = .ok a ∧ f a = .ok b := by
  cases x <;> simp [bind, Except.bind]

theorem forM_eq_ok_iff {α : Type} {f : α → Result Unit} {l : List α} {u : Unit} :
    l.forM f = .ok u ↔ ∀ a ∈ l, f a = .ok () := by
  induction l with
  | nil => exact iff_of_true rfl nofun
  | cons a l ih =>
    rw [List.forM, bind_eq_ok, forall_mem_cons, ← ih]
    constructor
    · rintro ⟨_, ha, hl⟩
      exact ⟨ha, hl⟩
    · rintro ⟨ha, hl⟩
      exact ⟨(), ha, hl⟩

theorem toOption_eq_some {ε α : Type} {x : Except ε α} {a : α} :
    x.toOption = some a ↔ x = .ok a := by
  cases x <;> simp [Except.toOption]

variable {ε α β : Type} {f : α → Except ε β} {l : List α}

theorem mapM_eq_ok {g : α → β} (h : ∀ a ∈ l, f a = .ok (g a)) : l.mapM f = .ok (l.map g) := by
  induction l with
  | nil => rfl
  | cons a l ih =>
    rw [mapM_cons, h a (.head _), ih fun b hb => h b (.tail _ hb)]
    rfl

variable {l' : List β}

theorem forall₂_of_mapM (h : l.mapM f = .ok l') : List.Forall₂ (fun a b => f a = .ok b) l l' := by
  induction l generalizing l' with
  | nil =>
    cases h
    exact .nil
  | cons a l ih =>
    rw [mapM_cons] at h
    simp only [bind_eq_ok] at h
    obtain ⟨b, hb, bs, hbs, h⟩ := h
    cases h
    exact .cons hb (ih hbs)

theorem mapM_eq_ok_iff :
    l.mapM f = .ok l' ↔
      (∀ a ∈ l, ∃ b, f a = .ok b) ∧ l' = l.filterMap fun a => (f a).toOption := by
  induction l generalizing l' with
  | nil => simp [pure, Except.pure, eq_comm]
  | cons a l ih =>
    rw [mapM_cons, forall_mem_cons]
    simp only [bind_eq_ok, ih]
    constructor
    · rintro ⟨b, hb, bs, ⟨hall, rfl⟩, h⟩
      cases h
      exact ⟨⟨⟨b, hb⟩, hall⟩, by rw [filterMap_cons, hb]; rfl⟩
    · rintro ⟨⟨⟨b, hb⟩, hall⟩, rfl⟩
      refine ⟨b, hb, _, ⟨hall, rfl⟩, ?_⟩
      rw [filterMap_cons, hb]
      rfl

theorem mapM_spec (h : l.mapM f = .ok l') :
    l'.length = l.length ∧ ∀ b ∈ l', ∃ a ∈ l, f a = .ok b := by
  refine ⟨(forall₂_of_mapM h).length_eq.symm, ?_⟩
  obtain ⟨-, rfl⟩ := mapM_eq_ok_iff.mp h
  simp [toOption_eq_some]

theorem exists_of_mem_mapM (h : l.mapM f = .ok l') {a : α} (ha : a ∈ l) :
    ∃ b ∈ l', f a = .ok b := by
  obtain ⟨hall, rfl⟩ := mapM_eq_ok_iff.mp h
  obtain ⟨b, hb⟩ := hall a ha
  exact ⟨b, mem_filterMap.mpr ⟨a, ha, toOption_eq_some.mpr hb⟩, hb⟩

theorem gather_eq_ok {γ : Type} {read : α → Except ε (Option β)} {wrap : α → β → γ}
    {run : List α → Except ε (List γ)} {found : List γ} (hnil : run [] = .ok [])
    (hcons : ∀ a l, run (a :: l) = read a >>= fun x => run l >>= fun xs =>
      .ok (x.toList.map (wrap a) ++ xs)) :
    run l = .ok found ↔ (∀ a ∈ l, (read a).isOk = true) ∧
      l.filterMap (fun a => (read a).toOption.join.map (wrap a)) = found := by
  induction l generalizing found with
  | nil => simp [hnil]
  | cons a l ih =>
    rw [hcons, forall_mem_cons, filterMap_cons]
    cases read a with
    | error _ => simp [Except.isOk, Except.toBool]
    | ok x =>
      simp only [bind_eq_ok, ih, Except.ok.injEq, exists_eq_left', and_assoc, exists_and_left]
      cases x <;> simp [Except.toOption, Except.isOk, Except.toBool]

theorem mapError_eq_ok {ε ε' α : Type} {x : Except ε α} {f : ε → ε'} {a : α} :
    x.mapError f = .ok a ↔ x = .ok a := by
  cases x <;> simp [Except.mapError]

/-! What a computation returns can be looked at. -/

instance {ε α : Type} {P : α → Prop} [DecidablePred P] :
    (x : Except ε α) → Decidable (∃ a, x = .ok a ∧ P a)
  | .ok a => decidable_of_iff (P a) (by simp)
  | .error _ => .isFalse (by simp)

instance {ε α : Type} [DecidableEq α] {a : α} : (x : Except ε α) → Decidable (x = .ok a)
  | .ok b => decidable_of_iff (b = a) (by simp)
  | .error _ => .isFalse (by simp)

instance {ε α : Type} : (x : Except ε α) → Decidable (∃ e, x = .error e)
  | .ok _ => .isFalse (by simp)
  | .error e => .isTrue ⟨e, rfl⟩

instance {ε α : Type} {P : ε → Prop} [DecidablePred P] :
    (x : Except ε α) → Decidable (∃ e, x = .error e ∧ P e)
  | .ok _ => .isFalse (by simp)
  | .error e => decidable_of_iff (P e) (by simp)

instance {α : Type} {P : α → Prop} [DecidablePred P] :
    (o : Option α) → Decidable (∃ a, o = some a ∧ P a)
  | some a => decidable_of_iff (P a) (by simp)
  | none => .isFalse (by simp)

end Result

end Pointbreak
