import Pointbreak.Projection.ChangeRefinement

/-!
# Projection.ChangeEvents

The projection of a list of events: which fact each event carries, when the whole list can be
read, and what the projection then holds for every Change.
-/

namespace Pointbreak

open Std KeyedLog ChangeProjectionFact BTreeMap Result List

variable {V : Type}

section Carries

variable (rt : Runtime V) (e : ShoreEvent V)

/-- The event carries the fact: its payload decodes and validates as the fact's family asks. -/
def Carries : ChangeProjectionFact → Prop
  | .revision r hash => e.eventType = .workObjectProposed ∧
      ∃ p, rt.workObjectProposed e.payload = .ok p ∧
        ∃ revision s, p.workObject = .revision revision hash s ∧ revision.id = r
  | .declaration c d => e.eventType = .changeDeclared ∧
      ∃ p, rt.changeDeclared e.payload = .ok p ∧ p.validate rt.sha256 = .ok () ∧
        p.changeId = c ∧ p.identityDescriptor = d
  | .membershipAsserted k c r => e.eventType = .changeMembershipAsserted ∧
      ∃ p, rt.changeMembershipAsserted e.payload = .ok p ∧ p.validate rt.sha256 = .ok () ∧
        p.membershipClaimId = k ∧ p.changeId = c ∧ p.revisionId = r
  | .membershipWithdrawn k => e.eventType = .changeMembershipWithdrawn ∧
      ∃ p, rt.changeMembershipWithdrawn e.payload = .ok p ∧ p.validate rt.sha256 = .ok () ∧
        p.membershipClaimId = k
  | .relationAsserted k c successor predecessor => e.eventType = .changeRevisionRelationAsserted ∧
      ∃ p, rt.changeRevisionRelationAsserted e.payload = .ok p ∧ p.validate rt.sha256 = .ok () ∧
        p.relationClaimId = k ∧ p.changeId = c ∧ p.successor = successor ∧
        p.predecessor = predecessor
  | .relationWithdrawn k => e.eventType = .changeRevisionRelationWithdrawn ∧
      ∃ p, rt.changeRevisionRelationWithdrawn e.payload = .ok p ∧
        p.validate rt.sha256 = .ok () ∧ p.relationClaimId = k
  | .linkAsserted k left right relation => e.eventType = .changeLinkAsserted ∧
      ∃ p, rt.changeLinkAsserted e.payload = .ok p ∧ p.validate rt.sha256 = .ok () ∧
        p.linkClaimId = k ∧ p.leftChangeId = left ∧ p.rightChangeId = right ∧
        p.relation = relation
  | .assessment source r a verdict replaces => e.eventType = .reviewAssessmentRecorded ∧
      e.eventId = source ∧
      ∃ p, rt.reviewAssessmentRecorded e.payload = .ok p ∧ p.target.revisionOf = r ∧
        p.assessmentId = a ∧ p.assessment = verdict ∧ p.replacesAssessmentIds = replaces
  | .operativeRequest q r => e.eventType = .inputRequestOpened ∧ e.assertionMode = .operative ∧
      ∃ p, decodeInputRequestOpenedPayload rt e.payload = .ok p ∧ p.taskTarget = none ∧
        p.inputRequestId = q ∧ p.target.revisionOf = r
  | .requestResponse q => e.eventType = .inputRequestResponded ∧
      ∃ p, rt.inputRequestResponded e.payload = .ok p ∧ p.inputRequestId = q
  | .factPort port => e.eventType = .reviewFactPorted ∧
      rt.reviewFactPorted e.payload = .ok port ∧ ∃ track, e.target.trackId = some track ∧
        port.validateAttribution rt.sha256 e.writer.actorId track = .ok ()

end Carries

variable {rt : Runtime V} {e : ShoreEvent V} {E : List (ShoreEvent V)} {f : ChangeProjectionFact}

theorem carries_of_extract (h : extractChangeProjectionFact rt e = .ok (some f)) :
    Carries rt e f := by
  unfold extractChangeProjectionFact at h
  split at h
  all_goals rename_i ht
  all_goals try simp only [bind_eq_ok, fromValue_eq_ok] at h
  · obtain ⟨p, hp, h⟩ := h
    split at h
    · cases h
      exact ⟨ht, p, hp, _, _, by assumption, rfl⟩
    · cases h
  -- the six claims about Changes, each validated
  iterate 6
    obtain ⟨p, hp, _, hv, h⟩ := h
    cases h
    exact ⟨ht, p, hp, hv, by simp⟩
  · obtain ⟨p, hp, h⟩ := h
    cases h
    exact ⟨ht, rfl, p, hp, rfl, rfl, rfl, rfl⟩
  · split at h
    · rename_i hm
      simp only [bind_eq_ok] at h
      obtain ⟨p, hp, h⟩ := h
      split at h
      · rename_i hn
        cases h
        exact ⟨ht, hm, p, hp, Option.isNone_iff_eq_none.mp hn, rfl, rfl⟩
      · cases h
    · cases h
  · obtain ⟨p, hp, h⟩ := h
    cases h
    exact ⟨ht, p, hp, rfl⟩
  · obtain ⟨p, hp, h⟩ := h
    split at h
    · cases h
    · rename_i track htrack
      simp only [bind_eq_ok] at h
      obtain ⟨_, hv, h⟩ := h
      cases h
      exact ⟨ht, hp, track, htrack, hv⟩
  -- the thirteen event types without effect on Changes
  all_goals cases h

theorem extractChangeProjectionFact_eq_some :
    extractChangeProjectionFact rt e = .ok (some f) ↔ Carries rt e f := by
  refine ⟨carries_of_extract, fun h => ?_⟩
  cases f with
  | revision r hash =>
    obtain ⟨ht, p, hp, revision, s, hs, rfl⟩ := h
    simp [extractChangeProjectionFact, ht, hp, hs]
  | declaration | membershipAsserted | membershipWithdrawn | relationAsserted | relationWithdrawn
  | linkAsserted =>
    obtain ⟨ht, p, hp, hv, h⟩ := h
    simp [extractChangeProjectionFact, ht, hp, hv, h]
  | assessment source r a verdict replaces =>
    obtain ⟨ht, rfl, p, hp, rfl, rfl, rfl, rfl⟩ := h
    simp [extractChangeProjectionFact, ht, hp]
  | operativeRequest q r =>
    obtain ⟨ht, hm, p, hp, hn, rfl, rfl⟩ := h
    simp [extractChangeProjectionFact, ht, hm, hp, hn]
  | requestResponse q =>
    obtain ⟨ht, p, hp, rfl⟩ := h
    simp [extractChangeProjectionFact, ht, hp]
  | factPort port =>
    obtain ⟨ht, hp, track, htrack, hv⟩ := h
    simp [extractChangeProjectionFact, ht, hp, htrack, hv]

variable (rt) in
def factOf (e : ShoreEvent V) : Option ChangeProjectionFact :=
  (extractChangeProjectionFact rt e).toOption.join

variable (rt) in
def facts (E : List (ShoreEvent V)) : List ChangeProjectionFact := E.filterMap (factOf rt)

variable (rt) in
def Readable (E : List (ShoreEvent V)) : Prop :=
  ∀ e ∈ E, (extractChangeProjectionFact rt e).isOk = true

instance : Decidable (Readable rt E) := inferInstanceAs (Decidable (∀ e ∈ E, _))

theorem factOf_eq_some : factOf rt e = some f ↔ Carries rt e f := by
  rw [← extractChangeProjectionFact_eq_some, factOf]
  cases extractChangeProjectionFact rt e <;> simp [Except.toOption]

theorem mem_facts : f ∈ facts rt E ↔ ∃ e ∈ E, Carries rt e f := by
  simp [facts, factOf_eq_some]

@[simp] theorem facts_append (E E' : List (ShoreEvent V)) :
    facts rt (E ++ E') = facts rt E ++ facts rt E' := by
  simp [facts]

variable (rt) in
theorem facts_filter (keep : Option ChangeProjectionFact → Bool) (E : List (ShoreEvent V)) :
    facts rt (E.filter fun e => keep (factOf rt e)) = (facts rt E).filter fun f => keep (some f) := by
  rw [facts, facts, filterMap_filter, filter_filterMap]
  refine filterMap_congr fun e _ => ?_
  cases factOf rt e with
  | none => simp
  | some f => simp [Option.filter]

variable {E' : List (ShoreEvent V)}

variable (rt) in
theorem facts_perm (h : E.Perm E') : (facts rt E).Perm (facts rt E') :=
  h.filterMap _

theorem Readable.perm (h : Readable rt E) (hp : E.Perm E') : Readable rt E' := by
  intro e he
  exact h e (hp.mem_iff.mpr he)

theorem readable_append : Readable rt (E ++ E') ↔ Readable rt E ∧ Readable rt E' := by
  simp [Readable, or_imp, forall_and]

variable {F : List ChangeProjectionFact}

theorem extractFacts_eq_ok : extractFacts rt E = .ok F ↔ Readable rt E ∧ facts rt E = F := by
  have hgather := @gather_eq_ok _ _ _ E _ (extractChangeProjectionFact rt) (fun _ fact => fact)
    (extractFacts rt) F rfl fun e E => by simp [extractFacts]
  simp only [Option.map_id'] at hgather
  exact hgather

theorem Carries.unique {f f' : ChangeProjectionFact} (h : Carries rt e f) (h' : Carries rt e f') :
    f = f' := by
  rw [← factOf_eq_some] at h h'
  exact Option.some.inj (h.symm.trans h')

theorem wellDeclared_facts (rt : Runtime V) (E : List (ShoreEvent V)) :
    WellDeclared (facts rt E) rt.sha256 := by
  intro c d h
  obtain ⟨e, -, -, p, -, hv, rfl, rfl⟩ := mem_facts.mp h
  simp only [ChangeDeclaredPayload.validate, bind_eq_ok, ensure_eq_ok,
    decide_eq_true_eq] at hv
  obtain ⟨_, -, _, -, derived, hd, _, rfl, -⟩ := hv
  exact hd

/-- What the projection of the facts holds. -/
structure Projects (F : List ChangeProjectionFact) (P : ChangeProjection) : Prop where
  mem_changes : ∀ c, c ∈ P.changes ↔ Named F c
  view : ∀ c v, P.changes[c]? = some v → ViewSpec F c v
  links : P.links = (foldFacts F).links.vals.insertionSort linkLE

variable {c : ChangeId}

theorem mem_changeIds : c ∈ (foldFacts F).changeIds ↔ Named F c := by
  have hdecl : (∃ ds, (foldFacts F).declarations[c]? = some ds) ↔ ∃ d, .declaration c d ∈ F := by
    rw [foldFacts_declarations]
    simp only [← mem_declarations]
    cases entries declarationEntry c F <;> simp
  simp only [FoldInput.changeIds, BTreeSet.mem_collect, mem_append, mem_map,
    mem_keys_iff, mem_vals_iff, or_assoc, foldFacts_memberships,
    foldFacts_relations]
  refine or_congr hdecl (or_congr ?_ ?_)
  · constructor
    · rintro ⟨m, ⟨k, hk⟩, hc⟩
      exact ⟨k, m.revisionId, by rw [lastMembership, hk, ← hc]⟩
    · rintro ⟨k, r, hk⟩
      exact ⟨_, ⟨k, hk⟩, rfl⟩
  · constructor
    · rintro ⟨m, ⟨k, hk⟩, hc⟩
      exact ⟨k, m.successor, m.predecessor, by rw [lastRelation, hk, ← hc]⟩
    · rintro ⟨k, s, p, hk⟩
      exact ⟨_, ⟨k, hk⟩, rfl⟩

theorem get_foldl_put_each {κ α : Type} [Ord κ] [TransOrd κ] [LawfulEqOrd κ] [DecidableEq κ]
    (value : κ → α) (ks : List κ) (m : BTreeMap κ α) (k : κ) :
    (ks.foldl (fun m k => m.insert k (value k)) m)[k]? =
      if k ∈ ks then some (value k) else m[k]? := by
  induction ks generalizing m with
  | nil => simp
  | cons k' ks ih =>
    rw [foldl_cons, ih, get_insert]
    by_cases hk : k' = k
    · simp [hk]
    · simp [hk, Ne.symm hk]

theorem projectChangesFromFacts_spec {sha : Sha256} (hw : WellDeclared F sha) :
    ∃ P, projectChangesFromFacts sha F = .ok P ∧ Projects F P := by
  choose view hview hspec using projectChange_spec hw
  have hget := get_foldl_put_each view (foldFacts F).changeIds.toList ∅
  generalize hchanges : List.foldl _ _ _ = changes at hget
  refine ⟨⟨changes, _⟩, ?_, fun c => ?_, fun c v h => ?_, rfl⟩
  · rw [projectChangesFromFacts, projectChangesFromInput, bind_eq_ok, ← hchanges]
    exact ⟨_, foldlM_eq_ok (fun changes c _ => by rw [hview]; rfl) ∅, rfl⟩
  · rw [mem_iff, hget, ← mem_changeIds, ← BTreeSet.mem_toList_iff]
    by_cases hc : c ∈ (foldFacts F).changeIds.toList <;> simp [hc]
  · rw [hget] at h
    split at h
    · cases h
      exact hspec c
    · simp at h

variable {P : ChangeProjection}

theorem projectChanges_eq_ok :
    projectChanges rt E = .ok P ↔
      Readable rt E ∧ projectChangesFromFacts rt.sha256 (facts rt E) = .ok P := by
  rw [projectChanges, bind_eq_ok]
  simp only [extractFacts_eq_ok]
  constructor
  · rintro ⟨_, ⟨hr, rfl⟩, h⟩
    exact ⟨hr, h⟩
  · rintro ⟨hr, h⟩
    exact ⟨_, ⟨hr, rfl⟩, h⟩

theorem projectChanges_isOk : (∃ P, projectChanges rt E = .ok P) ↔ Readable rt E := by
  simp only [projectChanges_eq_ok, exists_and_left]
  constructor
  · intro h
    exact h.1
  · intro h
    obtain ⟨P, hP, -⟩ := projectChangesFromFacts_spec (wellDeclared_facts rt E)
    exact ⟨h, P, hP⟩

theorem projectChanges_spec (h : projectChanges rt E = .ok P) : Projects (facts rt E) P := by
  obtain ⟨P', hP', hspec⟩ := projectChangesFromFacts_spec (wellDeclared_facts rt E)
  rw [(projectChanges_eq_ok.mp h).2] at hP'
  cases hP'
  exact hspec

theorem Named.of_activeMember {r : RevisionId} (h : ActiveMember F c r) : Named F c := by
  obtain ⟨⟨k, hk, -⟩, -⟩ := h
  exact .inr (.inl ⟨k, r, hk⟩)

theorem Projects.obliged_iff (h : Projects F P) {q : InputRequestId} :
    Obliged F (lastOpening F) c q ↔ ∃ v, P.changes[c]? = some v ∧ q ∈ v.operativeObligations := by
  constructor
  · intro ho
    have ⟨r, _, hr, _⟩ := ho
    obtain ⟨v, hv⟩ := mem_iff.mp ((h.mem_changes c).mpr (Named.of_activeMember hr))
    exact ⟨v, hv, ((h.view c v hv).obligations q).mpr ho⟩
  · rintro ⟨v, hv, hq⟩
    exact ((h.view c v hv).obligations q).mp hq

theorem Projects.qualified_iff (h : Projects F P) {r : RevisionId} (hr : CurrentMember F c r) :
    Qualified F r ↔ ∃ v, P.changes[c]? = some v ∧ r ∈ v.qualifiedCurrentRevisions := by
  constructor
  · intro hq
    obtain ⟨v, hv⟩ := mem_iff.mp ((h.mem_changes c).mpr (Named.of_activeMember hr.1))
    exact ⟨v, hv, ((h.view c v hv).qualified r).mpr ⟨hr, hq⟩⟩
  · rintro ⟨v, hv, hq⟩
    exact (((h.view c v hv).qualified r).mp hq).2

theorem Projects.ext {F F' : List ChangeProjectionFact} {P P' : ChangeProjection}
    (h : Projects F P) (h' : Projects F' P') (hn : ∀ c, Named F c ↔ Named F' c)
    (hv : ∀ c v v', ViewSpec F c v → ViewSpec F' c v' → v = v')
    (hl : (foldFacts F).links = (foldFacts F').links) : P = P' := by
  have hchanges : P.changes = P'.changes := by
    apply ExtTreeMap.ext_getElem?
    intro c
    have hmem : c ∈ P.changes ↔ c ∈ P'.changes := by
      rw [h.mem_changes, h'.mem_changes, hn]
    by_cases hin : c ∈ P.changes
    · obtain ⟨v, hc⟩ := mem_iff.mp hin
      obtain ⟨v', hc'⟩ := mem_iff.mp (hmem.mp hin)
      rw [hc, hc', hv c v v' (h.view c v hc) (h'.view c v' hc')]
    · rw [ExtTreeMap.getElem?_eq_none hin, ExtTreeMap.getElem?_eq_none (hmem.not.mp hin)]
  have hlinks : P.links = P'.links := by
    rw [h.links, h'.links, hl]
  cases P
  cases P'
  simp_all

variable (rt) in
def changeView (E : List (ShoreEvent V)) (c : ChangeId) : Option ChangeView :=
  (projectChanges rt E).toOption.bind fun P => P.changes[c]?

theorem changeView_eq_some {v : ChangeView} : changeView rt E c = some v ↔
    ∃ P, projectChanges rt E = .ok P ∧ P.changes[c]? = some v := by
  rw [changeView, Option.bind_eq_some_iff]
  simp only [toOption_eq_some]

theorem changeView_spec {v : ChangeView} (h : changeView rt E c = some v) :
    ViewSpec (facts rt E) c v := by
  obtain ⟨P, hP, hc⟩ := changeView_eq_some.mp h
  exact (projectChanges_spec hP).view c v hc

/-! ## Claim ids

A claim id hashes what its payload claims, so when the hashes of the claims at hand do not collide,
one id stands for one claim. -/

variable (rt) in
/-- The JSON values whose hashes name the Change or the claim of an event. -/
def hashedClaim (e : ShoreEvent V) : Option Json :=
  match e.eventType with
  | .changeDeclared =>
    (rt.changeDeclared e.payload).toOption.map fun p => p.identityDescriptor.toValue
  | .changeMembershipAsserted => (rt.changeMembershipAsserted e.payload).toOption.map (·.material)
  | .changeRevisionRelationAsserted =>
    (rt.changeRevisionRelationAsserted e.payload).toOption.map (·.material)
  | .changeLinkAsserted => (rt.changeLinkAsserted e.payload).toOption.map (·.material)
  | _ => none

variable (rt) in
def hashedClaims (E : List (ShoreEvent V)) : List Json := E.filterMap (hashedClaim rt)

/-- No claim id is used for two claims. -/
structure ClaimsAgree (F : List ChangeProjectionFact) : Prop where
  membership : Functional ChangeProjectionFact.membershipEntry F
  relation : Functional ChangeProjectionFact.relationEntry F
  link : Functional ChangeProjectionFact.linkEntry F

theorem claimsAgree_facts (h : CollisionFree rt.sha256 (hashedClaims rt E)) :
    ClaimsAgree (facts rt E) := by
  have hmem : ∀ e ∈ E, ∀ material, hashedClaim rt e = some material →
      material ∈ hashedClaims rt E := by
    intro e he material hm
    exact mem_filterMap.mpr ⟨e, he, hm⟩
  refine ⟨?_, ?_, ?_⟩
  all_goals
    intro k m hm m' hm'
    simp only [mem_entries, membershipEntry_eq_some,
      relationEntry_eq_some, linkEntry_eq_some,
      exists_eq_right, mem_facts] at hm hm'
    obtain ⟨e, he, ht, p, hp, hv, hk, hm⟩ := hm
    obtain ⟨e', he', ht', p', hp', hv', hk', hm'⟩ := hm'
    have hin := hmem e he
    have hin' := hmem e' he'
    simp only [hashedClaim, ht, ht', hp, hp', Except.toOption, Option.map_some, Option.some.injEq,
      forall_eq'] at hin hin'
    cases m
    cases m'
  · have heq := ChangeMembershipAssertedPayload.coordinates_eq h hv hv' hin hin' (hk.trans hk'.symm)
    simp_all
  · have heq :=
      ChangeRevisionRelationAssertedPayload.coordinates_eq h hv hv' hin hin' (hk.trans hk'.symm)
    simp_all
  · have heq := ChangeLinkAssertedPayload.coordinates_eq h hv hv' hin hin' (hk.trans hk'.symm)
    simp_all

theorem descriptor_eq (h : CollisionFree rt.sha256 (hashedClaims rt E))
    {d d' : ChangeIdentityDescriptorV1} (hd : .declaration c d ∈ facts rt E)
    (hd' : .declaration c d' ∈ facts rt E) : d = d' := by
  have hmem : ∀ {d}, .declaration c d ∈ facts rt E →
      d.toValue ∈ hashedClaims rt E ∧ c = ⟨prefixedHash rt.sha256 IdPrefix.CHANGE d.toValue⟩ := by
    intro d hd
    have hid := wellDeclared_facts rt E c d hd
    obtain ⟨e, he, ht, p, hp, hv, rfl, rfl⟩ := mem_facts.mp hd
    refine ⟨mem_filterMap.mpr ⟨e, he, ?_⟩, (deriveChangeId_eq_ok.mp hid).2⟩
    simp [hashedClaim, ht, hp, Except.toOption]
  obtain ⟨hm, hc⟩ := hmem hd
  obtain ⟨hm', hc'⟩ := hmem hd'
  rw [hc', Ident.mk.injEq] at hc
  exact (ChangeIdentityDescriptorV1.toValue_canonical_inj (h.of_prefixedHash hm' hm hc)).symm

end Pointbreak
