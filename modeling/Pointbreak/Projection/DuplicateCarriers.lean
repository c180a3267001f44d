import Pointbreak.Event.Recorded
import Pointbreak.Projection.ChangeAgreement

/-!
# Projection.DuplicateCarriers

What a second carrier of a payload changes. Most families reach the view as sets. Three do not:
responses are counted by carrier, the last opening of a request counts, and the assessment record
with the lowest event id stays.
-/

namespace Pointbreak

open Std KeyedLog ChangeProjectionFact SameGraph List

variable {q : InputRequestId} {r : RevisionId} {source : EventId} {a : AssessmentId}
  {verdict : ReviewAssessment} {replaces : List AssessmentId}

section Append

variable {F : List ChangeProjectionFact} {f : ChangeProjectionFact}

theorem entries_append_none {κ α : Type} [DecidableEq κ]
    {sel : ChangeProjectionFact → Option (κ × α)} {k : κ} (h : sel f = none) :
    entries sel k (F ++ [f]) = entries sel k F := by
  rw [entries_append, entries_cons_none h, entries_nil, append_nil]

theorem entries_append_some {κ α : Type} [DecidableEq κ]
    {sel : ChangeProjectionFact → Option (κ × α)} {k k' : κ} {v : α} (h : sel f = some (k', v)) :
    entries sel k (F ++ [f]) =
      if k' = k then entries sel k F ++ [v] else entries sel k F := by
  rw [entries_append, entries_cons_some h, entries_nil]
  split
  · rfl
  · rw [append_nil]

theorem lastOpening_append (h : f.requestEntry = none) :
    lastOpening (F ++ [f]) = lastOpening F := by
  funext q
  rw [lastOpening, lastOpening, entries_append_none h]

theorem lastOpening_append_request :
    lastOpening (F ++ [.operativeRequest q r]) =
      Function.update (lastOpening F) q (some r) := by
  funext q'
  rw [lastOpening, entries_append_some rfl, Function.update_apply]
  by_cases hq : q' = q
  · simp [hq]
  · simp [hq, Ne.symm hq, lastOpening]

theorem responses_append (h : f.responseEntry = none) (q : InputRequestId) :
    responses (F ++ [f]) q = responses F q := by
  rw [← length_responses, ← length_responses, entries_append_none h]

theorem responses_append_response (q q' : InputRequestId) :
    responses (F ++ [.requestResponse q]) q' = responses F q' + if q = q' then 1 else 0 := by
  rw [← length_responses, ← length_responses, entries_append_some rfl]
  split <;> simp

theorem assessmentRecord_append (h : f.assessmentEntry = none) (r : RevisionId)
    (a : AssessmentId) : assessmentRecord (F ++ [f]) r a = assessmentRecord F r a := by
  rw [assessmentRecord, assessmentRecord, entries_append_none h]

theorem assessmentRecord_append_assessment :
    assessmentRecord (F ++ [.assessment source r a verdict replaces]) r =
      Function.update (assessmentRecord F r) a
        (some (least compare (assessmentRecord F r a) (source, ⟨a, verdict, replaces⟩))) := by
  funext b
  rw [assessmentRecord, entries_append_some rfl, Function.update_apply]
  by_cases hb : b = a
  · subst hb
    rw [if_pos rfl, if_pos rfl, leastOf_append_singleton, assessmentRecord]
  · rw [if_neg (by simp [Ne.symm hb]), if_neg hb, assessmentRecord]

theorem carriedTo_append (h : f.portEntry = none ∨ f ∈ F)
    {counted : InputRequestId → Option RevisionId} {t : RevisionId} :
    CarriedTo (F ++ [f]) counted q t ↔ CarriedTo F counted q t := by
  have hmem : ∀ port, .factPort port ∈ F ++ [f] ↔ .factPort port ∈ F := by
    intro port
    rw [mem_append, mem_singleton, or_iff_left_of_imp]
    rintro rfl
    obtain h | h := h
    · cases h
    · exact h
  simp only [CarriedTo, hmem]

end Append

section OneMore

variable {F : List ChangeProjectionFact} {P P' : ChangeProjection}

theorem append_known_eq {f : ChangeProjectionFact} (hP : Projects F P)
    (hP' : Projects (F ++ [f]) P') (h : ClaimsAgree F) (hf : f ∈ F)
    (hass : f.assessmentEntry = none) (hreq : f.requestEntry = none)
    (hresp : f.responseEntry = none) : P = P' := by
  have hg : SameGraph F (F ++ [f]) := by
    refine of_mem_iff h fun g => ?_
    rw [mem_append, mem_singleton, or_iff_left_of_imp]
    rintro rfl
    exact hf
  refine hP.eq_of_sameGraph hP' hg ?_ ?_ ?_
  · intro c r _
    exact qualified_congr fun a => (assessmentRecord_append hass r a).symm
  · intro c q
    rw [lastOpening_append hreq]
    exact (hg.graph c).obliged (responses_append hresp q).symm
      fun t => (carriedTo_append (.inr hf)).symm
  · intro c
    rw [lastOpening_append hreq]
    exact (hg.graph c).ambiguous fun q => (responses_append hresp q).symm

/-- A second carrier of a response discharges nothing new, but ends the discharge by the first. -/
theorem append_response_iff (hP : Projects F P) (hP' : Projects (F ++ [.requestResponse q]) P')
    (hf : .requestResponse q ∈ F) :
    P = P' ↔ (responses F q = 1 → ∀ c r, lastOpening F q = some r → ¬ ActiveMember F c r) := by
  have hg : SameGraph F (F ++ [.requestResponse q]) :=
    append_review (by simp [isReview])
  have hpos : 0 < responses F q := count_pos_iff.mpr hf
  have hcarry : ∀ q' t, CarriedTo (F ++ [.requestResponse q]) (lastOpening F) q' t ↔
      CarriedTo F (lastOpening F) q' t := fun q' t => carriedTo_append (.inl rfl)
  have hopen : lastOpening (F ++ [.requestResponse q]) = lastOpening F := lastOpening_append rfl
  constructor
  · intro heq hone c r hr hm
    subst heq
    have hnow : Obliged (F ++ [.requestResponse q]) (lastOpening F) c q := by
      refine ⟨r, hr, (hg.graph c).activeMember.mp hm, .inl ?_⟩
      rw [responses_append_response, if_pos rfl, hone]
    rw [← hopen, hP'.obliged_iff, ← hP.obliged_iff] at hnow
    obtain ⟨_, _, _, hresp⟩ := hnow
    omega
  · intro h
    have ho : ∀ c q', Obliged F (lastOpening F) c q' ↔
        Obliged (F ++ [.requestResponse q]) (lastOpening F) c q' := by
      intro c q'
      by_cases hq : q = q'
      · subst hq
        constructor
        · rintro ⟨r, hr, hm, hn⟩
          refine ⟨r, hr, (hg.graph c).activeMember.mp hm, .inl ?_⟩
          rw [responses_append_response, if_pos rfl]
          omega
        · rintro ⟨r, hr, hm, _⟩
          have hm' := (hg.graph c).activeMember.mpr hm
          have hone : responses F q ≠ 1 := fun hone => h hone c r hr hm'
          exact ⟨r, hr, hm', .inl (by omega)⟩
      · refine (hg.graph c).obliged ?_ fun t => (hcarry q' t).symm
        rw [responses_append_response, if_neg hq]
        rfl
    refine hP.eq_of_sameGraph hP' hg ?_ ?_ ?_
    · intro c r _
      exact qualified_congr fun a => (assessmentRecord_append rfl r a).symm
    · intro c q'
      rw [hopen]
      exact ho c q'
    · intro c
      rw [hopen, ambiguous_iff_obliged, ambiguous_iff_obliged]
      simp only [← ho]
      refine exists_congr fun q' => and_congr_right fun hob => ?_
      obtain ⟨_, _, _, hn⟩ := hob
      rw [responses_append_response]
      split
      · rename_i hq
        subst hq
        omega
      · rfl

/-- A further opening moves the request to its Revision. -/
theorem append_request_iff (hP : Projects F P) (hP' : Projects (F ++ [.operativeRequest q r]) P') :
    P = P' ↔ ∀ c q', Obliged F (lastOpening F) c q' ↔
      Obliged F (Function.update (lastOpening F) q (some r)) c q' := by
  have hg : SameGraph F (F ++ [.operativeRequest q r]) :=
    append_review (by simp [isReview])
  have ho : ∀ counted c q', Obliged (F ++ [.operativeRequest q r]) counted c q' ↔
      Obliged F counted c q' := by
    intro counted c q'
    exact ((hg.graph c).obliged (responses_append rfl q').symm
      fun t => (carriedTo_append (.inl rfl)).symm).symm
  have hresp : ∀ q', responses (F ++ [.operativeRequest q r]) q' = responses F q' :=
    fun q' => responses_append rfl q'
  rw [← lastOpening_append_request]
  constructor
  · intro heq c q'
    subst heq
    rw [hP.obliged_iff, ← hP'.obliged_iff, ho]
  · intro h
    refine hP.eq_of_sameGraph hP' hg ?_ ?_ ?_
    · intro c r' _
      exact qualified_congr fun a => (assessmentRecord_append rfl r' a).symm
    · intro c q'
      rw [ho, h]
    · intro c
      rw [ambiguous_iff_obliged, ambiguous_iff_obliged]
      simp only [ho, h, hresp]

/-- A further carrier of an assessment matters when its event id is the lowest and the record it
installs changes the qualification of a current Revision. -/
theorem append_assessment_iff (hP : Projects F P)
    (hP' : Projects (F ++ [.assessment source r a verdict replaces]) P') :
    P = P' ↔ ∀ c, CurrentMember F c r → (Qualified F r ↔
      QualifiedBy (Function.update (assessmentRecord F r) a
        (some (least compare (assessmentRecord F r a) (source, ⟨a, verdict, replaces⟩))))) := by
  have hg : SameGraph F (F ++ [.assessment source r a verdict replaces]) :=
    append_review (by simp [isReview])
  rw [← assessmentRecord_append_assessment]
  constructor
  · intro heq c hr
    subst heq
    rw [hP.qualified_iff hr, ← hP'.qualified_iff ((hg.graph c).currentMember.mp hr), Qualified]
  · intro h
    refine hP.eq_of_sameGraph hP' hg ?_ ?_ ?_
    · intro c r' hr'
      by_cases hrr : r = r'
      · subst hrr
        exact h c hr'
      · refine qualified_congr fun b => ?_
        rw [assessmentRecord, assessmentRecord, entries_append_some rfl, if_neg (by simp [hrr])]
    · intro c q
      rw [lastOpening_append rfl]
      exact (hg.graph c).obliged (responses_append rfl q).symm
        fun t => (carriedTo_append (.inl rfl)).symm
    · intro c
      rw [lastOpening_append rfl]
      exact (hg.graph c).ambiguous fun q => (responses_append rfl q).symm

end OneMore

section Carriers

variable {V : Type} {rt : Runtime V} {E : List (ShoreEvent V)} {e e' : ShoreEvent V}

/-- When one more carrier of this fact leaves the projection as it is. -/
def CarrierHarmless (F : List ChangeProjectionFact) : ChangeProjectionFact → Prop
  | .requestResponse q =>
    responses F q = 1 → ∀ c r, lastOpening F q = some r → ¬ ActiveMember F c r
  | .operativeRequest q r => ∀ c q', Obliged F (lastOpening F) c q' ↔
      Obliged F (Function.update (lastOpening F) q (some r)) c q'
  | .assessment source r a verdict replaces => ∀ c, CurrentMember F c r → (Qualified F r ↔
      QualifiedBy (Function.update (assessmentRecord F r) a
        (some (least compare (assessmentRecord F r a) (source, ⟨a, verdict, replaces⟩)))))
  | _ => True

section Repeated

variable {F : List ChangeProjectionFact}

/-- A repeated opening is harmless when the request was opened on that Revision only. -/
theorem CarrierHarmless.opening (hopen : .operativeRequest q r ∈ F)
    (hone : ∀ r', .operativeRequest q r' ∈ F → r' = r) :
    CarrierHarmless F (.operativeRequest q r) := by
  intro c q'
  rw [← lastOpening_of_unique hopen hone, Function.update_eq_self]

theorem QualifiedBy.of_records {records records' : AssessmentId → Option (EventId × ChangeAssessmentFact)}
    (h : ∀ b, (records b).map Prod.snd = (records' b).map Prod.snd) (hq : QualifiedBy records) :
    QualifiedBy records' := by
  have hget : ∀ {x y : AssessmentId → Option (EventId × ChangeAssessmentFact)},
      (∀ b, (x b).map Prod.snd = (y b).map Prod.snd) → ∀ {b v}, x b = some v →
        ∃ w, y b = some w ∧ w.2 = v.2 := by
    intro x y hxy b v hv
    have hb := hxy b
    rw [hv, Option.map_some] at hb
    exact Option.map_eq_some_iff.mp hb.symm
  have hreplaced : ∀ b, ReplacedBy records' b → ReplacedBy records b := by
    rintro b ⟨other, v, hv, hmem⟩
    obtain ⟨w, hw, heq⟩ := hget (fun b => (h b).symm) hv
    exact ⟨other, w, hw, heq ▸ hmem⟩
  obtain ⟨a, v, hv, hnot, haccepting, honly⟩ := hq
  obtain ⟨w, hw, heq⟩ := hget h hv
  refine ⟨a, w, hw, fun hr => hnot (hreplaced a hr), heq ▸ haccepting, fun b u hu hb => ?_⟩
  obtain ⟨u', hu', -⟩ := hget (fun b => (h b).symm) hu
  refine honly b u' hu' fun hr => hb ?_
  obtain ⟨other, x, hx, hmem⟩ := hr
  obtain ⟨y, hy, heq⟩ := hget h hx
  exact ⟨other, y, hy, heq ▸ hmem⟩

/-- A repeated assessment is harmless when all carriers of its id agree on what it says. -/
theorem CarrierHarmless.assessment {first : EventId}
    (hmem : .assessment first r a verdict replaces ∈ F)
    (hone : ∀ other verdict' replaces', .assessment other r a verdict' replaces' ∈ F →
      verdict' = verdict ∧ replaces' = replaces) :
    CarrierHarmless F (.assessment source r a verdict replaces) := by
  have hcontent : ∀ v ∈ entries assessmentEntry (r, a) F, v.2 = ⟨a, verdict, replaces⟩ := by
    rintro ⟨other, fact⟩ hv
    obtain ⟨f, hf, hentry⟩ := mem_entries.mp hv
    obtain ⟨rfl, rfl⟩ := assessmentEntry_eq_some.mp hentry
    obtain ⟨hverdict, hreplaces⟩ := hone _ _ _ hf
    rw [← hverdict, ← hreplaces]
  obtain ⟨kept, hkept⟩ : ∃ kept, assessmentRecord F r a = some kept := by
    rw [← Option.ne_none_iff_exists', assessmentRecord, Ne, leastOf_eq_none]
    exact ne_nil_of_mem (mem_entries.mpr ⟨_, hmem, rfl⟩)
  have hsame : kept.2 = ⟨a, verdict, replaces⟩ := hcontent kept (leastOf_spec hkept).1
  have hrecords : ∀ b, (assessmentRecord F r b).map Prod.snd =
      (Function.update (assessmentRecord F r) a (some (least compare (assessmentRecord F r a)
        (source, ⟨a, verdict, replaces⟩))) b).map Prod.snd := by
    intro b
    rw [Function.update_apply]
    split
    · rename_i hb
      rw [hb, hkept, Option.map_some, Option.map_some, hsame, least]
      split
      · rfl
      · rw [hsame]
    · rfl
  intro c _
  exact ⟨QualifiedBy.of_records hrecords, QualifiedBy.of_records fun b => (hrecords b).symm⟩

end Repeated

theorem projectChanges_append_error (h : ¬ Readable rt E) (E' : List (ShoreEvent V)) :
    projectChanges rt (E ++ E') = projectChanges rt E := by
  have hextract : extractFacts rt (E ++ E') = extractFacts rt E := by
    induction E with
    | nil => exact absurd (by simp [Readable]) h
    | cons e E ih =>
      rw [cons_append, extractFacts, extractFacts]
      cases he : extractChangeProjectionFact rt e with
      | error _ => rfl
      | ok fact =>
        have hE : ¬ Readable rt E := by
          intro hE
          refine h fun e' he' => ?_
          obtain rfl | he' := mem_cons.mp he'
          · rw [he]
            rfl
          · exact hE e' he'
        rw [ih hE]
  rw [projectChanges, projectChanges, hextract]

theorem carries_port_of_isOk (h : (extractChangeProjectionFact rt e).isOk = true)
    (ht : e.eventType = .reviewFactPorted) {port : ReviewFactPortedPayload}
    (hp : rt.reviewFactPorted e.payload = .ok port) : Carries rt e (.factPort port) := by
  rw [← extractChangeProjectionFact_eq_some]
  rw [extractChangeProjectionFact, ht, fromValue_eq_ok.mpr hp] at h ⊢
  cases htrack : e.target.trackId with
  | none =>
    rw [htrack] at h
    cases h
  | some track =>
    rw [htrack] at h
    cases hv : port.validateAttribution rt.sha256 e.writer.actorId track with
    | error err =>
      simp only [hv, bind, Except.bind] at h
      cases h
    | ok u => simp only [hv, bind, Except.bind]

theorem mem_facts_of_carrier (he : e ∈ E) (hr : Readable rt E)
    (htype : e'.eventType = e.eventType) (hpayload : e'.payload = e.payload)
    {f : ChangeProjectionFact} (hf : Carries rt e' f) (hreq : f.requestEntry = none)
    (hass : f.assessmentEntry = none) : f ∈ facts rt E := by
  refine mem_facts.mpr ⟨e, he, ?_⟩
  cases f with
  | assessment => cases hass
  | operativeRequest => cases hreq
  | factPort port =>
    -- the actor may differ, but the first carrier passed the check of its own attribution
    obtain ⟨ht, hp, -⟩ := hf
    rw [htype] at ht
    rw [hpayload] at hp
    exact carries_port_of_isOk (hr e he) ht hp
  | _ =>
    simp only [Carries, htype, hpayload] at hf
    exact hf

/-- A second carrier of a payload leaves the projection as it is exactly when the list could not be
read before either, or the carrier can be read and its fact is harmless. -/
theorem projectChanges_carrier_iff (he : e ∈ E) (htype : e'.eventType = e.eventType)
    (hpayload : e'.payload = e.payload) (hcf : CollisionFree rt.sha256 (hashedClaims rt E)) :
    projectChanges rt (E ++ [e']) = projectChanges rt E ↔
      (Readable rt E → Readable rt [e'] ∧ ∀ f, Carries rt e' f → CarrierHarmless (facts rt E) f) := by
  by_cases hr : Readable rt E
  · obtain ⟨P, hP⟩ := projectChanges_isOk.mpr hr
    have hspec := projectChanges_spec hP
    rw [hP]
    by_cases hr' : Readable rt [e']
    · obtain ⟨P', hP'⟩ := projectChanges_isOk.mpr (readable_append.mpr ⟨hr, hr'⟩)
      have hspec' := projectChanges_spec hP'
      have hone : facts rt [e'] = (factOf rt e').toList := by
        rw [facts, filterMap_cons]
        cases factOf rt e' <;> rfl
      rw [facts_append, hone] at hspec'
      rw [hP', Except.ok.injEq, eq_comm]
      simp only [hr, hr', true_and, true_imp_iff, ← factOf_eq_some]
      cases hf : factOf rt e' with
      | none =>
        have hsame := (projectChanges_eq_ok.mp hP').2
        rw [facts_append, hone, hf, Option.toList_none, append_nil,
          (projectChanges_eq_ok.mp hP).2] at hsame
        simp [Except.ok.inj hsame]
      | some f =>
        rw [hf, Option.toList_some] at hspec'
        have hc := factOf_eq_some.mp hf
        simp only [Option.some.injEq, forall_eq']
        have hknown := @mem_facts_of_carrier _ _ _ _ _ he hr htype hpayload f hc
        cases f with
        | requestResponse q => exact append_response_iff hspec hspec' (hknown rfl rfl)
        | operativeRequest q r => exact append_request_iff hspec hspec'
        | assessment source r a verdict replaces => exact append_assessment_iff hspec hspec'
        | _ =>
          simp only [CarrierHarmless, iff_true]
          exact append_known_eq hspec hspec' (claimsAgree_facts hcf) (hknown rfl rfl) rfl rfl rfl
    · constructor
      · intro h
        exact absurd (readable_append.mp (projectChanges_isOk.mp ⟨P, h⟩)).2 hr'
      · intro h
        exact absurd (h hr).1 hr'
  · rw [projectChanges_append_error hr]
    simp [hr]

end Carriers

section Twice

open Recorded

def answered : List (ShoreEvent WirePayload) :=
  journal 1 [declared 1, proposed 1, member 1 1, assessed 1 1 .accepted [], opened 1 1,
    responded 1 1]

def secondCarrier : ShoreEvent WirePayload := event 7 (responded 1 1)

theorem second_response_carrier_reopens :
    (∃ e ∈ answered, secondCarrier.eventType = e.eventType ∧ secondCarrier.target = e.target ∧
      secondCarrier.payload = e.payload ∧ secondCarrier.idempotencyKey ≠ e.idempotencyKey ∧
      secondCarrier.eventId ≠ e.eventId) ∧
    (changeView runtime answered (change 1)).map (fun v => (v.lifecycle, v.diagnostics)) =
      some (.accepted, []) ∧
    (changeView runtime (answered ++ [secondCarrier]) (change 1)).map
      (fun v => (v.lifecycle, v.diagnostics)) =
        some (.inProgress, [.operativeRequestResponseAmbiguous]) := by
  refine ⟨⟨event 6 (responded 1 1), ?_, ?_⟩, ?_, ?_⟩
  · simp [answered, journal]
  · decide +kernel
  · decide +kernel
  · decide +kernel

def secondMembership : ShoreEvent WirePayload := event 7 (member 1 1)

theorem second_membership_carrier_harmless :
    event 3 (member 1 1) ∈ answered ∧
      secondMembership.eventType = (event 3 (member 1 1)).eventType ∧
      secondMembership.payload = (event 3 (member 1 1)).payload ∧
      CollisionFree sha (hashedClaims runtime answered) ∧
      projectChanges runtime (answered ++ [secondMembership]) = projectChanges runtime answered := by
  have he : event 3 (member 1 1) ∈ answered := by simp [answered, journal]
  have htype : secondMembership.eventType = (event 3 (member 1 1)).eventType := rfl
  have hpayload : secondMembership.payload = (event 3 (member 1 1)).payload := rfl
  have hcf : CollisionFree sha (hashedClaims runtime answered) :=
    collisionFree_of_nodup (by decide +kernel)
  refine ⟨he, htype, hpayload, hcf, (projectChanges_carrier_iff he htype hpayload hcf).mpr ?_⟩
  intro _
  refine ⟨by decide +kernel, ?_⟩
  intro f hf
  cases f with
  | requestResponse => cases hf.1
  | operativeRequest => cases hf.1
  | assessment => cases hf.1
  | _ => trivial

end Twice

end Pointbreak
