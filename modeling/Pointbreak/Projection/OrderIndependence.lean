import Pointbreak.Event.Recorded
import Pointbreak.Projection.ChangeDocuments

/-!
# Projection.OrderIndependence

Whether the order of the events can be seen. Sets, counts and least event ids cannot see it, nor can
claims as long as their ids do not collide. A request id that is opened on several Revisions can:
the last opening counts.
-/

namespace Pointbreak

open Std KeyedLog ChangeProjectionFact List

/-- One Revision for each request id, among those it is opened on. -/
structure Reading (F : List ChangeProjectionFact)
    (counted : InputRequestId → Option RevisionId) : Prop where
  opened : ∀ q r, counted q = some r → .operativeRequest q r ∈ F
  total : ∀ q r, .operativeRequest q r ∈ F → ∃ r', counted q = some r'

/-- Whichever opening of each request counts, the same requests oblige the same Changes. -/
def OpeningsImmaterial (F : List ChangeProjectionFact) : Prop :=
  ∀ counted counted', Reading F counted → Reading F counted' →
    ∀ c q, Obliged F counted c q ↔ Obliged F counted' c q

section Facts

variable {F F' : List ChangeProjectionFact}

theorem reading_lastOpening (F : List ChangeProjectionFact) : Reading F (lastOpening F) where
  opened q r h := mem_openings.mp (mem_of_getLast? h)
  total q r h := by
    have hne := ne_nil_of_mem (mem_openings.mpr h)
    exact ⟨_, getLast?_eq_some_getLast hne⟩

variable {counted : InputRequestId → Option RevisionId}

theorem Reading.perm (hp : F.Perm F') (h : Reading F counted) : Reading F' counted where
  opened q r hr := hp.mem_iff.mp (h.opened q r hr)
  total q r hr := h.total q r (hp.mem_iff.mpr hr)

theorem responses_perm (hp : F.Perm F') (q : InputRequestId) : responses F q = responses F' q :=
  hp.count_eq _

/-- The source event of an assessment names it. -/
def SourcesIdentify (F : List ChangeProjectionFact) : Prop :=
  ∀ r a, ∀ u ∈ entries ChangeProjectionFact.assessmentEntry (r, a) F,
    ∀ v ∈ entries ChangeProjectionFact.assessmentEntry (r, a) F, u.1 = v.1 → u = v

theorem obliged_perm (hp : F.Perm F') (h : ClaimsAgree F) {c : ChangeId} {q : InputRequestId} :
    Obliged F counted c q ↔ Obliged F' counted c q :=
  ((SameGraph.of_mem_iff h fun _ => hp.mem_iff).graph c).obliged (responses_perm hp q)
    fun _ => by simp only [CarriedTo, hp.mem_iff]

theorem OpeningsImmaterial.perm (hp : F.Perm F') (h : ClaimsAgree F) (hi : OpeningsImmaterial F)
    (c : ChangeId) (q : InputRequestId) :
    Obliged F (lastOpening F) c q ↔ Obliged F' (lastOpening F') c q := by
  have hread := (reading_lastOpening F').perm hp.symm
  rw [hi _ _ (reading_lastOpening F) hread c q]
  exact obliged_perm hp h

theorem openingsImmaterial_of_functional (h : Functional ChangeProjectionFact.requestEntry F) :
    OpeningsImmaterial F := by
  intro counted counted' hc hc' c q
  have heq : counted = counted' := by
    funext q
    apply Option.ext
    have hle : ∀ {counted counted'}, Reading F counted → Reading F counted' →
        ∀ r, counted q = some r → counted' q = some r := by
      intro counted counted' hc hc' r hr
      obtain ⟨r', hr'⟩ := hc'.total q r (hc.opened q r hr)
      rw [hr', h q r' (mem_openings.mpr (hc'.opened q r' hr')) r
        (mem_openings.mpr (hc.opened q r hr))]
    intro r
    exact ⟨hle hc hc' r, hle hc' hc r⟩
  rw [heq]

end Facts

section Realise

variable {V : Type} {rt : Runtime V} {E : List (ShoreEvent V)}
  (counted : InputRequestId → Option RevisionId)

def isCounted : ChangeProjectionFact → Bool
  | .operativeRequest q r => counted q = some r
  | _ => false

variable (rt) in
def countedLast (E : List (ShoreEvent V)) : List (ShoreEvent V) :=
  E.filter (fun e => !(factOf rt e).any (isCounted counted)) ++
    E.filter (fun e => (factOf rt e).any (isCounted counted))

variable (rt E) in
theorem countedLast_perm : (countedLast rt counted E).Perm E := by
  refine perm_append_comm.trans ?_
  exact filter_append_perm _ E

/-- Every reading is the one some order of the events gives. -/
theorem lastOpening_countedLast {counted : InputRequestId → Option RevisionId}
    (h : Reading (facts rt E) counted) :
    lastOpening (facts rt (countedLast rt counted E)) = counted := by
  funext q
  have hfacts : facts rt (countedLast rt counted E) =
      (facts rt E).filter (fun f => !isCounted counted f) ++
        (facts rt E).filter (isCounted counted) := by
    rw [countedLast, facts_append, facts_filter rt (fun f => !f.any (isCounted counted)),
      facts_filter rt (fun f => f.any (isCounted counted))]
    rfl
  rw [lastOpening, hfacts, entries_append, getLast?_append]
  have hlast : ∀ r, r ∈ entries requestEntry q
      ((facts rt E).filter (isCounted counted)) ↔ counted q = some r := by
    intro r
    rw [mem_openings, mem_filter]
    constructor
    · rintro ⟨_, hr⟩
      exact of_decide_eq_true hr
    · intro hr
      exact ⟨h.opened q r hr, decide_eq_true hr⟩
  cases hq : counted q with
  | none =>
    have hnone : ∀ F : List ChangeProjectionFact, F ⊆ facts rt E →
        entries requestEntry q F = [] := by
      intro F hF
      refine eq_nil_iff_forall_not_mem.mpr fun r hr => ?_
      obtain ⟨r', hr'⟩ := h.total q r (hF (mem_openings.mp hr))
      rw [hq] at hr'
      cases hr'
    rw [hnone _ filter_sublist.subset, hnone _ filter_sublist.subset]
    rfl
  | some r =>
    have hne := ne_nil_of_mem ((hlast r).mpr hq)
    have hr := (hlast _).mp (getLast_mem hne)
    rw [hq] at hr
    rw [getLast?_eq_some_getLast hne, ← Option.some.inj hr]
    rfl

end Realise

section Events

variable {V : Type} {rt : Runtime V} {E : List (ShoreEvent V)}

theorem sourcesIdentify_facts (hids : (E.map (·.eventId)).Nodup) :
    SourcesIdentify (facts rt E) := by
  have hcarrier : ∀ {r a u}, u ∈ entries assessmentEntry (r, a) (facts rt E) →
      ∃ e ∈ E, Carries rt e (.assessment u.1 r a u.2.assessment u.2.replaces) ∧
        e.eventId = u.1 ∧ u.2.assessmentId = a := by
    intro r a u hu
    obtain ⟨f, hf, he⟩ := mem_entries.mp hu
    obtain ⟨rfl, ha⟩ := assessmentEntry_eq_some.mp he
    obtain ⟨e, he, hc⟩ := mem_facts.mp hf
    exact ⟨e, he, hc, hc.2.1, ha⟩
  intro r a u hu v hv huv
  obtain ⟨e, he, hc, hid, ha⟩ := hcarrier hu
  obtain ⟨e', he', hc', hid', ha'⟩ := hcarrier hv
  have hee : e = e' := inj_on_of_nodup_map hids he he' (by rw [hid, hid', huv])
  subst hee
  have hf := hc.unique hc'
  rw [ChangeProjectionFact.assessment.injEq] at hf
  obtain ⟨source, id, verdict, replaces⟩ := u
  obtain ⟨source', id', verdict', replaces'⟩ := v
  simp_all

theorem toOption_of_not_readable (h : ¬ Readable rt E) :
    (projectChanges rt E).toOption = none := by
  cases hP : projectChanges rt E with
  | error _ => rfl
  | ok P => exact absurd (projectChanges_isOk.mp ⟨P, hP⟩) h

theorem projectChanges_perm (hids : (E.map (·.eventId)).Nodup)
    (hagree : ClaimsAgree (facts rt E)) (h : Readable rt E → OpeningsImmaterial (facts rt E))
    {E' : List (ShoreEvent V)} (hp : E'.Perm E) :
    (projectChanges rt E').toOption = (projectChanges rt E).toOption := by
  by_cases hr : Readable rt E
  · obtain ⟨P, hP⟩ := projectChanges_isOk.mpr hr
    obtain ⟨P', hP'⟩ := projectChanges_isOk.mpr (hr.perm hp.symm)
    have hfacts := facts_perm rt hp.symm
    have ho := (h hr).perm hfacts hagree
    have hPP : P = P' := by
      refine (projectChanges_spec hP).eq_of_sameGraph (projectChanges_spec hP')
        (SameGraph.of_mem_iff hagree fun _ => hfacts.mem_iff) ?_ ho ?_
      · intro c r _
        refine qualified_congr fun a => ?_
        exact leastOf_congr (fun _ => (entries_perm hfacts).mem_iff) (sourcesIdentify_facts hids r a)
      · intro c
        rw [ambiguous_iff_obliged, ambiguous_iff_obliged]
        simp only [ho, responses_perm hfacts]
    rw [hP, hP', hPP]
  · rw [toOption_of_not_readable hr, toOption_of_not_readable fun hr' => hr (hr'.perm hp)]

/-- When the list cannot be told from its permutations, no reading of the openings matters. -/
theorem openingsImmaterial_of_perm (hagree : ClaimsAgree (facts rt E)) (hr : Readable rt E)
    (h : ∀ E', E'.Perm E → (projectChanges rt E').toOption = (projectChanges rt E).toOption) :
    OpeningsImmaterial (facts rt E) := by
  intro counted counted' hc hc' c q
  obtain ⟨P, hP⟩ := projectChanges_isOk.mpr hr
  -- every reading is realised by an order, and that order has the projection of `E`
  have hlast : ∀ {counted}, Reading (facts rt E) counted →
      (Obliged (facts rt E) counted c q ↔
        ∃ v, P.changes[c]? = some v ∧ q ∈ v.operativeObligations) := by
    intro counted hc
    have hproj := h _ (countedLast_perm rt E counted)
    rw [Result.toOption_eq_some.mpr hP, Result.toOption_eq_some] at hproj
    have hobliged := (projectChanges_spec hproj).obliged_iff (c := c) (q := q)
    rw [lastOpening_countedLast hc] at hobliged
    rw [obliged_perm (facts_perm rt (countedLast_perm rt E counted).symm) hagree, hobliged]
  rw [hlast hc, hlast hc']

/-- The order of the events cannot be seen in the projection, nor in the documents, exactly when
the list cannot be read at all or no reading of the openings matters. -/
theorem projectChanges_perm_iff (rt : Runtime V) (E : List (ShoreEvent V))
    (hids : (E.map (·.eventId)).Nodup) (hcf : CollisionFree rt.sha256 (hashedClaims rt E)) :
    (∀ E', E'.Perm E →
      (projectChanges rt E').toOption = (projectChanges rt E).toOption ∧
      (projectChangeDocuments rt E').toOption = (projectChangeDocuments rt E).toOption) ↔
    (Readable rt E → OpeningsImmaterial (facts rt E)) := by
  have hagree := claimsAgree_facts hcf
  constructor
  · intro h hr
    exact openingsImmaterial_of_perm hagree hr fun E' hp => (h E' hp).1
  · intro h E' hp
    have heq := projectChanges_perm hids hagree h hp
    exact ⟨heq, (projectChangeDocuments_perm hp.symm hagree heq.symm).symm⟩

end Events

section Contested

open Recorded

/-- An accepted Change, and one request opened on its member and on a foreign Revision. -/
def contested : List (ShoreEvent WirePayload) :=
  journal 1 [declared 1, proposed 1, member 1 1, assessed 1 1 .accepted [], opened 1 1, opened 1 2]

def contestedSwapped : List (ShoreEvent WirePayload) :=
  journal 1 [declared 1, proposed 1, member 1 1, assessed 1 1 .accepted []] ++
    [event 6 (opened 1 2), event 5 (opened 1 1)]

theorem contested_order_decides :
    contestedSwapped.Perm contested ∧ (contested.map (·.eventId)).Nodup ∧
      CollisionFree sha (hashedClaims runtime contested) ∧
      (changeView runtime contested (change 1)).map (·.lifecycle) = some .accepted ∧
      (changeView runtime contestedSwapped (change 1)).map (·.lifecycle) = some .inProgress :=
  ⟨by decide +kernel, by decide +kernel, collisionFree_of_nodup (by decide +kernel),
    by decide +kernel, by decide +kernel⟩

def settled : List (ShoreEvent WirePayload) :=
  journal 1 [declared 1, proposed 1, member 1 1, assessed 1 1 .accepted [], opened 1 1]

def settledStamp : Json :=
  match projectChanges runtime settled with
  | .ok semantic =>
    stampMaterial semantic ((claimProvenance (documentFacts runtime settled)).document sha semantic)
  | .error _ => .null

def settledRuntime : Runtime WirePayload :=
  WirePayload.runtime (recordedSha (digests ++
    [(settledStamp, 0xa5022f8e64c567f662415dd7d1a87fe921a31cad4d128bc658888dc433c740dc)]))

theorem settled_order_free :
    (settled.map (·.eventId)).Nodup ∧
      CollisionFree settledRuntime.sha256 (hashedClaims settledRuntime settled) ∧
      ∀ E', E'.Perm settled →
        (projectChanges settledRuntime E').toOption =
          (projectChanges settledRuntime settled).toOption ∧
        (projectChangeDocuments settledRuntime E').toOption =
          (projectChangeDocuments settledRuntime settled).toOption := by
  have hids : (settled.map (·.eventId)).Nodup := by decide +kernel
  have hcf : CollisionFree settledRuntime.sha256 (hashedClaims settledRuntime settled) :=
    collisionFree_of_nodup (by decide +kernel)
  refine ⟨hids, hcf, (projectChanges_perm_iff settledRuntime settled hids hcf).mpr ?_⟩
  intro _
  exact openingsImmaterial_of_functional (by decide +kernel)

end Contested

end Pointbreak
