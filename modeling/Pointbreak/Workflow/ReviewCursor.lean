import Pointbreak.Event.Recorded
import Pointbreak.Lib.JsonDecode
import Pointbreak.Projection.ChangeDocuments

/-!
# Workflow.ReviewCursor

The optimistic token over the graph of a Change, which cursors and operation plans carry and
recheck before an append. It is meant to go stale with the graph alone; the diagnostics it hashes
include one that review facts can raise.
-/

namespace Pointbreak

open Std KeyedLog Result

def graphTokenMaterial (change : ChangeView) : Json :=
  .obj [(text "changeId", change.changeId.toValue),
    (text "members", idSetValue change.members),
    (text "effectiveSupersedes", supersedesValue change.supersedes),
    (text "currentRevisions", idSetValue change.currentRevisions),
    (text "blockingDiagnostics", diagnosticsValue change.diagnostics)]

def changeGraphToken (sha : Sha256) (change : ChangeView) : Text :=
  sha256JsonPrefixed sha (graphTokenMaterial change)

structure ChangeGraphPreconditionV1 where
  changeId : ChangeId
  graphToken : Text

def graphPrecondition (sha : Sha256) (change : ChangeView) : ChangeGraphPreconditionV1 where
  changeId := change.changeId
  graphToken := changeGraphToken sha change

def validateGraphPrecondition (sha : Sha256) (projection : ChangeProjection)
    (expected : ChangeGraphPreconditionV1) : Result Unit :=
  match projection.changes[expected.changeId]? with
  | none => .error (.workflowInputInvalid (text "Change graph disappeared before append"))
  | some current =>
    Result.ensure (changeGraphToken sha current = expected.graphToken)
      (.workflowInputInvalid (text
        "Change graph changed after the operation was planned; refresh the exact cursor"))

/-- The check of a plan against the events now in the store, of which its own do not count; a plan
whose events are all there already has nothing left to append. -/
def validateGraphPreconditionValues {V : Type} (rt : Runtime V) (events : List (ShoreEvent V))
    (graphPreconditions : List ChangeGraphPreconditionV1) (plannedKeys : List Text) :
    Result Unit :=
  if graphPreconditions.isEmpty then .ok ()
  else if plannedKeys.all fun key => events.any fun event => event.idempotencyKey = key then .ok ()
  else do
    let projection ← projectChanges rt
      (events.filter fun event => event.idempotencyKey ∉ plannedKeys)
    graphPreconditions.forM (validateGraphPrecondition rt.sha256 projection)

theorem asStr_inj {a b : ChangeDiagnostic} (h : a.asStr = b.asStr) : a = b := by
  apply LawfulEqOrd.eq_of_compare
  rw [← ChangeDiagnostic.compare_asStr, h]
  exact ReflOrd.compare_self

theorem diagnosticsValue_canonical_inj {l l' : List ChangeDiagnostic}
    (h : (diagnosticsValue l).canonical = (diagnosticsValue l').canonical) : l = l' := by
  refine Json.arr_map_canonical_inj (fun a b hab => ?_) h
  rw [Json.canonical_str, Json.canonical_str, Json.str.injEq] at hab
  exact asStr_inj hab

theorem idSetValue_canonical_inj {kind : IdKind} {s s' : BTreeSet (Ident kind)}
    (h : (idSetValue s).canonical = (idSetValue s').canonical) : s = s' := by
  refine ExtTreeSet.toList_inj.mp (Json.arr_map_canonical_inj (fun a b hab => ?_) h)
  rwa [Ident.canonical_toValue, Ident.canonical_toValue, Ident.toValue_inj] at hab

theorem supersedesValue_canonical_inj {s s' : Supersedes}
    (h : (supersedesValue s).canonical = (supersedesValue s').canonical) : s = s' := by
  refine ExtTreeSet.toList_inj.mp (Json.arr_map_canonical_inj (fun a b hab => ?_) h)
  simp only [Json.canonical_arr, Json.canonicalItems, Ident.canonical_toValue, Json.arr.injEq,
    List.cons.injEq, Ident.toValue_inj, and_true] at hab
  exact Prod.ext hab.1 hab.2

/-- Where nothing collides, the token tells the graph and its diagnostics. -/
theorem graph_eq_of_token {sha : Sha256} {values : List Json} (hcf : CollisionFree sha values)
    {v v' : ChangeView} (hv : graphTokenMaterial v ∈ values) (hv' : graphTokenMaterial v' ∈ values)
    (h : changeGraphToken sha v = changeGraphToken sha v') :
    v.members = v'.members ∧ v.supersedes = v'.supersedes ∧
      v.currentRevisions = v'.currentRevisions ∧ v.diagnostics = v'.diagnostics := by
  have hf := Json.canonicalFields_of_canonical [text "changeId", text "members",
    text "effectiveSupersedes", text "currentRevisions", text "blockingDiagnostics"] rfl rfl
    (by decide +kernel) (hcf _ hv _ hv' h)
  simp only [Json.canonicalFields, List.cons.injEq, Prod.mk.injEq] at hf
  obtain ⟨-, ⟨-, hmembers⟩, ⟨-, hsupersedes⟩, ⟨-, hcurrent⟩, ⟨-, hdiagnostics⟩, -⟩ := hf
  exact ⟨idSetValue_canonical_inj hmembers, supersedesValue_canonical_inj hsupersedes,
    idSetValue_canonical_inj hcurrent, diagnosticsValue_canonical_inj hdiagnostics⟩

/-- Proposals of Revisions and claims of Changes. -/
def EventType.statesGraph : EventType → Bool
  | .workObjectProposed | .changeDeclared | .changeMembershipAsserted | .changeMembershipWithdrawn
  | .changeRevisionRelationAsserted | .changeRevisionRelationWithdrawn | .changeLinkAsserted => true
  | _ => false

section Frame

variable {V : Type} {rt : Runtime V} {E G : List (ShoreEvent V)} {c : ChangeId} {v : ChangeView}

theorem isReview_of_carries {e : ShoreEvent V} {f : ChangeProjectionFact}
    (he : e.eventType.statesGraph = false) (h : Carries rt e f) : f.isReview = true := by
  cases f with
  | assessment | operativeRequest | requestResponse | factPort => rfl
  | _ =>
    rw [h.1] at he
    cases he

variable (rt E) in
theorem sameGraph_facts_append (hG : ∀ e ∈ G, e.eventType.statesGraph = false) :
    SameGraph (facts rt E) (facts rt (E ++ G)) := by
  rw [facts_append]
  refine SameGraph.append_review fun f hf => ?_
  obtain ⟨e, he, hc⟩ := mem_facts.mp hf
  exact isReview_of_carries (hG e he) hc

variable (rt) in
def tokenMaterials (E : List (ShoreEvent V)) (c : ChangeId) : List Json :=
  ((changeView rt E c).map graphTokenMaterial).toList

/-- Readable review facts keep the Change, and what its token hashes but for the ambiguity. -/
theorem graphTokenMaterial_append (hv : changeView rt E c = some v)
    (hG : ∀ e ∈ G, e.eventType.statesGraph = false) (hr : Readable rt G)
    (hamb : Ambiguous (facts rt E) (lastOpening (facts rt E)) c ↔
      Ambiguous (facts rt (E ++ G)) (lastOpening (facts rt (E ++ G))) c) :
    ∃ v', changeView rt (E ++ G) c = some v' ∧ graphTokenMaterial v' = graphTokenMaterial v := by
  obtain ⟨P, hP, hc⟩ := changeView_eq_some.mp hv
  have hspec := projectChanges_spec hP
  have hvs := hspec.view c v hc
  have hg := sameGraph_facts_append rt E hG
  have hE := projectChanges_isOk.mp ⟨P, hP⟩
  obtain ⟨P', hP'⟩ := projectChanges_isOk.mpr (readable_append.mpr ⟨hE, hr⟩)
  have hspec' := projectChanges_spec hP'
  have hnamed : c ∈ P'.changes := by
    rw [hspec'.mem_changes, ← hg.named, ← hspec.mem_changes, BTreeMap.mem_iff]
    exact ⟨v, hc⟩
  obtain ⟨v', hc'⟩ := BTreeMap.mem_iff.mp hnamed
  have hvs' := hspec'.view c v' hc'
  refine ⟨v', changeView_eq_some.mpr ⟨P', hP', hc'⟩, ?_⟩
  obtain ⟨hm, hs, hcur⟩ := hvs.graph_eq hvs' (fun r => (hg.graph c).activeMember)
    (fun s p => (hg.graph c).effective)
  have hd := hvs.diagnostics_eq hvs' fun d => by
    by_cases hd : d = .operativeRequestResponseAmbiguous
    · subst hd
      exact hamb
    · exact (hg.graph c).diagnosed hd
  rw [graphTokenMaterial, graphTokenMaterial, hm, hs, hcur, hd, hvs.changeId, hvs'.changeId]

/-- Review facts leave the Change and its token as they are exactly when they can be read and do
not decide whether a request on an active member has several responses. -/
theorem changeGraphToken_append_iff (hv : changeView rt E c = some v)
    (hG : ∀ e ∈ G, e.eventType.statesGraph = false)
    (hcf : CollisionFree rt.sha256 (tokenMaterials rt E c ++ tokenMaterials rt (E ++ G) c)) :
    (∃ v', changeView rt (E ++ G) c = some v' ∧
      changeGraphToken rt.sha256 v' = changeGraphToken rt.sha256 v) ↔
    Readable rt G ∧ (Ambiguous (facts rt E) (lastOpening (facts rt E)) c ↔
      Ambiguous (facts rt (E ++ G)) (lastOpening (facts rt (E ++ G))) c) := by
  constructor
  · rintro ⟨v', hv', htok⟩
    obtain ⟨P, hP, hc⟩ := changeView_eq_some.mp hv
    obtain ⟨P', hP', hc'⟩ := changeView_eq_some.mp hv'
    have hvs := (projectChanges_spec hP).view c v hc
    have hvs' := (projectChanges_spec hP').view c v' hc'
    refine ⟨(readable_append.mp (projectChanges_isOk.mp ⟨P', hP'⟩)).2, ?_⟩
    obtain ⟨-, -, -, hd⟩ := graph_eq_of_token hcf (by simp [tokenMaterials, hv'])
      (by simp [tokenMaterials, hv]) htok
    have hamb : Diagnosed (facts rt E) c .operativeRequestResponseAmbiguous ↔
        Diagnosed (facts rt (E ++ G)) c .operativeRequestResponseAmbiguous := by
      rw [← hvs.diagnostics, ← hvs'.diagnostics, hd]
    exact hamb
  · rintro ⟨hr, hamb⟩
    obtain ⟨v', hv', hm⟩ := graphTokenMaterial_append hv hG hr hamb
    exact ⟨v', hv', by rw [changeGraphToken, changeGraphToken, hm]⟩

theorem validateGraphPrecondition_eq_ok {sha : Sha256} {P : ChangeProjection}
    {expected : ChangeGraphPreconditionV1} :
    validateGraphPrecondition sha P expected = .ok () ↔ ∃ v,
      P.changes[expected.changeId]? = some v ∧ changeGraphToken sha v = expected.graphToken := by
  rw [validateGraphPrecondition]
  split <;> simp [*]

theorem planned_valid {P : ChangeProjection} {views : List ChangeView} {keys : List Text}
    (hP : projectChanges rt E = .ok P)
    (hviews : ∀ v ∈ views, P.changes[v.changeId]? = some v)
    (hfresh : ∀ e ∈ E, e.idempotencyKey ∉ keys) :
    validateGraphPreconditionValues rt E (views.map (graphPrecondition rt.sha256)) keys =
      .ok () := by
  rw [validateGraphPreconditionValues]
  split_ifs
  · rfl
  · rfl
  · rw [List.filter_eq_self.mpr fun e he => decide_eq_true (hfresh e he)]
    refine bind_eq_ok.mpr ⟨P, hP, forM_eq_ok_iff.mpr fun p hp => ?_⟩
    obtain ⟨v, hv, rfl⟩ := List.mem_map.mp hp
    exact validateGraphPrecondition_eq_ok.mpr ⟨v, hviews v hv, rfl⟩

/-- A plan that was valid before its events were there stays valid while they come in, among readable
review facts that leave the ambiguity of its Changes as it is. -/
theorem interrupted_plan_valid {E' : List (ShoreEvent V)}
    {preconditions : List ChangeGraphPreconditionV1} {keys : List Text}
    (hplan : validateGraphPreconditionValues rt E preconditions keys = .ok ())
    (hfresh : ∀ e ∈ E, e.idempotencyKey ∉ keys)
    (hlater : E'.filter (fun e => e.idempotencyKey ∉ keys) = E ++ G)
    (hG : ∀ e ∈ G, e.eventType.statesGraph = false) (hr : Readable rt G)
    (hamb : ∀ p ∈ preconditions,
      (Ambiguous (facts rt E) (lastOpening (facts rt E)) p.changeId ↔
        Ambiguous (facts rt (E ++ G)) (lastOpening (facts rt (E ++ G))) p.changeId)) :
    validateGraphPreconditionValues rt E' preconditions keys = .ok () := by
  rw [validateGraphPreconditionValues] at hplan ⊢
  split_ifs with hnone hmissing
  · rfl
  · rfl
  rw [if_neg hnone] at hplan
  -- a key is missing from the later events, so there is one, and the earlier events lack it too
  have habsent : ¬ (keys.all fun key => E.any fun e => e.idempotencyKey = key) = true := by
    intro hall
    cases keys with
    | nil => exact hmissing rfl
    | cons key keys =>
      obtain ⟨e, he, hkey⟩ := List.any_eq_true.mp (List.all_eq_true.mp hall key (.head _))
      exact hfresh e he (of_decide_eq_true hkey ▸ .head _)
  rw [if_neg habsent, List.filter_eq_self.mpr fun e he => decide_eq_true (hfresh e he)] at hplan
  obtain ⟨P, hP, hvalid⟩ := bind_eq_ok.mp hplan
  obtain ⟨P', hP'⟩ := projectChanges_isOk.mpr
    (readable_append.mpr ⟨projectChanges_isOk.mp ⟨P, hP⟩, hr⟩)
  rw [hlater]
  refine bind_eq_ok.mpr ⟨P', hP', forM_eq_ok_iff.mpr fun p hp => ?_⟩
  obtain ⟨v, hv, htoken⟩ :=
    validateGraphPrecondition_eq_ok.mp (forM_eq_ok_iff.mp hvalid p hp)
  obtain ⟨v', hv', hsame⟩ :=
    graphTokenMaterial_append (changeView_eq_some.mpr ⟨P, hP, hv⟩) hG hr (hamb p hp)
  obtain ⟨_, hP'', hc⟩ := changeView_eq_some.mp hv'
  cases hP'.symm.trans hP''
  refine validateGraphPrecondition_eq_ok.mpr ⟨v', hc, ?_⟩
  rw [← htoken, changeGraphToken, changeGraphToken, hsame]

theorem not_ambiguous_of_countP {F : List ChangeProjectionFact}
    {counted : InputRequestId → Option RevisionId}
    (h : F.countP (fun f => f.responseEntry.isSome) ≤ 1) : ¬ Ambiguous F counted c := by
  rintro ⟨q, r, _, _, hq⟩
  have hle : responses F q ≤ F.countP (fun f => f.responseEntry.isSome) := by
    rw [responses, List.count]
    refine List.countP_mono_left fun f _ hf => ?_
    rw [eq_of_beq hf]
    rfl
  omega

end Frame

section SecondResponse

open Recorded

/-- A Change with a request on its member and one response to it. -/
def reviewed : List (ShoreEvent WirePayload) :=
  journal 1 [declared 1, proposed 1, member 1 1, opened 1 1, responded 1 1]

def secondResponse : List (ShoreEvent WirePayload) := [event 6 (responded 2 1)]

def assessmentOnly : List (ShoreEvent WirePayload) := [event 6 (assessed 1 1 .accepted [])]

def tokenValue (E : List (ShoreEvent WirePayload)) : Json :=
  ((changeView runtime E (change 1)).map graphTokenMaterial).getD .null

def tokenRuntime : Runtime WirePayload :=
  WirePayload.runtime (recordedSha (digests ++
    [(tokenValue reviewed, 0xebdb253dc6a922128f9b1f8135ef7dfb7017d507b29e1a0be9fd0bdf69de539a),
      (tokenValue (reviewed ++ secondResponse),
        0x9e1024b32438966b7e18d638d8d27a7f40be87263734c343bd1ed42940be6062)]))

theorem second_response_stales_token :
    (∀ e ∈ secondResponse, e.eventType.statesGraph = false) ∧
      (changeView tokenRuntime reviewed (change 1)).isSome = true ∧
      (changeView tokenRuntime (reviewed ++ secondResponse) (change 1)).isSome = true ∧
      (changeView tokenRuntime (reviewed ++ secondResponse) (change 1)).map
          (changeGraphToken tokenRuntime.sha256) ≠
        (changeView tokenRuntime reviewed (change 1)).map (changeGraphToken tokenRuntime.sha256) := by
  decide +kernel

/-- What the witnesses evaluate: the assessment is read, it states nothing about the graph, and there
is one response with it and without it. -/
theorem assessmentOnly_read :
    (changeView tokenRuntime reviewed (change 1)).isSome = true ∧
      (∀ e ∈ assessmentOnly, e.eventType.statesGraph = false) ∧
      Readable tokenRuntime assessmentOnly ∧
      (facts tokenRuntime reviewed).countP (fun f => f.responseEntry.isSome) ≤ 1 ∧
      (facts tokenRuntime (reviewed ++ assessmentOnly)).countP
        (fun f => f.responseEntry.isSome) ≤ 1 := by
  decide +kernel

theorem assessmentOnly_collisionFree :
    CollisionFree tokenRuntime.sha256 (tokenMaterials tokenRuntime reviewed (change 1) ++
      tokenMaterials tokenRuntime (reviewed ++ assessmentOnly) (change 1)) := by
  obtain ⟨hsome, hG, hr, hone, hone'⟩ := assessmentOnly_read
  obtain ⟨v, hv⟩ := Option.isSome_iff_exists.mp hsome
  obtain ⟨v', hv', hm⟩ := graphTokenMaterial_append hv hG hr
    (iff_of_false (not_ambiguous_of_countP hone) (not_ambiguous_of_countP hone'))
  simp [tokenMaterials, hv, hv', hm, CollisionFree]

theorem assessment_keeps_token :
    ∃ v, changeView tokenRuntime reviewed (change 1) = some v ∧
      (∀ e ∈ assessmentOnly, e.eventType.statesGraph = false) ∧
      ∃ v', changeView tokenRuntime (reviewed ++ assessmentOnly) (change 1) = some v' ∧
        changeGraphToken tokenRuntime.sha256 v' = changeGraphToken tokenRuntime.sha256 v := by
  obtain ⟨hsome, hG, hr, hone, hone'⟩ := assessmentOnly_read
  obtain ⟨v, hv⟩ := Option.isSome_iff_exists.mp hsome
  exact ⟨v, hv, hG, (changeGraphToken_append_iff hv hG assessmentOnly_collisionFree).mpr
    ⟨hr, iff_of_false (not_ambiguous_of_countP hone) (not_ambiguous_of_countP hone')⟩⟩

theorem interrupted_plan_resumes :
    validateGraphPreconditionValues tokenRuntime
      (reviewed ++ { event 7 (member 1 2) with idempotencyKey := text "a" } :: assessmentOnly)
      [⟨change 1, ((changeView tokenRuntime reviewed (change 1)).map
        (changeGraphToken tokenRuntime.sha256)).getD []⟩] [text "a", text "b"] = .ok () := by
  obtain ⟨-, hG, hr, hone, hone'⟩ := assessmentOnly_read
  exact interrupted_plan_valid (E := reviewed) (by decide +kernel) (by decide +kernel)
    (by decide +kernel) hG hr fun _ _ =>
      iff_of_false (not_ambiguous_of_countP hone) (not_ambiguous_of_countP hone')

end SecondResponse

end Pointbreak
