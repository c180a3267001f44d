import Pointbreak.Lib.Base64
import Pointbreak.Workflow.CursorToken

/-!
# Workflow.CursorFreshness

How long a review cursor passes. The check before a write compares the token of the graph and selects
the cursor again; `review_cursor_fresh_iff` says on which events both succeed.
-/

namespace Pointbreak

open Std KeyedLog ChangeProjectionFact BTreeSet Result

variable {reference : RevisionRefV1} {references : List RevisionRefV1}

section References

variable {V : Type} {rt : Runtime V} {E : List (ShoreEvent V)} {r : RevisionId}

theorem mem_revisions {D : List ChangeDocumentProjectionFact} {hash : Text} :
    hash ∈ (claimProvenance D).revisions[r]?.getD ∅ ↔ .revision r hash ∈ D.map (·.change) := by
  refine (mem_foldl (fun (input : ClaimProvenanceInput) (entry : RevisionId × Text) =>
    entry.2 ∈ input.revisions[entry.1]?.getD ∅) ClaimProvenanceInput.step
    (fun fact => fact.change.revisionEntry) ?_ D {} (r, hash)).trans ?_
  · intro input fact ⟨r, hash⟩
    cases hfact : fact.change with
    | revision proposed proposedHash =>
      simp only [ClaimProvenanceInput.step, hfact, revisionEntry,
        BTreeMap.get_alter, Option.some.injEq, Prod.mk.injEq]
      by_cases hr : proposed = r
      · subst hr
        rw [if_pos rfl, Option.getD_some, mem_insert_iff, or_comm, eq_comm, eq_self,
          true_and]
      · simp [hr]
    | _ => simp [ClaimProvenanceInput.step, hfact, revisionEntry]
  · simp only [revisionEntry_eq_some, List.mem_map]
    exact or_iff_right (by simp)

theorem get_revisionRefs {input : ClaimProvenanceInput} {sha : Sha256}
    {semantic : ChangeProjection} :
    (input.document sha semantic).revisionRefs[r]? = some references ↔
      ∃ hashes, input.revisions[r]? = some hashes ∧ revisionRefsOf r hashes = .ok references := by
  have hget : (input.document sha semantic).revisionRefs[r]? =
      input.revisions[r]?.bind fun hashes => (revisionRefsOf r hashes).toOption := by
    refine get_foldl_toList Prod.fst (fun r hashes => (revisionRefsOf r hashes).toOption) ?_
      input.revisions (∅, ∅) r (by simp)
    intro maps entry
    rw [revisionRefStep]
    cases revisionRefsOf entry.1 entry.2 <;> rfl
  simp only [hget, Option.bind_eq_some_iff, toOption_eq_some]

theorem revisionRefsOf_eq_singleton {hashes : BTreeSet Text} :
    revisionRefsOf r hashes = .ok [reference] ↔
      reference.revisionId = r ∧ hashes.toList = [reference.objectArtifactContentHash] := by
  have hmap : hashes.toList.mapM (RevisionRefV1.new r) = .ok [reference] ↔
      reference.revisionId = r ∧ hashes.toList = [reference.objectArtifactContentHash] := by
    cases hashes.toList with
    | nil => simp [pure, Except.pure]
    | cons hash rest =>
      simp only [List.mapM_cons, bind_eq_ok, RevisionRefV1.new_eq_ok, pure, Except.pure,
        Except.ok.injEq, List.cons.injEq]
      constructor
      · rintro ⟨_, ⟨hr, rfl⟩, rest', hrest, rfl, rfl⟩
        refine ⟨hr, rfl, ?_⟩
        exact List.length_eq_zero_iff.mp (mapM_spec hrest).1.symm
      · rintro ⟨hr, rfl, rfl⟩
        exact ⟨reference, ⟨hr, rfl⟩, [], rfl, rfl, rfl⟩
  rw [revisionRefsOf]
  by_cases hinitial : r.hasRevPrefix = true
  · rw [if_neg (by simp [hinitial]), ← hmap]
    cases hashes.toList.mapM (RevisionRefV1.new r) <;> simp [Except.mapError]
  · rw [if_pos (by simpa using hinitial)]
    refine iff_of_false (by simp) ?_
    rintro ⟨rfl, -⟩
    exact hinitial reference.revisionId_ok

theorem oneExactRef_eq_ok {D : ChangeDocumentProjectionV1}
    (hD : projectChangeDocuments rt E = .ok D) :
    oneExactRef r D = .ok reference ↔ reference.revisionId = r ∧
      ∀ hash, .revision r hash ∈ facts rt E ↔ hash = reference.objectArtifactContentHash := by
  have hsingle : oneExactRef r D = .ok reference ↔ D.revisionRefs[r]? = some [reference] := by
    rw [oneExactRef]
    split <;> simp_all
  obtain ⟨semantic, -, rfl⟩ := projectChangeDocuments_eq_ok.mp hD
  rw [hsingle, get_revisionRefs]
  simp only [revisionRefsOf_eq_singleton, ← map_change_documentFacts, ← mem_revisions]
  constructor
  · rintro ⟨hashes, hhashes, hr, hlist⟩
    refine ⟨hr, fun hash => ?_⟩
    rw [hhashes, Option.getD_some, ← mem_toList_iff, hlist, List.mem_singleton]
  · rintro ⟨hr, hone⟩
    cases hhashes : (claimProvenance (documentFacts rt E)).revisions[r]? with
    | none =>
      rw [hhashes] at hone
      have hin := (hone reference.objectArtifactContentHash).mpr rfl
      simp at hin
    | some hashes =>
      refine ⟨hashes, rfl, hr, List.perm_singleton.mp ?_⟩
      refine (List.perm_ext_iff_of_nodup nodup_toList (List.nodup_singleton _)).mpr ?_
      intro hash
      rw [mem_toList_iff, List.mem_singleton, ← hone, hhashes, Option.getD_some]

end References

section Select

variable {codec : TokenCodec} {sha : Sha256} {change : ChangeView}
  {projection : ChangeDocumentProjectionV1} {binding : ReviewSourceBindingV1}

/-- The state in which cursors are minted. -/
def ChangeView.Resolved (change : ChangeView) : Prop :=
  change.topology ≠ .replacementDivergent ∧ change.topology ≠ .cycleConflicted ∧
    change.diagnostics = []

theorem selectReviewCursor_eq_ok {explicitRevision : Option RevisionId} {allowHistorical : Bool}
    {selection : ReviewCursorSelectionV1} :
    selectReviewCursor codec sha change projection explicitRevision allowHistorical binding =
        .ok selection ↔
      ∃ current, exactRefs change.currentRevisions projection = .ok current ∧ change.Resolved ∧
        ∃ revision, selectedRevision change projection current explicitRevision allowHistorical
            binding = .ok revision ∧
          let cursor : ReviewCursorV1 :=
            { schema := REVIEW_CURSOR_SCHEMA_V1, changeId := change.changeId, revision,
              changeGraphToken := changeGraphToken sha change,
              selectedCurrentRevisions := current, sourceBinding := binding,
              blockingDiagnostics := [] }
          { cursor, token := cursor.encodeToken codec sha } = selection := by
  rw [selectReviewCursor, bind_eq_ok]
  refine exists_congr fun current => and_congr_right fun _ => ?_
  by_cases hresolved : change.Resolved
  · rw [if_neg]
    · simp [hresolved, bind_eq_ok]
    · rintro ((htopology | htopology) | hdiagnostics)
      · exact hresolved.1 htopology
      · exact hresolved.2.1 htopology
      · exact hdiagnostics hresolved.2.2
  · rw [if_pos]
    · simp [hresolved]
    · by_contra hnot
      simp only [not_or, ne_eq, not_not] at hnot
      exact hresolved ⟨hnot.1.1, hnot.1.2, hnot.2⟩

theorem selectedRevision_some_eq_ok {current : List RevisionRefV1} {revisionId : RevisionId} :
    selectedRevision change projection current (some revisionId) false binding = .ok reference ↔
      revisionId ∈ change.members ∧ revisionId ∈ change.currentRevisions ∧
        oneExactRef revisionId projection = .ok reference := by
  rw [selectedRevision]
  by_cases hmember : revisionId ∈ change.members
  · by_cases hcurrent : revisionId ∈ change.currentRevisions
    · simp [hmember, hcurrent]
    · simp [hmember, hcurrent]
  · simp [hmember]

theorem recheckSelection_eq_ok {cursor accepted : ReviewCursorV1} :
    recheckSelection codec sha cursor change projection binding = .ok accepted ↔
      cursor = accepted ∧ change.Resolved ∧
        exactRefs change.currentRevisions projection = .ok cursor.selectedCurrentRevisions ∧
        cursor.revision.revisionId ∈ change.members ∧
        cursor.revision.revisionId ∈ change.currentRevisions ∧
        oneExactRef cursor.revision.revisionId projection = .ok cursor.revision ∧
        cursor.blockingDiagnostics = [] := by
  simp only [recheckSelection, bind_eq_ok, selectReviewCursor_eq_ok,
    selectedRevision_some_eq_ok, apply_ite (· = Except.ok accepted), reduceCtorEq, if_false_left,
    not_or, ne_eq, not_not, Except.ok.injEq]
  constructor
  · rintro ⟨selected, ⟨current, hcurrent, hresolved, revision, ⟨hmember, hin, href⟩, rfl⟩,
      ⟨hrevision, hselected, hblocking⟩, haccepted⟩
    refine ⟨haccepted, hresolved, ?_, hmember, hin, ?_, hblocking⟩
    · rw [hcurrent, hselected]
    · rw [href, hrevision]
  · rintro ⟨rfl, hresolved, hcurrent, hmember, hin, href, hblocking⟩
    exact ⟨_, ⟨_, hcurrent, hresolved, _, ⟨hmember, hin, href⟩, rfl⟩, ⟨rfl, rfl, hblocking⟩, rfl⟩

theorem decodeForGraph_eq_ok {token : Text} {cursor : ReviewCursorV1} :
    decodeForGraph codec sha token change = .ok cursor ↔
      ReviewCursorV1.decodeToken codec sha token = .ok cursor ∧
        cursor.changeId = change.changeId ∧
        cursor.changeGraphToken = changeGraphToken sha change := by
  rw [decodeForGraph]
  cases ReviewCursorV1.decodeToken codec sha token with
  | error error => simp
  | ok decoded =>
    simp only [apply_ite (· = Except.ok cursor), Except.ok.injEq, reduceCtorEq, if_false_left,
      not_or, ne_eq, not_not]
    exact and_comm.trans (and_congr_right fun h => h ▸ Iff.rfl)

theorem validateReviewCursorForWrite_eq_ok {token : Text} {cursor : ReviewCursorV1} :
    validateReviewCursorForWrite codec sha token change projection binding = .ok cursor ↔
      ReviewCursorV1.decodeToken codec sha token = .ok cursor ∧
        cursor.changeId = change.changeId ∧
        cursor.changeGraphToken = changeGraphToken sha change ∧ cursor.sourceBinding = binding ∧
        change.Resolved ∧
        exactRefs change.currentRevisions projection = .ok cursor.selectedCurrentRevisions ∧
        cursor.revision.revisionId ∈ change.members ∧
        cursor.revision.revisionId ∈ change.currentRevisions ∧
        oneExactRef cursor.revision.revisionId projection = .ok cursor.revision ∧
        cursor.blockingDiagnostics = [] := by
  simp [validateReviewCursorForWrite, bind_eq_ok, decodeForGraph_eq_ok,
    apply_ite (· = Except.ok cursor), reduceCtorEq, recheckSelection_eq_ok, and_assoc,
    and_left_comm]

end Select

section Events

variable {V : Type} {rt : Runtime V} {codec : TokenCodec} {E E' : List (ShoreEvent V)} {c : ChangeId}
  {v : ChangeView} {D : ChangeDocumentProjectionV1} {explicitRevision : Option RevisionId}
  {allowHistorical : Bool} {binding : ReviewSourceBindingV1} {selection : ReviewCursorSelectionV1}

/-- The Revision is proposed under one artifact hash, and the same one in both. -/
def KeepsArtifact (rt : Runtime V) (E E' : List (ShoreEvent V)) (r : RevisionId) : Prop :=
  ∃ hash, (∀ other, .revision r other ∈ facts rt E ↔ other = hash) ∧
    ∀ other, .revision r other ∈ facts rt E' ↔ other = hash

theorem exactRefs_eq_ok {revisions : BTreeSet RevisionId} :
    exactRefs revisions D = .ok references ↔
      (∀ r ∈ revisions, ∃ reference, oneExactRef r D = .ok reference) ∧
        references = revisions.toList.filterMap fun r => (oneExactRef r D).toOption := by
  rw [exactRefs, mapM_eq_ok_iff]
  simp only [mem_toList_iff]

theorem mem_exactRefs {revisions : BTreeSet RevisionId}
    (h : exactRefs revisions D = .ok references) :
    reference ∈ references ↔ ∃ r ∈ revisions, oneExactRef r D = .ok reference := by
  obtain ⟨-, rfl⟩ := exactRefs_eq_ok.mp h
  simp [toOption_eq_some]

theorem oneExactRef_of_selected (hD : projectChangeDocuments rt E = .ok D)
    {current : List RevisionRefV1} (hcurrent : exactRefs v.currentRevisions D = .ok current)
    {revision : RevisionRefV1} (h : selectedRevision v D current explicitRevision allowHistorical
      binding = .ok revision) : oneExactRef revision.revisionId D = .ok revision := by
  have hown : ∀ r, oneExactRef r D = .ok revision →
      oneExactRef revision.revisionId D = .ok revision := by
    intro r hr
    rwa [((oneExactRef_eq_ok hD).mp hr).1]
  unfold selectedRevision at h
  split at h
  · cases h
    obtain ⟨r, -, hr⟩ := (mem_exactRefs hcurrent).mp (List.mem_singleton_self _)
    exact hown r hr
  · cases h
  · split at h
    · cases h
    · obtain ⟨reference, hreference, h⟩ := bind_eq_ok.mp h
      split at h
      · cases h
      · cases h
        exact hown _ hreference

theorem KeepsArtifact.oneExactRef {D' : ChangeDocumentProjectionV1} {r : RevisionId}
    (h : KeepsArtifact rt E E' r) (hD : projectChangeDocuments rt E = .ok D)
    (hD' : projectChangeDocuments rt E' = .ok D')
    (href : Pointbreak.oneExactRef r D = .ok reference) :
    Pointbreak.oneExactRef r D' = .ok reference := by
  obtain ⟨hash, hE, hE'⟩ := h
  obtain ⟨hr, hone⟩ := (oneExactRef_eq_ok hD).mp href
  refine (oneExactRef_eq_ok hD').mpr ⟨hr, fun other => ?_⟩
  have hsame : reference.objectArtifactContentHash = hash := (hE _).mp ((hone _).mpr rfl)
  rw [hE', hsame]

/-- A cursor decodes from its token, and the token passes on other events exactly when the Change has
the same graph and diagnostics there, is settled, and its current Revisions have kept their one
artifact. Whatever token passes is for a current Revision. -/
theorem review_cursor_fresh_iff (hv : changeView rt E c = some v)
    (hD : projectChangeDocuments rt E = .ok D)
    (hselect : selectReviewCursor codec rt.sha256 v D explicitRevision allowHistorical binding =
      .ok selection)
    (hcurrent : selection.cursor.revision.revisionId ∈ v.currentRevisions)
    (hcodec : codec.ReadsBack (selection.cursor.wire rt.sha256).toValue)
    (hcf : CollisionFree rt.sha256 (tokenMaterials rt E c ++ tokenMaterials rt E' c)) :
    ReviewCursorV1.decodeToken codec rt.sha256 selection.token = .ok selection.cursor ∧
    ((∃ v' D' cursor, changeView rt E' c = some v' ∧ projectChangeDocuments rt E' = .ok D' ∧
        validateReviewCursorForWrite codec rt.sha256 selection.token v' D' binding = .ok cursor) ↔
      ∃ v', changeView rt E' c = some v' ∧ v'.members = v.members ∧ v'.supersedes = v.supersedes ∧
        v'.currentRevisions = v.currentRevisions ∧ v'.diagnostics = v.diagnostics ∧
        v'.topology ≠ .replacementDivergent ∧ v'.topology ≠ .cycleConflicted ∧
        v'.diagnostics = [] ∧ ∀ r ∈ v'.currentRevisions, KeepsArtifact rt E E' r) ∧
    ∀ token v' D' binding' cursor, changeView rt E' c = some v' →
      projectChangeDocuments rt E' = .ok D' →
      validateReviewCursorForWrite codec rt.sha256 token v' D' binding' = .ok cursor →
      cursor.changeId = c ∧ cursor.revision.revisionId ∈ v'.currentRevisions := by
  obtain ⟨current, hexact, hresolved, revision, hrevision, rfl⟩ :=
    selectReviewCursor_eq_ok.mp hselect
  have hdecode := ReviewCursorV1.decodeToken_encodeToken rfl hcodec
  refine ⟨hdecode, ⟨?_, ?_⟩, ?_⟩
  · rintro ⟨v', D', cursor, hv', hD', hvalid⟩
    obtain ⟨hdecoded, -, htoken, -, hresolved', hexact', -⟩ :=
      validateReviewCursorForWrite_eq_ok.mp hvalid
    cases hdecode.symm.trans hdecoded
    obtain ⟨hmembers, hsupersedes, hsame, hdiagnostics⟩ := graph_eq_of_token hcf
      (by simp [tokenMaterials, hv]) (by simp [tokenMaterials, hv']) htoken
    refine ⟨v', hv', hmembers.symm, hsupersedes.symm, hsame.symm, hdiagnostics.symm, hresolved'.1,
      hresolved'.2.1, hresolved'.2.2, fun r hr => ?_⟩
    rw [← hsame] at hr
    obtain ⟨reference, href⟩ := (exactRefs_eq_ok.mp hexact).1 r hr
    -- the reference is in the one list of both, and names its Revision
    obtain ⟨r', -, href'⟩ := (mem_exactRefs hexact').mp ((mem_exactRefs hexact).mpr ⟨r, hr, href⟩)
    obtain ⟨hid, hone⟩ := (oneExactRef_eq_ok hD).mp href
    obtain ⟨hid', hone'⟩ := (oneExactRef_eq_ok hD').mp href'
    obtain rfl : r = r' := hid.symm.trans hid'
    exact ⟨_, hone, hone'⟩
  · rintro ⟨v', hv', hmembers, hsupersedes, hsame, hdiagnostics, hdivergent, hcyclic, hnone, hkeeps⟩
    obtain ⟨P', hP', -⟩ := changeView_eq_some.mp hv'
    have hD' := projectChangeDocuments_eq_ok.mpr ⟨P', hP', rfl⟩
    have hchange : v.changeId = v'.changeId := by
      rw [(changeView_spec hv).changeId, (changeView_spec hv').changeId]
    have hkept : ∀ r ∈ v.currentRevisions, ∀ reference, oneExactRef r D = .ok reference →
        oneExactRef r _ = .ok reference := fun r hr _ href =>
      (hkeeps r (hsame ▸ hr)).oneExactRef hD hD' href
    refine ⟨v', _, _, hv', hD', validateReviewCursorForWrite_eq_ok.mpr ⟨hdecode, hchange, ?_, rfl,
      ⟨hdivergent, hcyclic, hnone⟩, ?_, ?_, ?_, ?_, rfl⟩⟩
    · simp only [changeGraphToken, graphTokenMaterial, hmembers, hsupersedes, hsame, hdiagnostics,
        hchange]
    · obtain ⟨hall, hlist⟩ := exactRefs_eq_ok.mp hexact
      rw [hsame]
      refine exactRefs_eq_ok.mpr ⟨fun r hr => ?_, hlist.trans (List.filterMap_congr fun r hr => ?_)⟩
      · obtain ⟨reference, href⟩ := hall r hr
        exact ⟨reference, hkept r hr reference href⟩
      · rw [mem_toList_iff] at hr
        obtain ⟨reference, href⟩ := hall r hr
        rw [href, hkept r hr reference href]
    · rw [(changeView_spec hv).consistent.current, mem_currentRevisions] at hcurrent
      rw [hmembers]
      exact hcurrent.1
    · rw [hsame]
      exact hcurrent
    · exact hkept _ hcurrent _ (oneExactRef_of_selected hD hexact hrevision)
  · intro token v' D' binding' cursor hv' hD' hvalid
    obtain ⟨-, hchange, -, -, -, -, -, hin, -⟩ := validateReviewCursorForWrite_eq_ok.mp hvalid
    exact ⟨hchange.trans (changeView_spec hv').changeId, hin⟩

end Events

section Minted

open Recorded

def recordedCodec (value : Json) : TokenCodec where
  fromSlice bytes :=
    if bytes = value.canonical.render then .ok value.canonical else .error (text "expected value")
  shapeError _ := text "invalid type"
  encode := Base64.encode
  decode token := ((Base64.decode token).map .ok).getD (.error (text "Invalid symbol"))

theorem recordedCodec_readsBack (value : Json) : (recordedCodec value).ReadsBack value where
  decode := by simp [recordedCodec, Base64.decode_encode]
  fromSlice := if_pos rfl

def mintedCursor : ReviewCursorV1 where
  schema := REVIEW_CURSOR_SCHEMA_V1
  changeId := change 1
  revision := ref 1
  changeGraphToken := text "sha256:" ++ Text.hexOf 64
    0xebdb253dc6a922128f9b1f8135ef7dfb7017d507b29e1a0be9fd0bdf69de539a []
  selectedCurrentRevisions := [ref 1]
  sourceBinding := .captured
  blockingDiagnostics := []

def mintedCodec : TokenCodec := recordedCodec (mintedCursor.wire tokenRuntime.sha256).toValue

def mintedOn (E : List (ShoreEvent WirePayload)) : Option ReviewCursorSelectionV1 := do
  let v ← changeView tokenRuntime E (change 1)
  let D ← (projectChangeDocuments tokenRuntime E).toOption
  (selectReviewCursor mintedCodec tokenRuntime.sha256 v D none false .captured).toOption

theorem revision_mem_facts {E : List (ShoreEvent WirePayload)}
    (h : (facts tokenRuntime E).filterMap ChangeProjectionFact.revisionEntry =
      [(rev 1, artifact 1)]) (other : Text) :
    .revision (rev 1) other ∈ facts tokenRuntime E ↔ other = artifact 1 := by
  have hmem : .revision (rev 1) other ∈ facts tokenRuntime E ↔
      (rev 1, other) ∈ (facts tokenRuntime E).filterMap revisionEntry := by
    simp [revisionEntry_eq_some]
  rw [hmem, h, List.mem_singleton, Prod.mk.injEq, and_iff_right rfl]

/-- A cursor of the reviewed Change passes after an assessment. -/
theorem minted_cursor_fresh : ∃ v D selection,
    changeView tokenRuntime reviewed (change 1) = some v ∧
    projectChangeDocuments tokenRuntime reviewed = .ok D ∧
    selectReviewCursor mintedCodec tokenRuntime.sha256 v D none false .captured = .ok selection ∧
    ReviewCursorV1.decodeToken mintedCodec tokenRuntime.sha256 selection.token =
      .ok selection.cursor ∧
    ∃ v' D' cursor, changeView tokenRuntime (reviewed ++ assessmentOnly) (change 1) = some v' ∧
      projectChangeDocuments tokenRuntime (reviewed ++ assessmentOnly) = .ok D' ∧
      validateReviewCursorForWrite mintedCodec tokenRuntime.sha256 selection.token v' D' .captured =
        .ok cursor := by
  have hminted : (mintedOn reviewed).map (·.cursor) = some mintedCursor := by decide +kernel
  obtain ⟨selection, hselection, hcursor⟩ := Option.map_eq_some_iff.mp hminted
  simp only [mintedOn, Option.bind_eq_bind, Option.bind_eq_some_iff, toOption_eq_some]
    at hselection
  obtain ⟨v, hv, D, hD, hselect⟩ := hselection
  have hview : (changeView tokenRuntime reviewed (change 1)).map (·.currentRevisions.toList) =
      some [rev 1] := by decide +kernel
  rw [hv, Option.map_some, Option.some.injEq] at hview
  have hone : ∀ r, r ∈ v.currentRevisions ↔ r = rev 1 := by
    intro r
    rw [← mem_toList_iff, hview, List.mem_singleton]
  have hcodec : mintedCodec.ReadsBack (selection.cursor.wire tokenRuntime.sha256).toValue := by
    rw [hcursor]
    exact recordedCodec_readsBack _
  obtain ⟨hdecode, hfresh, -⟩ := review_cursor_fresh_iff hv hD hselect
    ((hone _).mpr (by rw [hcursor]; rfl)) hcodec assessmentOnly_collisionFree
  refine ⟨v, D, selection, hv, hD, hselect, hdecode, hfresh.mpr ?_⟩
  have hgraph : (changeView tokenRuntime (reviewed ++ assessmentOnly) (change 1)).map (fun v =>
        (v.members.toList, v.supersedes.toList, v.currentRevisions.toList, v.diagnostics,
          v.topology)) =
      (changeView tokenRuntime reviewed (change 1)).map fun v =>
        (v.members.toList, v.supersedes.toList, v.currentRevisions.toList, v.diagnostics,
          v.topology) := by
    decide +kernel
  rw [hv] at hgraph
  obtain ⟨v', hv', hsame⟩ := Option.map_eq_some_iff.mp hgraph
  obtain ⟨-, -, ⟨hdivergent, hcyclic, hnone⟩, -⟩ := selectReviewCursor_eq_ok.mp hselect
  simp only [Prod.mk.injEq, ExtTreeSet.toList_inj] at hsame
  obtain ⟨hmembers, hsupersedes, hcurrent, hdiagnostics, htopology⟩ := hsame
  refine ⟨v', hv', hmembers, hsupersedes, hcurrent, hdiagnostics, htopology ▸ hdivergent,
    htopology ▸ hcyclic, hdiagnostics.trans hnone, fun r hr => ?_⟩
  rw [hcurrent, hone] at hr
  subst hr
  exact ⟨artifact 1, revision_mem_facts (by decide +kernel), revision_mem_facts (by decide +kernel)⟩

end Minted

end Pointbreak
