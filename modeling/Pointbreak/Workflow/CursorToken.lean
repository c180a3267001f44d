import Pointbreak.Workflow.ReviewCursor

/-!
# Workflow.CursorToken

Review cursors. A cursor is minted for one Revision of a Change on the graph as it is, travels as a
token that carries its own hash, and is checked again before a write.
-/

namespace Pointbreak

open Std KeyedLog
open Json (read_some read_str)

inductive CommitProofStateV1 where
  | unknown | exact | equivalent | extension | unavailable
deriving DecidableEq

def CommitProofStateV1.toValue : CommitProofStateV1 → Json
  | .unknown => .str (text "unknown")
  | .exact => .str (text "exact")
  | .equivalent => .str (text "equivalent")
  | .extension => .str (text "extension")
  | .unavailable => .str (text "unavailable")

def CommitProofStateV1.fromValue : Json → Option CommitProofStateV1
  | .str tag =>
    if tag = text "unknown" then some .unknown
    else if tag = text "exact" then some .exact
    else if tag = text "equivalent" then some .equivalent
    else if tag = text "extension" then some .extension
    else if tag = text "unavailable" then some .unavailable
    else none
  | _ => none

/-- What a cursor says about the source that was reviewed. -/
inductive ReviewSourceBindingV1 where
  | captured
  | worktreeMatchV1 (captureMode : Text) (base : Option Text) (pathScope : List Text)
      (sourceFingerprint : Text)
  | commitMatchV1 (commitOid treeOid comparisonBase : Text) (pathScope : List Text)
      (proofState : CommitProofStateV1) (proofRef : Option Text) (sourceFingerprint : Text)
deriving DecidableEq

namespace ReviewSourceBindingV1

/-- An internally tagged object; absent options are left out. -/
def fields : ReviewSourceBindingV1 → List (Text × Json)
  | .captured => [(text "kind", .str (text "captured"))]
  | .worktreeMatchV1 captureMode base pathScope sourceFingerprint =>
    [(text "kind", .str (text "worktree_match_v1")), (text "captureMode", .str captureMode)] ++
      base.toList.map (fun base => (text "base", .str base)) ++
      [(text "pathScope", .arr (pathScope.map .str)), (text "sourceFingerprint", .str sourceFingerprint)]
  | .commitMatchV1 commitOid treeOid comparisonBase pathScope proofState proofRef sourceFingerprint =>
    [(text "kind", .str (text "commit_match_v1")), (text "commitOid", .str commitOid),
        (text "treeOid", .str treeOid), (text "comparisonBase", .str comparisonBase),
        (text "pathScope", .arr (pathScope.map .str)), (text "proofState", proofState.toValue)] ++
      proofRef.toList.map (fun proofRef => (text "proofRef", .str proofRef)) ++
      [(text "sourceFingerprint", .str sourceFingerprint)]

def toValue (binding : ReviewSourceBindingV1) : Json := .obj binding.fields

def texts? (value : Json) : Option (List Text) := do
  let items ← value.items?
  items.mapM Json.str?

/-- The tag says which fields are read; others are passed over. -/
def fromValue (value : Json) : Option ReviewSourceBindingV1 := do
  let tagged ← value.fields? [text "kind"] false
  let kind ← (← tagged (text "kind")).str?
  if kind = text "captured" then some .captured
  else if kind = text "worktree_match_v1" then do
    let get ← value.fields?
      [text "kind", text "captureMode", text "base", text "pathScope", text "sourceFingerprint"] false
    let captureMode ← (← get (text "captureMode")).str?
    let base ← Json.optional? Json.str? (get (text "base"))
    let pathScope ← texts? (← get (text "pathScope"))
    let sourceFingerprint ← (← get (text "sourceFingerprint")).str?
    some (.worktreeMatchV1 captureMode base pathScope sourceFingerprint)
  else if kind = text "commit_match_v1" then do
    let get ← value.fields?
      [text "kind", text "commitOid", text "treeOid", text "comparisonBase", text "pathScope",
        text "proofState", text "proofRef", text "sourceFingerprint"] false
    let commitOid ← (← get (text "commitOid")).str?
    let treeOid ← (← get (text "treeOid")).str?
    let comparisonBase ← (← get (text "comparisonBase")).str?
    let pathScope ← texts? (← get (text "pathScope"))
    let proofState ← CommitProofStateV1.fromValue (← get (text "proofState"))
    let proofRef ← Json.optional? Json.str? (get (text "proofRef"))
    let sourceFingerprint ← (← get (text "sourceFingerprint")).str?
    some (.commitMatchV1 commitOid treeOid comparisonBase pathScope proofState proofRef
      sourceFingerprint)
  else none

end ReviewSourceBindingV1

def REVIEW_CURSOR_SCHEMA_V1 : Text := text "pointbreak.review-cursor.v1"

structure ReviewCursorV1 where
  schema : Text
  changeId : ChangeId
  revision : RevisionRefV1
  changeGraphToken : Text
  selectedCurrentRevisions : List RevisionRefV1
  sourceBinding : ReviewSourceBindingV1
  blockingDiagnostics : List Text
deriving DecidableEq

structure ReviewCursorTokenWireV1 where
  cursor : ReviewCursorV1
  selfHash : Text

/-- Deserialization goes through `new`. -/
def RevisionRefV1.fromValue (value : Json) : Option RevisionRefV1 := do
  let get ← value.fields? [text "revisionId", text "objectArtifactContentHash"] true
  let revisionId ← (← get (text "revisionId")).str?
  let objectArtifactContentHash ← (← get (text "objectArtifactContentHash")).str?
  (RevisionRefV1.new ⟨revisionId⟩ objectArtifactContentHash).toOption

namespace ReviewCursorV1

def toValue (cursor : ReviewCursorV1) : Json :=
  .obj [(text "schema", .str cursor.schema), (text "changeId", cursor.changeId.toValue),
    (text "revision", cursor.revision.toValue),
    (text "changeGraphToken", .str cursor.changeGraphToken),
    (text "selectedCurrentRevisions",
      .arr (cursor.selectedCurrentRevisions.map RevisionRefV1.toValue)),
    (text "sourceBinding", cursor.sourceBinding.toValue),
    (text "blockingDiagnostics", .arr (cursor.blockingDiagnostics.map .str))]

def fromValue (value : Json) : Option ReviewCursorV1 := do
  let get ← value.fields?
    [text "schema", text "changeId", text "revision", text "changeGraphToken",
      text "selectedCurrentRevisions", text "sourceBinding", text "blockingDiagnostics"] true
  let schema ← (← get (text "schema")).str?
  let changeId ← (← get (text "changeId")).str?
  let revision ← RevisionRefV1.fromValue (← get (text "revision"))
  let changeGraphToken ← (← get (text "changeGraphToken")).str?
  let current ← (← get (text "selectedCurrentRevisions")).items?
  let selectedCurrentRevisions ← current.mapM RevisionRefV1.fromValue
  let sourceBinding ← ReviewSourceBindingV1.fromValue (← get (text "sourceBinding"))
  let blockingDiagnostics ← ReviewSourceBindingV1.texts? (← get (text "blockingDiagnostics"))
  some { schema, changeId := ⟨changeId⟩, revision, changeGraphToken, selectedCurrentRevisions,
         sourceBinding, blockingDiagnostics }

end ReviewCursorV1

namespace ReviewCursorTokenWireV1

def toValue (wire : ReviewCursorTokenWireV1) : Json :=
  .obj [(text "cursor", wire.cursor.toValue), (text "selfHash", .str wire.selfHash)]

def fromValue (value : Json) : Option ReviewCursorTokenWireV1 := do
  let get ← value.fields? [text "cursor", text "selfHash"] true
  let cursor ← ReviewCursorV1.fromValue (← get (text "cursor"))
  let selfHash ← (← get (text "selfHash")).str?
  some { cursor, selfHash }

end ReviewCursorTokenWireV1

/-- What comes from outside the repository: the parser of JSON texts, what it says about a value of
another shape, and URL-safe base64 without padding. -/
structure TokenCodec where
  fromSlice : Text → Except Text Json
  shapeError : Json → Text
  encode : Text → Text
  decode : Text → Except Text Text

/-- What was written is read back. -/
structure TokenCodec.ReadsBack (codec : TokenCodec) (value : Json) : Prop where
  decode : codec.decode (codec.encode value.canonical.render) = .ok value.canonical.render
  fromSlice : codec.fromSlice value.canonical.render = .ok value.canonical

section Token

variable (codec : TokenCodec) (sha : Sha256)

def ReviewCursorV1.wire (cursor : ReviewCursorV1) : ReviewCursorTokenWireV1 where
  cursor := cursor
  selfHash := sha256JsonPrefixed sha cursor.toValue

def ReviewCursorV1.encodeToken (cursor : ReviewCursorV1) : Text :=
  codec.encode (cursor.wire sha).toValue.canonical.render

def ReviewCursorV1.decodeToken (token : Text) : Result ReviewCursorV1 :=
  match codec.decode token with
  | .error error => .error (.message (text "invalid Review cursor token: " ++ error))
  | .ok bytes =>
    match codec.fromSlice bytes with
    | .error error => .error (.json error)
    | .ok value =>
      match ReviewCursorTokenWireV1.fromValue value with
      | none => .error (.json (codec.shapeError value))
      | some wire =>
        if wire.cursor.schema ≠ REVIEW_CURSOR_SCHEMA_V1 ∨
            wire.selfHash ≠ sha256JsonPrefixed sha wire.cursor.toValue then
          .error (.message (text "Review cursor token failed its self-hash or schema check"))
        else .ok wire.cursor

end Token

structure ReviewCursorSelectionV1 where
  cursor : ReviewCursorV1
  token : Text

structure ReviewCursorRefusalV1 where
  code : Text
  message : Text
  exactCandidates : List RevisionRefV1
  diagnostics : List Text

def oneExactRef (revisionId : RevisionId) (projection : ChangeDocumentProjectionV1) :
    Except ReviewCursorRefusalV1 RevisionRefV1 :=
  match projection.revisionRefs[revisionId]? with
  | some [reference] => .ok reference
  | some references =>
    .error { code := text "revision_artifact_conflicted",
             message := text "the Revision has more than one object artifact hash",
             exactCandidates := references, diagnostics := [] }
  | none =>
    .error { code := text "revision_artifact_missing",
             message := text "the Revision object artifact is unavailable",
             exactCandidates := [], diagnostics := [] }

def exactRefs (revisions : BTreeSet RevisionId) (projection : ChangeDocumentProjectionV1) :
    Except ReviewCursorRefusalV1 (List RevisionRefV1) :=
  revisions.toList.mapM fun revisionId => oneExactRef revisionId projection

/-- The Revision that a cursor is for: the one that is asked for, or the only current one. -/
def selectedRevision (change : ChangeView) (projection : ChangeDocumentProjectionV1)
    (current : List RevisionRefV1) (explicitRevision : Option RevisionId) (allowHistorical : Bool)
    (sourceBinding : ReviewSourceBindingV1) : Except ReviewCursorRefusalV1 RevisionRefV1 :=
  match explicitRevision, current with
  | none, [reference] => .ok reference
  | none, _ =>
    .error { code := text "explicit_revision_required",
             message := text "the Change has more than one current Revision",
             exactCandidates := current, diagnostics := [] }
  | some revisionId, _ =>
    if revisionId ∉ change.members then
      .error { code := text "revision_not_a_change_member",
               message := text "the exact Revision is not an active member of this Change",
               exactCandidates := current, diagnostics := [] }
    else do
      let reference ← oneExactRef revisionId projection
      if revisionId ∉ change.currentRevisions ∧
          (allowHistorical = false ∨ sourceBinding ≠ .captured) then
        .error { code := text "historical_revision_not_authorable",
                 message := text "a historical Revision requires explicit captured-resource selection",
                 exactCandidates := current, diagnostics := [] }
      else .ok reference

section Select

variable (codec : TokenCodec) (sha : Sha256)

def selectReviewCursor (change : ChangeView) (projection : ChangeDocumentProjectionV1)
    (explicitRevision : Option RevisionId) (allowHistorical : Bool)
    (sourceBinding : ReviewSourceBindingV1) :
    Except ReviewCursorRefusalV1 ReviewCursorSelectionV1 := do
  let current ← exactRefs change.currentRevisions projection
  if (change.topology = .replacementDivergent ∨ change.topology = .cycleConflicted) ∨
      change.diagnostics ≠ [] then
    .error { code := text "change_state_unresolved",
             message := text "the Change graph is incomplete or conflicted",
             exactCandidates := current, diagnostics := change.diagnostics.map (·.asStr) }
  else do
    let revision ← selectedRevision change projection current explicitRevision allowHistorical
      sourceBinding
    let cursor : ReviewCursorV1 :=
      { schema := REVIEW_CURSOR_SCHEMA_V1, changeId := change.changeId, revision,
        changeGraphToken := changeGraphToken sha change, selectedCurrentRevisions := current,
        sourceBinding, blockingDiagnostics := [] }
    .ok { cursor, token := cursor.encodeToken codec sha }

def EventVerificationStatus.asStr : EventVerificationStatus → Text
  | .valid => text "valid"
  | .invalid => text "invalid"
  | .untrustedKey => text "untrusted_key"
  | .unsigned => text "unsigned"

def SchemaBreakRecord.toText (record : SchemaBreakRecord) : Text :=
  record.retired ++ text " is no longer supported (broken at " ++ record.brokenAt ++ text "); see " ++
    record.anchor

def ShoreError.toText : ShoreError → Text
  | .message detail => detail
  | .json detail => text "json parse failed: " ++ detail
  | .invalidEvent detail => text "invalid event: " ++ detail
  | .workflowInputInvalid reason => reason
  | .unsupportedEventSchemaVersion schema version =>
    text "unsupported event schema/version: " ++ schema ++ text " v" ++ text (Nat.repr version)
  | .unsupportedEventType record => text "unsupported event type: " ++ record.toText
  | .unsupportedEventEnvelope record => text "unsupported event envelope: " ++ record.toText
  | .eventVerificationRejected eventId status =>
    text "event signature verification rejected event " ++ eventId.asStr ++ text " with status " ++
      status.asStr

/-- The checks that both validations end with: the cursor has to be selected again as it is. -/
def recheckSelection (cursor : ReviewCursorV1) (currentChange : ChangeView)
    (currentProjection : ChangeDocumentProjectionV1) (sourceBinding : ReviewSourceBindingV1) :
    Except ReviewCursorRefusalV1 ReviewCursorV1 := do
  let selected ← selectReviewCursor codec sha currentChange currentProjection
    (some cursor.revision.revisionId) false sourceBinding
  if cursor.revision ≠ selected.cursor.revision ∨
      cursor.selectedCurrentRevisions ≠ selected.cursor.selectedCurrentRevisions ∨
      cursor.blockingDiagnostics ≠ selected.cursor.blockingDiagnostics then
    .error { code := text "review_cursor_selection_stale",
             message := text "the exact Revision, current candidate set, or blocking state changed",
             exactCandidates := selected.cursor.selectedCurrentRevisions,
             diagnostics := currentChange.diagnostics.map (·.asStr) }
  else .ok cursor

/-- The token is decoded, and the graph has to be the one it was made on. -/
def decodeForGraph (token : Text) (currentChange : ChangeView) :
    Except ReviewCursorRefusalV1 ReviewCursorV1 :=
  match ReviewCursorV1.decodeToken codec sha token with
  | .error error =>
    .error { code := text "invalid_review_cursor", message := error.toText, exactCandidates := [],
             diagnostics := [] }
  | .ok cursor =>
    if cursor.changeId ≠ currentChange.changeId ∨
        cursor.changeGraphToken ≠ changeGraphToken sha currentChange then
      .error { code := text "change_graph_stale",
               message := text "Change membership, replacement state, current set, or blocking diagnostics changed",
               exactCandidates := cursor.selectedCurrentRevisions,
               diagnostics := currentChange.diagnostics.map (·.asStr) }
    else .ok cursor

def validateReviewCursorForWrite (token : Text) (currentChange : ChangeView)
    (currentProjection : ChangeDocumentProjectionV1)
    (currentSourceBinding : ReviewSourceBindingV1) :
    Except ReviewCursorRefusalV1 ReviewCursorV1 := do
  let cursor ← decodeForGraph codec sha token currentChange
  if cursor.sourceBinding ≠ currentSourceBinding then
    .error { code := text "source_binding_mismatch",
             message := text "the code, documentation, tests, generated files, modes, untracked set, or scope changed",
             exactCandidates := cursor.selectedCurrentRevisions, diagnostics := [] }
  else recheckSelection codec sha cursor currentChange currentProjection currentSourceBinding

end Select

section ReadBack

theorem CommitProofStateV1.fromValue_toValue (state : CommitProofStateV1) :
    fromValue state.toValue.canonical = some state := by
  cases state <;> decide +kernel

theorem texts?_canonical (texts : List Text) :
    ReviewSourceBindingV1.texts? (Json.arr (texts.map .str)).canonical = some texts := by
  simp only [ReviewSourceBindingV1.texts?, Json.canonical_arr, Json.items?, bind, Option.bind_some]
  exact Json.mapM_canonicalItems (fun s => by rw [Json.canonical_str, Json.str?_str]) texts

theorem RevisionRefV1.fromValue_toValue (reference : RevisionRefV1) :
    fromValue reference.toValue.canonical = some reference := by
  obtain ⟨get, hget, hfields, -⟩ := Json.fields?_canonical
    [text "revisionId", text "objectArtifactContentHash"] true
    [text "revisionId", text "objectArtifactContentHash"]
    [(text "revisionId", reference.revisionId.toValue),
      (text "objectArtifactContentHash", .str reference.objectArtifactContentHash)]
    rfl (by decide +kernel) (fun _ => by simp)
  have hid := hfields (text "revisionId") reference.revisionId.toValue (by simp)
  have hhash := hfields (text "objectArtifactContentHash")
    (.str reference.objectArtifactContentHash) (by simp)
  rw [RevisionRefV1.fromValue, toValue, read_some hget, read_str hid, read_str hhash]
  exact congrArg Except.toOption reference.new_eq

namespace ReviewSourceBindingV1

def keys : ReviewSourceBindingV1 → List Text
  | .captured => [text "kind"]
  | .worktreeMatchV1 _ base _ _ =>
    [text "kind", text "captureMode"] ++ (if base.isSome then [text "base"] else []) ++
      [text "pathScope", text "sourceFingerprint"]
  | .commitMatchV1 _ _ _ _ _ proofRef _ =>
    [text "kind", text "commitOid", text "treeOid", text "comparisonBase", text "pathScope",
      text "proofState"] ++ (if proofRef.isSome then [text "proofRef"] else []) ++
      [text "sourceFingerprint"]

variable (binding : ReviewSourceBindingV1)

theorem map_fst_fields : binding.fields.map Prod.fst = binding.keys := by
  cases binding with
  | captured => rfl
  | worktreeMatchV1 _ base => cases base <;> rfl
  | commitMatchV1 _ _ _ _ _ proofRef => cases proofRef <;> rfl

theorem nodup_keys : binding.keys.Nodup := by
  cases binding with
  | captured => decide +kernel
  | worktreeMatchV1 _ base =>
    rw [keys]
    generalize base.isSome = present
    revert present
    decide +kernel
  | commitMatchV1 _ _ _ _ _ proofRef =>
    rw [keys]
    generalize proofRef.isSome = present
    revert present
    decide +kernel

theorem fields?_toValue (known : List Text) :
    ∃ get, Json.fields? known false binding.toValue.canonical = some get ∧
      (∀ name value, (name, value) ∈ binding.fields → get name = some value.canonical) ∧
      ∀ name, name ∉ binding.keys → get name = none :=
  Json.fields?_canonical known false binding.keys binding.fields binding.map_fst_fields
    binding.nodup_keys nofun

theorem optional?_get {get : Text → Option Json} {name : Text} {value : Option Text}
    (hsome : ∀ s, value = some s → get name = some (Json.str s).canonical)
    (hnone : value = none → get name = none) : Json.optional? Json.str? (get name) = some value := by
  cases value with
  | none => rw [hnone rfl, Json.optional?_none]
  | some s => rw [hsome s rfl, Json.canonical_str, Json.optional?_str, Json.str?_str, Option.map_some]

theorem fromValue_toValue : fromValue binding.toValue.canonical = some binding := by
  have hread := binding.fields?_toValue
  obtain ⟨tagged, htagged, hkind, -⟩ := hread [text "kind"]
  cases binding with
  | captured => decide +kernel
  | worktreeMatchV1 captureMode base pathScope sourceFingerprint =>
    obtain ⟨get, hget, hfields, hnone⟩ := hread
      [text "kind", text "captureMode", text "base", text "pathScope", text "sourceFingerprint"]
    have htag := hkind (text "kind") (.str (text "worktree_match_v1")) (by simp [fields])
    have hmode := hfields (text "captureMode") (.str captureMode) (by simp [fields])
    have hscope := hfields (text "pathScope") (.arr (pathScope.map .str)) (by simp [fields])
    have hprint := hfields (text "sourceFingerprint") (.str sourceFingerprint) (by simp [fields])
    have hbase : Json.optional? Json.str? (get (text "base")) = some base := by
      refine optional?_get (fun s hs => hfields _ (.str s) (by simp [fields, hs]))
        fun hs => hnone _ ?_
      rw [keys, hs]
      decide +kernel
    rw [fromValue, read_some htagged, read_str htag, if_neg (by decide), if_pos rfl,
      read_some hget, read_str hmode, read_some hbase, read_some hscope,
      read_some (texts?_canonical _), read_str hprint]
  | commitMatchV1 commitOid treeOid comparisonBase pathScope proofState proofRef sourceFingerprint =>
    obtain ⟨get, hget, hfields, hnone⟩ := hread
      [text "kind", text "commitOid", text "treeOid", text "comparisonBase", text "pathScope",
        text "proofState", text "proofRef", text "sourceFingerprint"]
    have htag := hkind (text "kind") (.str (text "commit_match_v1")) (by simp [fields])
    have hcommit := hfields (text "commitOid") (.str commitOid) (by simp [fields])
    have htree := hfields (text "treeOid") (.str treeOid) (by simp [fields])
    have hbase := hfields (text "comparisonBase") (.str comparisonBase) (by simp [fields])
    have hscope := hfields (text "pathScope") (.arr (pathScope.map .str)) (by simp [fields])
    have hstate := hfields (text "proofState") proofState.toValue (by simp [fields])
    have hprint := hfields (text "sourceFingerprint") (.str sourceFingerprint) (by simp [fields])
    have href : Json.optional? Json.str? (get (text "proofRef")) = some proofRef := by
      refine optional?_get (fun s hs => hfields _ (.str s) (by simp [fields, hs]))
        fun hs => hnone _ ?_
      rw [keys, hs]
      decide +kernel
    rw [fromValue, read_some htagged, read_str htag, if_neg (by decide), if_neg (by decide),
      if_pos rfl, read_some hget, read_str hcommit, read_str htree, read_str hbase,
      read_some hscope, read_some (texts?_canonical _), read_some hstate,
      read_some proofState.fromValue_toValue, read_some href, read_str hprint]

-- a field of another kind is passed over
example : fromValue (.obj [(text "kind", .str (text "captured")), (text "base", .null)]) =
    some .captured := by
  decide +kernel

end ReviewSourceBindingV1

theorem ReviewCursorV1.fromValue_toValue (cursor : ReviewCursorV1) :
    fromValue cursor.toValue.canonical = some cursor := by
  let known := [text "schema", text "changeId", text "revision", text "changeGraphToken",
    text "selectedCurrentRevisions", text "sourceBinding", text "blockingDiagnostics"]
  obtain ⟨get, hget, hfields, -⟩ := Json.fields?_canonical known true known _
    (rfl : ([(text "schema", .str cursor.schema), (text "changeId", cursor.changeId.toValue),
      (text "revision", cursor.revision.toValue),
      (text "changeGraphToken", .str cursor.changeGraphToken),
      (text "selectedCurrentRevisions",
        .arr (cursor.selectedCurrentRevisions.map RevisionRefV1.toValue)),
      (text "sourceBinding", cursor.sourceBinding.toValue),
      (text "blockingDiagnostics", Json.arr (cursor.blockingDiagnostics.map .str))].map Prod.fst) =
        known) (by decide +kernel) fun _ _ h => h
  have hschema := hfields (text "schema") (.str cursor.schema) (by simp)
  have hchange := hfields (text "changeId") cursor.changeId.toValue (by simp)
  have hrevision := hfields (text "revision") cursor.revision.toValue (by simp)
  have htoken := hfields (text "changeGraphToken") (.str cursor.changeGraphToken) (by simp)
  have hcurrent := hfields (text "selectedCurrentRevisions")
    (.arr (cursor.selectedCurrentRevisions.map RevisionRefV1.toValue)) (by simp)
  have hbinding := hfields (text "sourceBinding") cursor.sourceBinding.toValue (by simp)
  have hblocking := hfields (text "blockingDiagnostics")
    (.arr (cursor.blockingDiagnostics.map .str)) (by simp)
  rw [Json.canonical_arr] at hcurrent
  rw [fromValue, toValue, read_some hget, read_str hschema, read_str hchange,
    read_some hrevision, read_some cursor.revision.fromValue_toValue, read_str htoken,
    read_some hcurrent, Json.items?, read_some rfl,
    read_some (Json.mapM_canonicalItems RevisionRefV1.fromValue_toValue _),
    read_some hbinding, read_some cursor.sourceBinding.fromValue_toValue, read_some hblocking,
    read_some (texts?_canonical _)]

theorem ReviewCursorTokenWireV1.fromValue_toValue (wire : ReviewCursorTokenWireV1) :
    fromValue wire.toValue.canonical = some wire := by
  obtain ⟨get, hget, hfields, -⟩ := Json.fields?_canonical [text "cursor", text "selfHash"] true
    [text "cursor", text "selfHash"]
    [(text "cursor", wire.cursor.toValue), (text "selfHash", .str wire.selfHash)]
    rfl (by decide +kernel) (fun _ => by simp)
  have hcursor := hfields (text "cursor") wire.cursor.toValue (by simp)
  have hhash := hfields (text "selfHash") (.str wire.selfHash) (by simp)
  rw [fromValue, toValue, read_some hget, read_some hcursor,
    read_some wire.cursor.fromValue_toValue, read_str hhash]

theorem ReviewCursorV1.decodeToken_encodeToken {codec : TokenCodec} {sha : Sha256}
    {cursor : ReviewCursorV1} (hschema : cursor.schema = REVIEW_CURSOR_SCHEMA_V1)
    (hcodec : codec.ReadsBack (cursor.wire sha).toValue) :
    decodeToken codec sha (cursor.encodeToken codec sha) = .ok cursor := by
  rw [decodeToken, encodeToken, hcodec.decode]
  simp only [hcodec.fromSlice, ReviewCursorTokenWireV1.fromValue_toValue]
  rw [if_neg]
  · rfl
  · simp [wire, hschema]

end ReadBack

end Pointbreak
