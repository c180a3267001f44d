import Pointbreak.Model.CanonicalHash

/-!
# Model.Revision

Exact references to captured Revisions, and the targets review facts address.
-/

namespace Pointbreak

def isPrefixedSha256 (value : Text) : Bool :=
  (text "sha256:").isPrefixOf value && Text.isHexOfLength 64 (value.drop 7)

def RevisionId.hasRevPrefix (id : RevisionId) : Bool := (text "rev:").isPrefixOf id.asStr

/-- A Revision together with the hash of its stored artifact. The only way to build one is through
`new` (deserialization goes through it as well), so the fields always have their form. -/
structure RevisionRefV1 where
  revisionId : RevisionId
  objectArtifactContentHash : Text
  revisionId_ok : revisionId.hasRevPrefix = true
  hash_ok : isPrefixedSha256 objectArtifactContentHash = true
deriving DecidableEq

namespace RevisionRefV1

def new (revisionId : RevisionId) (objectArtifactContentHash : Text) : Result RevisionRefV1 :=
  if hr : revisionId.hasRevPrefix = true then
    if hh : isPrefixedSha256 objectArtifactContentHash = true then
      .ok ⟨revisionId, objectArtifactContentHash, hr, hh⟩
    else
      .error (.message (text "RevisionRefV1 requires a lowercase sha256 object artifact hash"))
  else
    .error (.message (text "RevisionRefV1 requires a rev: RevisionId"))

theorem new_eq (reference : RevisionRefV1) :
    new reference.revisionId reference.objectArtifactContentHash = .ok reference := by
  rw [new, dif_pos reference.revisionId_ok, dif_pos reference.hash_ok]

theorem new_eq_ok {r : RevisionId} {hash : Text} {reference : RevisionRefV1} :
    new r hash = .ok reference ↔
      reference.revisionId = r ∧ reference.objectArtifactContentHash = hash := by
  constructor
  · intro h
    rw [new] at h
    split at h
    · split at h
      · cases h
        exact ⟨rfl, rfl⟩
      · cases h
    · cases h
  · rintro ⟨rfl, rfl⟩
    exact reference.new_eq

def toValue (ref : RevisionRefV1) : Json :=
  .obj [(text "revisionId", ref.revisionId.toValue),
    (text "objectArtifactContentHash", .str ref.objectArtifactContentHash)]

theorem toValue_canonical_inj {a b : RevisionRefV1}
    (h : a.toValue.canonical = b.toValue.canonical) : a = b := by
  have hf := Json.canonicalFields_of_canonical
    [text "revisionId", text "objectArtifactContentHash"] rfl rfl (by decide +kernel) h
  simp only [Json.canonicalFields, Ident.canonical_toValue, Json.canonical_str, List.cons.injEq,
    Prod.mk.injEq, Ident.toValue_inj, Json.str.injEq, true_and, and_true] at hf
  cases a
  cases b
  simpa only [RevisionRefV1.mk.injEq] using hf

end RevisionRefV1

/-- Where a capture starts or ends. -/
inductive ReviewEndpoint where
  | gitCommit (commitOid treeOid : Text)
  | gitTree (treeOid : Text)
  | gitIndex (treeOid : Text)
  | gitWorkingTree (worktreeRoot : Text)
deriving DecidableEq

/-- The commit of an endpoint, and its tree. -/
def ReviewEndpoint.commit : ReviewEndpoint → Option (Text × Text)
  | .gitCommit commitOid treeOid => some (commitOid, treeOid)
  | .gitTree _ | .gitIndex _ | .gitWorkingTree _ => none

/-- What a capture compared, with the pathspecs it was limited to. -/
inductive RevisionSource where
  | gitWorktree (pathspecs : List Text)
  | gitCommitRange (pathspecs : List Text)
  | gitRootCommit (pathspecs : List Text)
  | gitStaged (pathspecs : List Text)
  | gitUnstaged (pathspecs : List Text)
deriving DecidableEq

inductive Side where
  | old | new
deriving DecidableEq

/-- What a review fact is about: a Revision, or a place or another fact within one. -/
inductive ReviewTargetRef where
  | revision (revisionId : RevisionId)
  | file (revisionId : RevisionId) (filePath : Text)
  | range (revisionId : RevisionId) (filePath : Text) (side : Side) (startLine endLine : Nat)
  | observation (revisionId : RevisionId) (observationId : ObservationId)
  | inputRequest (revisionId : RevisionId) (inputRequestId : InputRequestId)
  | assessment (revisionId : RevisionId) (assessmentId : AssessmentId)
  | event (revisionId : RevisionId) (eventId : EventId)
deriving DecidableEq

end Pointbreak
