import Pointbreak.Event.Envelope

/-!
# Event.Recorded

A SHA-256 known from recorded digests, and events around typed payloads. A journal of such events
asks for the hash only at the values its Changes, claims and ports name themselves by; there it
returns the recorded digest.
-/

namespace Pointbreak

/-- SHA-256 at the canonical texts of the recorded values. -/
def recordedSha (digests : List (Json × Nat)) : Sha256 := fun bytes =>
  match digests.find? fun entry => entry.1.canonical.render = bytes with
  | some entry => Text.hexOf 64 entry.2 []
  | none => Text.hexOf 64 0 []

namespace Recorded

def rev (n : Nat) : RevisionId := ⟨text "rev:" ++ Text.hexOf 2 n []⟩

def artifact (n : Nat) : Text := text "sha256:" ++ Text.hexOf 64 n []

def ref (n : Nat) : RevisionRefV1 where
  revisionId := rev n
  objectArtifactContentHash := artifact n
  revisionId_ok := by
    rw [RevisionId.hasRevPrefix, rev, List.isPrefixOf_iff_prefix]
    exact List.prefix_append ..
  hash_ok := by
    have hlen : (text "sha256:").length = 7 := by decide +kernel
    rw [isPrefixedSha256, artifact, ← hlen, List.drop_left, Bool.and_eq_true,
      List.isPrefixOf_iff_prefix]
    exact ⟨List.prefix_append .., Text.isHexOfLength_hexOf 64 n⟩

def request (n : Nat) : InputRequestId := ⟨text "input-request:" ++ Text.hexOf 2 n []⟩

def assessment (n : Nat) : AssessmentId := ⟨text "assess:" ++ Text.hexOf 2 n []⟩

def actor : ActorId := ⟨text "actor:reviewer"⟩

def track : TrackId := ⟨text "track:main"⟩

def nonce (byte : UInt8) : Vector UInt8 32 := Vector.replicate 32 byte

def claimNonce : Text := lowercaseHex (nonce 0)

def descriptor (n : Nat) : ChangeIdentityDescriptorV1 := .ofNonce (nonce (.ofNat n))

def change (n : Nat) : ChangeId :=
  ⟨text "change:sha256:" ++ Text.hexOf 64
    (if n = 1 then 0x94e12f1e0a87f6a5c34d8a201588b1dabc40690cc1ce34859131335550198e32
      else 0xeb446593267f04aee9fad114dde78178330635846de85424c28dcfdf69bcf5ea) []⟩

def declaration (c : Nat) : Json :=
  claimMaterial (text "change_declared_v1")
    (ChangeDeclaredPayload.coordinates (change c) (descriptor c)) claimNonce

def membership (c r : Nat) : Json := membershipMaterial (change c) (rev r) claimNonce

def relation (c s p : Nat) : Json :=
  ChangeRevisionRelationAssertedPayload.relationMaterial (change c) (ref s) (ref p) .supersedes
    claimNonce

def withdrawal : Json :=
  claimMaterial (text "change_membership_withdrawn_v1")
    (.obj [(text "membershipClaimId", .str (text "change-membership:sha256:" ++ Text.hexOf 64
      0x67746d6cb0fc97248bbc95a19f65487014c2176fe19f8c63a34dc67329b102f0 []))]) claimNonce

/-- The port that carries request `q` on Revision `o` open as request `q'` on Revision `t`. -/
def carry (q o q' t : Nat) : ReviewFactPortedPayload where
  schema := FACT_PORTED_SCHEMA_V1
  version := 1
  portId := ⟨text "pending"⟩
  originRevision := ref o
  originFact := .inputRequest (request q)
  targetRevision := ref t
  relation := .carriedOpenAs
  targetFact := some (.inputRequest (request q'))
  rationaleContentHash := none
  contextChangeId := none

def digests : List (Json × Nat) :=
  [((descriptor 1).toValue, 0x94e12f1e0a87f6a5c34d8a201588b1dabc40690cc1ce34859131335550198e32),
    ((descriptor 2).toValue, 0xeb446593267f04aee9fad114dde78178330635846de85424c28dcfdf69bcf5ea),
    (declaration 1, 0x020ad42879f9477d421a75231ef3e099381f76376cefdcd9bfc473ae2bc0e4d9),
    (declaration 2, 0xb13b7b44a2e5c47064f68eecc88e971574940d4b64d72b6f33058a606393ee69),
    (membership 1 1, 0x67746d6cb0fc97248bbc95a19f65487014c2176fe19f8c63a34dc67329b102f0),
    (membership 1 2, 0x865c9e6a4c721e0b3a56db7a4e0d278b34e0a7385c5ce4bab9a138b894e33227),
    (membership 1 3, 0x997dc0174bb04ad73306550549f6f06c93a8007edd4cdfc7bdf95f21853e0387),
    (membership 2 1, 0x3884900e52f8e7bb9930ed9187777d55bdaa269755a95422a6397f14dbeea2c0),
    (membership 2 2, 0x40479d1b434d61c2286490fcf5235a7968b6ac0b372dfbe181e3a3625471e06b),
    (relation 1 2 1, 0xa4ac1e03db5a3ea6289d2562aaea1a714549b34bce0c157fea03b4cd4de9d153),
    (relation 1 1 2, 0x3731238ecbc0fc3224d0ceaf482f514caec9d7b0c661bb906ad0626f58e5c6da),
    (relation 1 3 2, 0x96df79e52b6257f0087030e7d843233d6bc212ee068c93c124a8a3c383b80d48),
    (relation 2 1 2, 0x05e9dc0185c852e3c49d68dfd97a52d81dada5cf0cbc3fd0b6d38d2b3394b8fb),
    ((carry 1 1 2 2).attributionMaterial actor track,
      0xe943ac098bc8fb730900b72e88a535753491af722f4259674c03874aaf5d33ae),
    ((carry 2 2 3 3).attributionMaterial actor track,
      0x9227a34e426c84410f31c172f18ac6d87b164de76fb0e2886ee954d72fa0d7d8),
    (membership 2 3, 0x19ea247367f202b0d6ddc145c1a5a74756d7049431ae035b12a73585f9840de1),
    (relation 2 3 1, 0x03800c3bdff8a26e64e19bca1a3191e4c9b2e3ce08d859f90cbaa31e2a0d1725),
    (withdrawal, 0xa43ad05aa7b3e3bce979091bac7e91128a690e073342b6489640e20b9f577c26)]

def sha : Sha256 := recordedSha digests

def runtime : Runtime WirePayload := WirePayload.runtime sha

/-- Revision `r`, captured between these endpoints. -/
def captured (r : Nat) (provenance : Option GitProvenance) (supersedes : List RevisionId) :
    WirePayload :=
  .workObjectProposed
    { engagementId := ⟨text "engagement:01"⟩,
      workObject := .revision
        { id := rev r, objectId := ⟨text "obj:" ++ Text.hexOf 2 r []⟩, gitProvenance := provenance }
        (artifact r) supersedes }

def proposed (r : Nat) : WirePayload := captured r none []

def declared (c : Nat) : WirePayload :=
  .changeDeclared
    { schema := CHANGE_DECLARED_SCHEMA_V1, version := 1,
      declarationClaimId :=
        ChangeDeclaredPayload.claimId sha (change c) (descriptor c) claimNonce,
      changeId := change c, identityDescriptor := descriptor c, claimNonce }

def member (c r : Nat) : WirePayload :=
  .changeMembershipAsserted (buildMembershipAsserted sha (change c) (rev r) (nonce 0))

/-- Takes Revision `r` out of Change `c` again. -/
def leaves (c r : Nat) : WirePayload :=
  .changeMembershipWithdrawn (buildMembershipWithdrawn sha
    (buildMembershipAsserted sha (change c) (rev r) (nonce 0)).membershipClaimId (nonce 0))

def supersedes (c s p : Nat) : WirePayload :=
  .changeRevisionRelationAsserted
    (buildRevisionRelationAsserted sha (change c) (ref s) (ref p) (nonce 0))

def assessed (a r : Nat) (verdict : ReviewAssessment) (replaces : List AssessmentId) :
    WirePayload :=
  .reviewAssessmentRecorded
    { assessmentId := assessment a, target := .revision (rev r), assessment := verdict,
      summary := none, summaryContentType := .textPlain, summaryArtifactPath := none,
      summaryContentHash := none, replacesAssessmentIds := replaces, relatedObservationIds := [],
      relatedInputRequestIds := [] }

def opened (q r : Nat) : WirePayload :=
  .inputRequestOpened
    { inputRequestId := request q, target := .revision (rev r), taskTarget := none,
      reasonCode := .manualDecisionRequired, title := text "Ship it?", body := none,
      bodyContentType := .textPlain, bodyArtifactPath := none, bodyContentHash := none }

/-- Response number `n`, to request `q`. -/
def responded (n q : Nat) : WirePayload :=
  .inputRequestResponded
    { inputRequestResponseId := ⟨text "input-request-response:" ++ Text.hexOf 2 n []⟩,
      inputRequestId := request q, revisionId := some (rev 1), taskTarget := none,
      outcome := .approved, reason := none,
      reasonContentType := .textPlain, reasonArtifactPath := none, reasonContentHash := none }

def port (q o q' t : Nat) : ReviewFactPortedPayload :=
  { carry q o q' t with
    portId := ⟨prefixedHash sha IdPrefix.REVIEW_FACT_PORT
      ((carry q o q' t).attributionMaterial actor track)⟩ }

def carried (q o q' t : Nat) : WirePayload := .reviewFactPorted (port q o q' t)

/-- Event number `n`, by the one reviewer on the one track. -/
def event (n : Nat) (payload : WirePayload) : ShoreEvent WirePayload where
  schema := EVENT_SCHEMA
  version := EVENT_VERSION
  eventId := ⟨text "evt:" ++ Text.hexOf 2 n []⟩
  eventType := payload.eventType
  idempotencyKey := text "key:" ++ Text.hexOf 2 n []
  target := { journalId := ⟨text "journal:default"⟩, subjectId := none, trackId := some track }
  writer := { actorId := actor, producer := { name := text "pointbreak", version := text "1" } }
  occurredAt := text "2026-01-01T00:00:00Z"
  payloadHash := artifact n
  assertionMode := .operative
  payload := payload

def journal (n : Nat) : List WirePayload → List (ShoreEvent WirePayload)
  | [] => []
  | payload :: payloads => event n payload :: journal (n + 1) payloads

end Recorded

end Pointbreak
