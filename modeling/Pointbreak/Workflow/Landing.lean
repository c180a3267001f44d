import Pointbreak.Evidence.RelationProof

/-!
# Workflow.Landing

Landing a reviewed Revision: the files of the capture and of the candidate commit are put into
canonical form, an algorithm is selected by looking at the two forms, and the landing goes ahead on
its verdict. `landing_carries_reviewed` says what a verified landing means for the files.
-/

namespace Pointbreak

open Std SemanticRevisionRelationV1 List Result

/-! ## Canonical form of a diff -/

namespace DiffFile

def diffFilePath (file : DiffFile) : Option Text := file.newPath.or file.oldPath

def path (file : DiffFile) : Text := file.diffFilePath.getD []

def canonicalChange (file : DiffFile) : CanonicalChangeV1 :=
  if file.isModeOnly then .modeOnly
  else match file.status with
    | .modified => .modified
    | .added => .added
    | .deleted => .deleted
    | .renamed => .renamed
    | .copied => .copied

def canonicalContentKind (file : DiffFile) : CanonicalContentKindV1 :=
  if file.isSubmodule then .submodule
  else if file.oldMode = some (text "120000") ∨ file.newMode = some (text "120000") then .symlink
  else if file.isBinary then .binary
  else .plain

end DiffFile

section Entries

variable (sha : Sha256)

def pathIdentity (path : Text) : Text := text "sha256:" ++ sha path

/-- The canonical entry of one file. The old side of an addition is erased, and a path the capture
knew as untracked stays untracked. -/
def canonicalEntry (sourceUntrackedPaths : BTreeSet Text) (file : DiffFile) :
    CanonicalRawEntryV1 where
  pathIdentity := pathIdentity sha file.path
  previousPathIdentity :=
    if file.status = .renamed ∨ file.status = .copied then file.oldPath.map (pathIdentity sha)
    else none
  change := file.canonicalChange
  oldOid := if file.status = .added then none else file.oldOid
  newOid := file.newOid
  oldMode := if file.status = .added then none else file.oldMode
  newMode := file.newMode
  oldDecodedSha256 := none
  newDecodedSha256 := none
  contentKind := file.canonicalContentKind
  untracked := file.synthetic || sourceUntrackedPaths.contains (pathIdentity sha file.path)

def canonicalDiffEntriesWithUntrackedPaths (files : List DiffFile)
    (sourceUntrackedPaths : BTreeSet Text) : List CanonicalRawEntryV1 :=
  sortedUnique (files.map (canonicalEntry sha sourceUntrackedPaths))

def canonicalDiffEntries (files : List DiffFile) : List CanonicalRawEntryV1 :=
  canonicalDiffEntriesWithUntrackedPaths sha files ∅

def untrackedPaths (sourceFiles : List DiffFile) : BTreeSet Text :=
  .collect (((sourceFiles.filter (·.synthetic)).filterMap DiffFile.diffFilePath).map
    (pathIdentity sha))

def canonicalCandidateDiffEntries (candidateFiles sourceFiles : List DiffFile) :
    List CanonicalRawEntryV1 :=
  canonicalDiffEntriesWithUntrackedPaths sha candidateFiles (untrackedPaths sha sourceFiles)

end Entries

/-! ## The inputs of a landing -/

/-- What a landing reads from Git. -/
structure LandingGit where
  commitParentOids : Text → Result (List Text)
  isAncestor : Text → Text → Result Bool
  /-- The files changed between two commits, within a scope; with replaced objects or the
  original ones. -/
  commitRangeDiffFiles : (base commit : Text) → (scope : List Text) → (original : Bool) →
    Result (List DiffFile)

structure LandCommitOptions where
  allowExtension : Bool
  provenanceOnly : Bool
  candidateParent : Bool
  expectedProof : Option Text

def sourceModeAndScope : RevisionSource → ProofCaptureModeV1 × List Text
  | .gitWorktree pathspecs => (.combinedWorktree, pathspecs)
  | .gitCommitRange pathspecs => (.commitRange, pathspecs)
  | .gitRootCommit pathspecs => (.root, pathspecs)
  | .gitStaged pathspecs => (.staged, pathspecs)
  | .gitUnstaged pathspecs => (.unstaged, pathspecs)

def endpointTreeish : ReviewEndpoint → Option Text
  | .gitCommit commitOid _ => some commitOid
  | .gitTree treeOid | .gitIndex treeOid => some treeOid
  | .gitWorkingTree _ => none

def canonicalScope (pathspecs : List Text) : List Text :=
  if pathspecs.isEmpty then [text "."] else pathspecs

def pathScopeForGit (pathspecs : List Text) : List Text :=
  pathspecs.filter fun path => path ≠ text "."

def unsupportedParent (reason : Text) : ShoreError :=
  .workflowInputInvalid (reason ++ text
    "; use an ordinary supported landing comparison or capture and review a new Revision")

section Inputs

variable (sha : Sha256) (git : LandingGit)

def parentComparisonBase (provenance : GitProvenance) (candidateCommit : Text) : Result Text := do
  let .gitCommit sourceBase _ := provenance.base
    | .error (unsupportedParent (text "--candidate-parent requires a captured Git commit base"))
  match provenance.source with
  | .gitWorktree _ => .ok ()
  | .gitCommitRange _ => do
    let .gitCommit commitOid _ := provenance.target
      | .error (unsupportedParent (text
          "--candidate-parent requires a single-commit source range"))
    let parents ← git.commitParentOids commitOid
    Result.ensure (parents = [sourceBase]) (unsupportedParent (text
      "--candidate-parent requires a single-commit source whose sole parent is the captured base"))
  | .gitRootCommit _ | .gitStaged _ | .gitUnstaged _ =>
    .error (unsupportedParent (text
      "--candidate-parent supports only combined worktree or single-commit range captures"))
  let [parent] ← git.commitParentOids candidateCommit
    | .error (unsupportedParent (text
        "--candidate-parent requires a candidate with exactly one parent"))
  let ancestor ← git.isAncestor sourceBase parent
  Result.ensure ancestor (unsupportedParent (text
    "the captured base must be a known ancestor of the candidate parent"))
  .ok parent

/-- Nothing is compared: the candidate is recorded as missing. -/
def attributionInputs (provenance : Option GitProvenance) (sourceFiles : List DiffFile) :
    CanonicalProofInputV1 × CanonicalProofInputV1 × Bool :=
  let (captureMode, pathScope, sourceAvailability) :
      ProofCaptureModeV1 × List Text × ProofGitAvailabilityV1 := match provenance with
    | none => (.combinedWorktree, [], .missing)
    | some provenance =>
      ((sourceModeAndScope provenance.source).1, (sourceModeAndScope provenance.source).2,
        .available)
  ({ captureMode, baseOrParent := provenance.bind fun value => endpointTreeish value.base,
     pathScope := canonicalScope pathScope, gitAvailability := sourceAvailability,
     entries := canonicalDiffEntries sha sourceFiles },
   { captureMode, baseOrParent := none, pathScope := canonicalScope pathScope,
     gitAvailability := .missing, entries := [] },
   false)

/-- Whether the candidate is the captured endpoint itself. A working tree has no object id to
compare, so there the frozen entries decide. -/
def exactEndpoint (candidateCommit candidateTree : Text) : ReviewEndpoint → Bool
  | .gitCommit commitOid treeOid => commitOid = candidateCommit || treeOid = candidateTree
  | .gitTree treeOid | .gitIndex treeOid => treeOid = candidateTree
  | .gitWorkingTree _ => true

/-- What the candidate is compared with: the captured base, or its own parent on request. -/
def candidateBaseFor (provenance : GitProvenance) (base candidateCommit : Text)
    (candidateParent : Bool) : Result Text :=
  if candidateParent then parentComparisonBase git provenance candidateCommit else .ok base

def proofInputs (provenance : Option GitProvenance) (sourceFiles : List DiffFile)
    (candidateCommit candidateTree : Text) (candidateParent : Bool) :
    Result (CanonicalProofInputV1 × CanonicalProofInputV1 × Bool) := do
  let provenance ← Result.okOr provenance (.workflowInputInvalid (text
    "the captured Revision has no Git provenance; use --provenance-only"))
  let (captureMode, pathScope) := sourceModeAndScope provenance.source
  let base ← Result.okOr (endpointTreeish provenance.base) (.workflowInputInvalid (text
    "the captured Revision has no immutable Git comparison base; use --provenance-only"))
  let candidateBase ← candidateBaseFor git provenance base candidateCommit candidateParent
  let candidateFiles ← git.commitRangeDiffFiles candidateBase candidateCommit
    (pathScopeForGit pathScope) candidateParent
  .ok
    ({ captureMode, baseOrParent := some base, pathScope := canonicalScope pathScope,
       gitAvailability := .available, entries := canonicalDiffEntries sha sourceFiles },
     { captureMode, baseOrParent := some candidateBase, pathScope := canonicalScope pathScope,
       gitAvailability := .available,
       entries := canonicalCandidateDiffEntries sha candidateFiles sourceFiles },
     exactEndpoint candidateCommit candidateTree provenance.target)

/-! ## Selecting and judging the proof -/

def landingAlgorithm (provenanceOnly exactEndpoint : Bool)
    (source candidate : CanonicalProofInputV1) : RelationProofAlgorithmV1 :=
  if provenanceOnly then .attributionOnly
  else if exactEndpoint ∧ source = candidate then .exactMaterialization
  else if source.captureMode = candidate.captureMode ∧ source.pathScope = candidate.pathScope ∧
      source.entries = candidate.entries then .canonicalEquivalentRewrite
  else if (source.entries.all fun entry => candidate.entries.contains entry) &&
      candidate.entries.any fun entry => !source.entries.contains entry then
    .contentPreservingExtension
  else .canonicalEquivalentRewrite

/-- Whether a landing goes ahead on a proof. -/
def admitLandingProof (options : LandCommitOptions) (proof : RelationProofManifestV1) :
    Result Unit := do
  match proof.result.proofStatus with
  | .verified =>
    if proof.result.semanticRelation = .contentPreservingExtension ∧ ¬ options.allowExtension then
      if options.candidateParent then
        .error (unsupportedParent (text "the candidate adds unreviewed content"))
      else
        .error (.workflowInputInvalid (text
          "the candidate preserves the reviewed scope but adds unreviewed content; retry with --allow-extension or capture a new Revision"))
    else .ok ()
  | .asserted =>
    Result.ensure options.provenanceOnly (.workflowInputInvalid (text
      "landing proof refuted the reviewed-content relation; capture and review a new Revision or record only structural provenance"))
  | .indeterminate =>
    .error (.workflowInputInvalid (text
      "landing proof is indeterminate; use --provenance-only or the structural association command"))
  | .unverified | .refuted =>
    .error (.workflowInputInvalid (text
      "landing proof refuted the reviewed-content relation; capture and review a new Revision or record only structural provenance"))
  Result.ensure (options.expectedProof.all fun expected => expected = proof.evidenceSha256)
    (.workflowInputInvalid (text
      "--expect-proof must match the current preview proof.evidenceSha256"))

/-- `prepare_landing` from where the Revision and the commit are resolved. -/
def prepareLanding (options : LandCommitOptions) (revision : RevisionRefV1)
    (associationId : CommitAssociationId) (provenance : Option GitProvenance)
    (sourceFiles : List DiffFile) (commitOid commitTreeOid : Text) :
    Result RelationProofManifestV1 := do
  let (source, candidate, exactEndpoint) ←
    if options.provenanceOnly then .ok (attributionInputs sha provenance sourceFiles)
    else proofInputs sha git provenance sourceFiles commitOid commitTreeOid options.candidateParent
  let proof ← evaluateRelationProofV1 sha revision associationId
    (landingAlgorithm options.provenanceOnly exactEndpoint source candidate) source candidate
  admitLandingProof options proof
  .ok proof

end Inputs

/-- The inputs of a landing of these files: canonical entries within a canonical scope, and no
candidate where nothing is to be compared. -/
structure LandingInputs (sha : Sha256) (sourceFiles candidateFiles : List DiffFile)
    (provenanceOnly : Bool) (source candidate : CanonicalProofInputV1) : Prop where
  source_entries : source.entries = canonicalDiffEntries sha sourceFiles
  source_scope : ∃ pathspecs, source.pathScope = canonicalScope pathspecs
  candidate_entries : provenanceOnly = false →
    candidate.entries = canonicalCandidateDiffEntries sha candidateFiles sourceFiles
  candidate_missing : provenanceOnly = true → candidate.gitAvailability = .missing

theorem attributionInputs_landingInputs (sha : Sha256) (provenance : Option GitProvenance)
    (sourceFiles candidateFiles : List DiffFile) :
    LandingInputs sha sourceFiles candidateFiles true
      (attributionInputs sha provenance sourceFiles).1
      (attributionInputs sha provenance sourceFiles).2.1 where
  source_entries := rfl
  source_scope := ⟨_, rfl⟩
  candidate_entries := Bool.noConfusion
  candidate_missing := fun _ => rfl

theorem proofInputs_landingInputs {sha : Sha256} {git : LandingGit}
    {provenance : Option GitProvenance} {sourceFiles : List DiffFile}
    {candidateCommit candidateTree : Text} {candidateParent : Bool}
    {source candidate : CanonicalProofInputV1} {exact : Bool}
    (h : proofInputs sha git provenance sourceFiles candidateCommit candidateTree candidateParent =
      .ok (source, candidate, exact)) :
    ∃ base scope candidateFiles,
      git.commitRangeDiffFiles base candidateCommit scope candidateParent = .ok candidateFiles ∧
      LandingInputs sha sourceFiles candidateFiles false source candidate := by
  simp only [proofInputs, bind_eq_ok] at h
  obtain ⟨_, -, _, -, base, -, candidateFiles, hfiles, h⟩ := h
  cases h
  exact ⟨base, _, candidateFiles, hfiles, rfl, ⟨_, rfl⟩, fun _ => rfl, Bool.noConfusion⟩

/-! ## What a verified landing carries -/

/-- What a changed file leaves behind: where it is, what happened to it, and the object and mode
of its new side. -/
def DiffFile.landed (file : DiffFile) : Text × CanonicalChangeV1 × Option Text × Option Text :=
  (file.path, file.canonicalChange, file.newOid, file.newMode)

/-- The paths of these files have different hashes when they are different. -/
def PathsCollisionFree (sha : Sha256) (files : List DiffFile) : Prop :=
  ∀ f ∈ files, ∀ g ∈ files, sha f.path = sha g.path → f.path = g.path

section Landed

variable {sha : Sha256} {sourceFiles candidateFiles : List DiffFile}

theorem mem_canonicalDiffEntries {entry : CanonicalRawEntryV1} :
    entry ∈ canonicalDiffEntries sha sourceFiles ↔
      ∃ f ∈ sourceFiles, canonicalEntry sha ∅ f = entry := by
  rw [canonicalDiffEntries, canonicalDiffEntriesWithUntrackedPaths, mem_sortedUnique, mem_map]

theorem mem_canonicalCandidateDiffEntries {entry : CanonicalRawEntryV1} :
    entry ∈ canonicalCandidateDiffEntries sha candidateFiles sourceFiles ↔
      ∃ g ∈ candidateFiles, canonicalEntry sha (untrackedPaths sha sourceFiles) g = entry := by
  rw [canonicalCandidateDiffEntries, canonicalDiffEntriesWithUntrackedPaths, mem_sortedUnique,
    mem_map]

theorem canonicalEntry_mem {f : DiffFile} (hf : f ∈ sourceFiles) :
    canonicalEntry sha ∅ f ∈ canonicalDiffEntries sha sourceFiles :=
  mem_canonicalDiffEntries.mpr ⟨f, hf, rfl⟩

theorem nodup_map_landed {files : List DiffFile} (h : (files.map DiffFile.path).Nodup) :
    (files.map DiffFile.landed).Nodup := by
  have hfst : (files.map DiffFile.landed).map Prod.fst = files.map DiffFile.path := by
    rw [map_map]
    rfl
  exact List.Nodup.of_map Prod.fst (hfst ▸ h)

section Paths

variable (hsha : PathsCollisionFree sha (sourceFiles ++ candidateFiles))
include hsha

theorem landed_eq_of_canonicalEntry {f g : DiffFile}
    (hf : f ∈ sourceFiles) (hg : g ∈ candidateFiles) {untracked untracked' : BTreeSet Text}
    (h : canonicalEntry sha untracked f = canonicalEntry sha untracked' g) :
    f.landed = g.landed := by
  simp only [canonicalEntry, CanonicalRawEntryV1.mk.injEq, pathIdentity,
    append_cancel_left_eq] at h
  obtain ⟨hpath, -, hchange, -, hoid, -, hmode, -⟩ := h
  have hpaths : f.path = g.path :=
    hsha f (mem_append_left _ hf) g (mem_append_right _ hg) hpath
  rw [DiffFile.landed, DiffFile.landed, hpaths, hchange, hoid, hmode]

theorem perm_landed_of_entries_eq (hsource : (sourceFiles.map DiffFile.path).Nodup)
    (hcandidate : (candidateFiles.map DiffFile.path).Nodup)
    (h : canonicalDiffEntries sha sourceFiles =
      canonicalCandidateDiffEntries sha candidateFiles sourceFiles) :
    (sourceFiles.map DiffFile.landed).Perm (candidateFiles.map DiffFile.landed) := by
  rw [perm_ext_iff_of_nodup (nodup_map_landed hsource) (nodup_map_landed hcandidate)]
  intro landed
  simp only [mem_map]
  constructor
  · rintro ⟨f, hf, rfl⟩
    have hentry : canonicalEntry sha ∅ f ∈ _ := canonicalEntry_mem hf
    rw [h, mem_canonicalCandidateDiffEntries] at hentry
    obtain ⟨g, hg, hgf⟩ := hentry
    exact ⟨g, hg, (landed_eq_of_canonicalEntry hsha hf hg hgf.symm).symm⟩
  · rintro ⟨g, hg, rfl⟩
    have hentry : canonicalEntry sha (untrackedPaths sha sourceFiles) g ∈ _ :=
      mem_canonicalCandidateDiffEntries.mpr ⟨g, hg, rfl⟩
    rw [← h, mem_canonicalDiffEntries] at hentry
    obtain ⟨f, hf, hfg⟩ := hentry
    exact ⟨f, hf, landed_eq_of_canonicalEntry hsha hf hg hfg⟩

variable (hsubset : canonicalDiffEntries sha sourceFiles ⊆
    canonicalCandidateDiffEntries sha candidateFiles sourceFiles)
include hsubset

theorem exists_landed_of_subset {f : DiffFile} (hf : f ∈ sourceFiles) :
    ∃ g ∈ candidateFiles, g.landed = f.landed ∧
      canonicalEntry sha (untrackedPaths sha sourceFiles) g = canonicalEntry sha ∅ f := by
  have hentry := hsubset (canonicalEntry_mem hf)
  obtain ⟨g, hg, hgf⟩ := mem_canonicalCandidateDiffEntries.mp hentry
  exact ⟨g, hg, (landed_eq_of_canonicalEntry hsha hf hg hgf.symm).symm, hgf⟩

/-- What an extension adds is at paths the review did not touch. The entry of a reviewed path is
the reviewed one, because the candidate has one file for each path. -/
theorem added_iff (hcandidate : (candidateFiles.map DiffFile.path).Nodup)
    (entry : CanonicalRawEntryV1) :
    (entry ∈ canonicalCandidateDiffEntries sha candidateFiles sourceFiles ∧
      entry ∉ canonicalDiffEntries sha sourceFiles) ↔
    ∃ g ∈ candidateFiles, canonicalEntry sha (untrackedPaths sha sourceFiles) g = entry ∧
      g.path ∉ sourceFiles.map DiffFile.path := by
  rw [mem_canonicalCandidateDiffEntries, mem_canonicalDiffEntries]
  constructor
  · rintro ⟨⟨g, hg, rfl⟩, hnew⟩
    refine ⟨g, hg, rfl, fun hpath => hnew ?_⟩
    obtain ⟨f, hf, hfg⟩ := mem_map.mp hpath
    obtain ⟨g', hg', hlanded, hentry⟩ := exists_landed_of_subset hsha hsubset hf
    have hpaths : g'.path = g.path := (congrArg Prod.fst hlanded).trans hfg
    rw [inj_on_of_nodup_map hcandidate hg' hg hpaths] at hentry
    exact ⟨f, hf, hentry.symm⟩
  · rintro ⟨g, hg, rfl, hpath⟩
    refine ⟨⟨g, hg, rfl⟩, ?_⟩
    rintro ⟨f, hf, hfg⟩
    have hlanded := landed_eq_of_canonicalEntry hsha hf hg hfg
    exact hpath (mem_map.mpr ⟨f, hf, congrArg Prod.fst hlanded⟩)

end Paths

theorem comparable_of_landing {source : CanonicalProofInputV1}
    (havailable : source.gitAvailability = .available)
    (hentries : source.entries = canonicalDiffEntries sha sourceFiles)
    (hscope : ∃ pathspecs, source.pathScope = canonicalScope pathspecs)
    (hscopes : ∀ scope ∈ source.pathScope, scope ≠ []) : Comparable source where
  available := havailable
  pathScope := by
    obtain ⟨pathspecs, h⟩ := hscope
    rw [h, canonicalScope]
    split
    · exact cons_ne_nil _ _
    · next hne => simpa using hne
  scopes := hscopes
  entries := by
    intro entry hentry
    rw [hentries, mem_canonicalDiffEntries] at hentry
    obtain ⟨f, -, rfl⟩ := hentry
    exact append_ne_nil_of_left_ne_nil (by decide +kernel) _

end Landed

section Verified

variable {sha : Sha256} {sourceFiles candidateFiles : List DiffFile}
  {provenanceOnly exactEndpoint : Bool} {source candidate : CanonicalProofInputV1}
  (hinputs : LandingInputs sha sourceFiles candidateFiles provenanceOnly source candidate)

include hinputs

theorem compared_of_available (havailable : candidate.gitAvailability = .available) :
    provenanceOnly = false := by
  rw [← Bool.not_eq_true]
  intro h
  cases havailable.symm.trans (hinputs.candidate_missing h)

theorem verified_landing_carries {revision : RevisionRefV1} {associationId : CommitAssociationId}
    {proof : RelationProofManifestV1}
    (hsource : (sourceFiles.map DiffFile.path).Nodup)
    (hcandidate : (candidateFiles.map DiffFile.path).Nodup)
    (hsha : PathsCollisionFree sha (sourceFiles ++ candidateFiles))
    (hproof : evaluateRelationProofV1 sha revision associationId
      (landingAlgorithm provenanceOnly exactEndpoint source candidate) source candidate = .ok proof)
    (hverified : proof.result.proofStatus = .verified) :
    ((proof.result.semanticRelation = .exactMaterialization ∨
        proof.result.semanticRelation = .equivalentRewrite) →
      (sourceFiles.map DiffFile.landed).Perm (candidateFiles.map DiffFile.landed)) ∧
    (proof.result.semanticRelation = .contentPreservingExtension →
      (∀ f ∈ sourceFiles, ∃ g ∈ candidateFiles, g.landed = f.landed) ∧
      ∀ entry, entry ∈ proof.result.additions ↔
        ∃ g ∈ candidateFiles, canonicalEntry sha (untrackedPaths sha sourceFiles) g = entry ∧
          g.path ∉ sourceFiles.map DiffFile.path) := by
  obtain ⟨_, heq, hresult⟩ := evaluateRelationProofV1_eq_ok sha revision associationId
    (landingAlgorithm provenanceOnly exactEndpoint source candidate) source candidate
  cases heq.symm.trans hproof
  rw [hresult] at hverified ⊢
  dsimp only at hverified ⊢
  obtain ⟨-, hc, hpreserves⟩ := (relationProofResult_verified_iff ..).mp hverified
  have hentries := hinputs.candidate_entries (compared_of_available hinputs hc.available)
  have hperm : source.entries = candidate.entries →
      (sourceFiles.map DiffFile.landed).Perm (candidateFiles.map DiffFile.landed) := by
    rw [hinputs.source_entries, hentries]
    exact perm_landed_of_entries_eq hsha hsource hcandidate
  have hmem := mem_additions_of_verified hverified
  simp only [mem_sortedUnique, hmem]
  rw [relationProofResult_semanticRelation]
  generalize landingAlgorithm provenanceOnly exactEndpoint source candidate = algorithm
    at hpreserves
  cases algorithm with
  | exactMaterialization =>
    exact ⟨fun _ => hperm (congrArg _ hpreserves), noConfusion⟩
  | canonicalEquivalentRewrite =>
    exact ⟨fun _ => hperm hpreserves.2.2, noConfusion⟩
  | contentPreservingExtension =>
    have hsubset : source.entries ⊆ candidate.entries := hpreserves.2.2.1
    rw [hinputs.source_entries, hentries] at hsubset
    refine ⟨(Or.elim · noConfusion noConfusion), fun _ => ⟨fun f hf => ?_, fun entry => ?_⟩⟩
    · obtain ⟨g, hg, hlanded, -⟩ := exists_landed_of_subset hsha hsubset hf
      exact ⟨g, hg, hlanded⟩
    · rw [AddsEntry, hinputs.source_entries, hentries, ← added_iff hsha hsubset hcandidate]
      exact and_iff_right rfl
  | attributionOnly => exact hpreserves.elim

theorem verified_of_same_entries (revision : RevisionRefV1) (associationId : CommitAssociationId)
    (hs : source.gitAvailability = .available) (hc : candidate.gitAvailability = .available)
    (hmode : source.captureMode = candidate.captureMode)
    (hscope : source.pathScope = candidate.pathScope)
    (hscopes : ∀ scope ∈ source.pathScope, scope ≠ [])
    (hsame : source.entries = candidate.entries) :
    ∃ proof,
      evaluateRelationProofV1 sha revision associationId
        (landingAlgorithm provenanceOnly exactEndpoint source candidate) source candidate =
        .ok proof ∧
      proof.result.proofStatus = .verified := by
  obtain ⟨evaluated, heq, hresult⟩ := evaluateRelationProofV1_eq_ok sha revision associationId
    (landingAlgorithm provenanceOnly exactEndpoint source candidate) source candidate
  refine ⟨evaluated, heq, ?_⟩
  rw [hresult]
  refine (relationProofResult_verified_iff ..).mpr ?_
  have hsourceOk := comparable_of_landing hs hinputs.source_entries hinputs.source_scope hscopes
  have hcandidateOk : Comparable candidate :=
    ⟨hc, hscope ▸ hsourceOk.pathScope, hscope ▸ hscopes, hsame ▸ hsourceOk.entries⟩
  refine ⟨hsourceOk, hcandidateOk, ?_⟩
  rw [landingAlgorithm, compared_of_available hinputs hc]
  simp only [Bool.false_eq_true, if_false]
  split
  · next h => exact h.2
  · rw [if_pos ⟨hmode, hscope, hsame⟩]
    exact ⟨hmode, hscope, hsame⟩

end Verified

/-- A verified landing carries the reviewed content: the same paths with the same change and the
same new side, or those and additions at other paths. A landing that compares equal is verified. -/
theorem landing_carries_reviewed (sha : Sha256) (sourceFiles candidateFiles : List DiffFile)
    (hsource : (sourceFiles.map DiffFile.path).Nodup)
    (hcandidate : (candidateFiles.map DiffFile.path).Nodup)
    (hsha : PathsCollisionFree sha (sourceFiles ++ candidateFiles))
    (provenanceOnly exactEndpoint : Bool) (source candidate : CanonicalProofInputV1)
    (hinputs : LandingInputs sha sourceFiles candidateFiles provenanceOnly source candidate)
    (revision : RevisionRefV1) (associationId : CommitAssociationId) :
    (∀ proof,
      evaluateRelationProofV1 sha revision associationId
        (landingAlgorithm provenanceOnly exactEndpoint source candidate) source candidate =
        .ok proof →
      proof.result.proofStatus = .verified →
      ((proof.result.semanticRelation = .exactMaterialization ∨
          proof.result.semanticRelation = .equivalentRewrite) →
        (sourceFiles.map DiffFile.landed).Perm (candidateFiles.map DiffFile.landed)) ∧
      (proof.result.semanticRelation = .contentPreservingExtension →
        (∀ f ∈ sourceFiles, ∃ g ∈ candidateFiles, g.landed = f.landed) ∧
        ∀ entry, entry ∈ proof.result.additions ↔
          ∃ g ∈ candidateFiles, canonicalEntry sha (untrackedPaths sha sourceFiles) g = entry ∧
            g.path ∉ sourceFiles.map DiffFile.path)) ∧
    (source.gitAvailability = .available → candidate.gitAvailability = .available →
      source.captureMode = candidate.captureMode → source.pathScope = candidate.pathScope →
      (∀ scope ∈ source.pathScope, scope ≠ []) → source.entries = candidate.entries →
      ∃ proof,
        evaluateRelationProofV1 sha revision associationId
          (landingAlgorithm provenanceOnly exactEndpoint source candidate) source candidate =
          .ok proof ∧
        proof.result.proofStatus = .verified) := by
  constructor
  · intro proof hproof hverified
    exact verified_landing_carries hinputs hsource hcandidate hsha hproof hverified
  · intro hs hc hmode hscope hscopes hsame
    exact verified_of_same_entries hinputs revision associationId hs hc hmode hscope hscopes hsame

section Prepared

variable {sha : Sha256} {git : LandingGit} {options : LandCommitOptions} {revision : RevisionRefV1}
  {associationId : CommitAssociationId} {provenance : Option GitProvenance}
  {sourceFiles : List DiffFile} {commitOid commitTreeOid : Text} {proof : RelationProofManifestV1}

theorem admitLandingProof_eq_ok (h : admitLandingProof options proof = .ok ()) :
    (∀ expected ∈ options.expectedProof, expected = proof.evidenceSha256) ∧
    (proof.result.proofStatus = .asserted ∧ options.provenanceOnly = true ∨
      proof.result.proofStatus = .verified ∧
        (proof.result.semanticRelation = .contentPreservingExtension →
          options.allowExtension = true)) := by
  have hcheck : ∀ {admitted : Result Unit}, (admitted >>= fun _ =>
      Result.ensure (options.expectedProof.all fun expected => expected = proof.evidenceSha256)
        (.workflowInputInvalid (text
          "--expect-proof must match the current preview proof.evidenceSha256"))) = .ok () →
      admitted = .ok () ∧ ∀ expected ∈ options.expectedProof, expected = proof.evidenceSha256 := by
    intro admitted h
    obtain ⟨_, hadmitted, hexpected⟩ := bind_eq_ok.mp h
    refine ⟨hadmitted, fun expected hmem => ?_⟩
    rw [ensure_eq_ok, hmem] at hexpected
    exact of_decide_eq_true hexpected
  simp only [admitLandingProof] at h
  split at h
  · next hverified =>
    split at h
    · split at h <;> cases (hcheck h).1
    · next hno => exact ⟨(hcheck h).2, .inr ⟨hverified, by simpa using hno⟩⟩
  · next hasserted =>
    exact ⟨(hcheck h).2, .inl ⟨hasserted, ensure_eq_ok.mp (hcheck h).1⟩⟩
  · cases (hcheck h).1
  · cases (hcheck h).1
  · cases (hcheck h).1

theorem prepareLanding_eq_ok
    (h : prepareLanding sha git options revision associationId provenance sourceFiles commitOid
      commitTreeOid = .ok proof) :
    ∃ source candidate exactEndpoint candidateFiles,
      LandingInputs sha sourceFiles candidateFiles options.provenanceOnly source candidate ∧
      (options.provenanceOnly = false → ∃ base scope,
        git.commitRangeDiffFiles base commitOid scope options.candidateParent =
          .ok candidateFiles) ∧
      evaluateRelationProofV1 sha revision associationId
        (landingAlgorithm options.provenanceOnly exactEndpoint source candidate) source candidate =
        .ok proof ∧
      admitLandingProof options proof = .ok () := by
  cases hcompare : options.provenanceOnly with
  | true =>
    simp only [prepareLanding, hcompare, if_true, bind_eq_ok] at h
    obtain ⟨_, hinputs, _, hproof, _, hadmit, h⟩ := h
    cases h
    cases hinputs
    exact ⟨_, _, _, [], attributionInputs_landingInputs sha provenance sourceFiles [],
      Bool.noConfusion, hproof, hadmit⟩
  | false =>
    simp only [prepareLanding, hcompare, Bool.false_eq_true, if_false, bind_eq_ok] at h
    obtain ⟨⟨source, candidate, exactEndpoint⟩, hinputs, _, hproof, _, hadmit, h⟩ := h
    cases h
    obtain ⟨base, scope, candidateFiles, hfiles, hlanding⟩ := proofInputs_landingInputs hinputs
    exact ⟨source, candidate, exactEndpoint, candidateFiles, hlanding,
      fun _ => ⟨base, scope, hfiles⟩, hproof, hadmit⟩

/-- A prepared landing has the proof that was expected. Either only provenance was asked for and
nothing is verified, or the commit carries what was reviewed: just that, or more where an extension
was allowed. -/
theorem prepared_landing_carries
    (hsource : (sourceFiles.map DiffFile.path).Nodup)
    (h : prepareLanding sha git options revision associationId provenance sourceFiles commitOid
      commitTreeOid = .ok proof) :
    (∀ expected ∈ options.expectedProof, expected = proof.evidenceSha256) ∧
    (proof.result.proofStatus = .asserted ∧ options.provenanceOnly = true ∨
      ∃ base scope candidateFiles,
        git.commitRangeDiffFiles base commitOid scope options.candidateParent =
          .ok candidateFiles ∧
        ((candidateFiles.map DiffFile.path).Nodup →
          PathsCollisionFree sha (sourceFiles ++ candidateFiles) →
          (sourceFiles.map DiffFile.landed).Perm (candidateFiles.map DiffFile.landed) ∨
          options.allowExtension = true ∧
            ∀ f ∈ sourceFiles, ∃ g ∈ candidateFiles, g.landed = f.landed)) := by
  obtain ⟨source, candidate, exactEndpoint, candidateFiles, hinputs, hfiles, hproof, hadmit⟩ :=
    prepareLanding_eq_ok h
  obtain ⟨hpinned, hasserted | ⟨hverified, hallowed⟩⟩ := admitLandingProof_eq_ok hadmit
  · exact ⟨hpinned, .inl hasserted⟩
  obtain ⟨_, heq, hresult⟩ := evaluateRelationProofV1_eq_ok sha revision associationId
    (landingAlgorithm options.provenanceOnly exactEndpoint source candidate) source candidate
  cases heq.symm.trans hproof
  have hpreserved := hverified
  rw [hresult] at hpreserved
  obtain ⟨-, hc, hpreserves⟩ := (relationProofResult_verified_iff ..).mp hpreserved
  obtain ⟨base, scope, hdiff⟩ := hfiles (compared_of_available hinputs hc.available)
  refine ⟨hpinned, .inr ⟨base, scope, candidateFiles, hdiff, fun hcandidate hsha => ?_⟩⟩
  obtain ⟨hsame, hextended⟩ :=
    verified_landing_carries hinputs hsource hcandidate hsha hproof hverified
  rw [hresult, relationProofResult_semanticRelation] at hsame hextended hallowed
  generalize landingAlgorithm options.provenanceOnly exactEndpoint source candidate = algorithm
    at hpreserves hsame hextended hallowed
  cases algorithm with
  | exactMaterialization => exact .inl (hsame (.inl rfl))
  | canonicalEquivalentRewrite => exact .inl (hsame (.inr rfl))
  | contentPreservingExtension => exact .inr ⟨hallowed rfl, (hextended rfl).1⟩
  | attributionOnly => exact hpreserves.elim

end Prepared

namespace Recorded

/-- A file the capture found outside the index. -/
def untrackedFile : DiffFile where
  status := .added
  oldPath := none
  newPath := some (text "src/new.rs")
  oldMode := none
  newMode := some (text "100644")
  oldOid := none
  newOid := some (text "blob")
  isBinary := false
  isSubmodule := false
  isModeOnly := false
  synthetic := true

/-- The same file once it is committed: Git spells the absent side with zeros and no longer calls
the file untracked. -/
def committedFile : DiffFile :=
  { untrackedFile with
    oldMode := some (text "000000"), oldOid := some (text "0000000"), synthetic := false }

def landingInput (entries : List CanonicalRawEntryV1) : CanonicalProofInputV1 where
  captureMode := .combinedWorktree
  baseOrParent := some (text "base")
  pathScope := canonicalScope []
  gitAvailability := .available
  entries := entries

end Recorded

open Recorded in
theorem untracked_file_lands :
    ([untrackedFile].map DiffFile.landed).Perm ([committedFile].map DiffFile.landed) := by
  let sha : Sha256 := Text.lowercaseHex
  let source := landingInput (canonicalDiffEntries sha [untrackedFile])
  let candidate := landingInput (canonicalCandidateDiffEntries sha [committedFile] [untrackedFile])
  have hrun : ∃ proof, evaluateRelationProofV1 sha (ref 1) association
      (landingAlgorithm false true source candidate) source candidate = .ok proof ∧
      proof.result.proofStatus = .verified ∧
      proof.result.semanticRelation = .exactMaterialization := by decide +kernel
  obtain ⟨proof, hproof, hverified, hexact⟩ := hrun
  have hsha : PathsCollisionFree sha ([untrackedFile] ++ [committedFile]) := by
    unfold PathsCollisionFree
    decide +kernel
  have hinputs : LandingInputs sha [untrackedFile] [committedFile] false source candidate :=
    ⟨rfl, ⟨[], rfl⟩, fun _ => rfl, Bool.noConfusion⟩
  exact ((landing_carries_reviewed sha [untrackedFile] [committedFile] (by decide) (by decide) hsha
    false true source candidate hinputs (ref 1) association).1 proof hproof hverified).1 (.inl hexact)

end Pointbreak
