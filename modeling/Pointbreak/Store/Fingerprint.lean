import Pointbreak.Git.Patch
import Pointbreak.Lib.JsonDecode
import Pointbreak.Model.File
import Pointbreak.Store.Recorded

/-!
# Store.Fingerprint

The id of a captured object is the hash of what its files say: their paths, status and flags, and
the kinds and texts of their rows. Two captures have one id exactly when they say the same, file by
file, in whatever order (`object_identity_iff`).
-/

namespace Pointbreak

open Std

/-- A changed file with its hunks. -/
structure CapturedFile extends DiffFile where
  hunks : List ReviewHunk
deriving DecidableEq

@[ext]
structure ContentOnlyRow where
  kind : DiffRowKind
  text : Text
deriving DecidableEq

@[ext]
structure ContentOnlyFile where
  path : Option Text
  oldPath : Option Text
  status : FileStatus
  isBinary : Bool
  isSubmodule : Bool
  isModeOnly : Bool
  synthetic : Bool
  rows : List ContentOnlyRow
deriving DecidableEq

def contentOnlyFile (file : CapturedFile) : ContentOnlyFile where
  path := file.newPath
  oldPath := file.oldPath
  status := file.status
  isBinary := file.isBinary
  isSubmodule := file.isSubmodule
  isModeOnly := file.isModeOnly
  synthetic := file.synthetic
  rows := (file.hunks.flatMap (·.rows)).map fun row => ⟨row.kind, row.text⟩

def DiffRowKind.asStr : DiffRowKind → Text
  | .context => text "context"
  | .added => text "added"
  | .removed => text "removed"

def FileStatus.asStr : FileStatus → Text
  | .modified => text "modified"
  | .added => text "added"
  | .deleted => text "deleted"
  | .renamed => text "renamed"
  | .copied => text "copied"

def contentOnlyRowValue (row : ContentOnlyRow) : Json :=
  .obj [(text "kind", .str row.kind.asStr), (text "text", .str row.text)]

def optionalStr (value : Option Text) : Json := (value.map Json.str).getD .null

def ContentOnlyFile.toValue (file : ContentOnlyFile) : Json :=
  .obj [(text "path", optionalStr file.path),
    (text "old_path", optionalStr file.oldPath),
    (text "status", .str file.status.asStr),
    (text "is_binary", .bool file.isBinary),
    (text "is_submodule", .bool file.isSubmodule),
    (text "is_mode_only", .bool file.isModeOnly),
    (text "synthetic", .bool file.synthetic),
    (text "rows", .arr (file.rows.map contentOnlyRowValue))]

def ContentOnlyFile.pathCmp : ContentOnlyFile → ContentOnlyFile → Ordering :=
  compareLex (compareOn ContentOnlyFile.path) (compareOn ContentOnlyFile.oldPath)

instance : TransCmp ContentOnlyFile.pathCmp := inferInstanceAs (TransCmp (compareLex _ _))

def ContentOnlyFile.pathLE (a b : ContentOnlyFile) : Prop := (a.pathCmp b).isLE = true

instance : DecidableRel ContentOnlyFile.pathLE := fun _ _ => inferInstanceAs (Decidable (_ = true))

/-- What is hashed: the projected files, sorted by path. -/
def contentOnlyObject (files : List CapturedFile) : Json :=
  .obj [(text "schema", .str (text "shore.object-identity")), (text "version", .num 1),
    (text "files", .arr (((files.map contentOnlyFile).insertionSort ContentOnlyFile.pathLE).map
      ContentOnlyFile.toValue))]

def objectIdentity (sha : Sha256) (files : List CapturedFile) : ObjectId :=
  ⟨prefixedHash sha (text "obj") (contentOnlyObject files)⟩

theorem DiffRowKind.asStr_injective : Function.Injective DiffRowKind.asStr := by
  intro a b h
  cases a <;> cases b <;> first | rfl | cases h

theorem FileStatus.asStr_injective : Function.Injective FileStatus.asStr := by
  intro a b h
  cases a <;> cases b <;> first | rfl | cases h

theorem canonical_optionalStr_inj {a b : Option Text}
    (h : (optionalStr a).canonical = (optionalStr b).canonical) : a = b := by
  cases a <;> cases b <;> simp_all [optionalStr, Json.canonical]

theorem contentOnlyRowValue_inj {a b : ContentOnlyRow}
    (h : (contentOnlyRowValue a).canonical = (contentOnlyRowValue b).canonical) : a = b := by
  have hf := Json.canonicalFields_of_canonical [text "kind", text "text"] rfl rfl
    (by decide +kernel) h
  simp only [Json.canonicalFields, Json.canonical_str, List.cons.injEq, Prod.mk.injEq,
    Json.str.injEq, true_and, and_true] at hf
  exact ContentOnlyRow.ext (DiffRowKind.asStr_injective hf.1) hf.2

theorem ContentOnlyFile.toValue_inj {a b : ContentOnlyFile}
    (h : a.toValue.canonical = b.toValue.canonical) : a = b := by
  have hf := Json.canonicalFields_of_canonical [text "path", text "old_path", text "status",
    text "is_binary", text "is_submodule", text "is_mode_only", text "synthetic", text "rows"] rfl rfl
    (by decide +kernel) h
  simp only [Json.canonicalFields, List.cons.injEq, Prod.mk.injEq, true_and, and_true,
    Json.canonical, Json.str.injEq, Json.bool.injEq] at hf
  obtain ⟨hpath, hold, hstatus, hbinary, hsubmodule, hmode, hsynthetic, hrows⟩ := hf
  rw [← Json.canonical_arr, ← Json.canonical_arr] at hrows
  exact ContentOnlyFile.ext (canonical_optionalStr_inj hpath) (canonical_optionalStr_inj hold)
    (FileStatus.asStr_injective hstatus) hbinary hsubmodule hmode hsynthetic
    (Json.arr_map_canonical_inj (fun _ _ => contentOnlyRowValue_inj) hrows)

theorem contentOnlyObject_inj {files files' : List CapturedFile}
    (h : (contentOnlyObject files).canonical = (contentOnlyObject files').canonical) :
    (files.map contentOnlyFile).insertionSort ContentOnlyFile.pathLE =
      (files'.map contentOnlyFile).insertionSort ContentOnlyFile.pathLE := by
  have hf := Json.canonicalFields_of_canonical [text "schema", text "version", text "files"] rfl rfl
    (by decide +kernel) h
  simp only [Json.canonicalFields, List.cons.injEq, Prod.mk.injEq, true_and, and_true] at hf
  exact Json.arr_map_canonical_inj (fun _ _ => ContentOnlyFile.toValue_inj) hf

theorem sorted_eq_iff {files files' : List CapturedFile}
    (hpaths : (files.map fun file => (file.newPath, file.oldPath)).Nodup) :
    (files.map contentOnlyFile).insertionSort ContentOnlyFile.pathLE =
        (files'.map contentOnlyFile).insertionSort ContentOnlyFile.pathLE ↔
      (files.map contentOnlyFile).Perm (files'.map contentOnlyFile) := by
  constructor
  · intro h
    have hperm := List.perm_insertionSort ContentOnlyFile.pathLE (files.map contentOnlyFile)
    rw [h] at hperm
    exact hperm.symm.trans (List.perm_insertionSort _ _)
  · intro hperm
    refine insertionSort_congr ContentOnlyFile.pathCmp (fun _ _ => Iff.rfl) hperm ?_
    intro a ha b hb heq
    obtain ⟨file, hfile, rfl⟩ := List.mem_map.mp ha
    obtain ⟨file', hfile', rfl⟩ := List.mem_map.mp hb
    rw [ContentOnlyFile.pathCmp, compareLex_eq_eq] at heq
    have hsame : (file.newPath, file.oldPath) = (file'.newPath, file'.oldPath) :=
      Prod.ext (LawfulEqOrd.eq_of_compare heq.1) (LawfulEqOrd.eq_of_compare heq.2)
    rw [List.inj_on_of_nodup_map hpaths hfile hfile' hsame]

/-- Two captures have one id exactly when their files say the same, up to their order. Positions,
modes and object ids do not count. -/
theorem object_identity_iff (sha : Sha256) (files files' : List CapturedFile)
    (hpaths : (files.map fun file => (file.newPath, file.oldPath)).Nodup)
    (hsha : CollisionFree sha [contentOnlyObject files, contentOnlyObject files']) :
    (objectIdentity sha files = objectIdentity sha files' ↔
      (files.map contentOnlyFile).Perm (files'.map contentOnlyFile)) ∧
    ∀ a b : CapturedFile, contentOnlyFile a = contentOnlyFile b ↔
      a.newPath = b.newPath ∧ a.oldPath = b.oldPath ∧ a.status = b.status ∧
      a.isBinary = b.isBinary ∧ a.isSubmodule = b.isSubmodule ∧ a.isModeOnly = b.isModeOnly ∧
      a.synthetic = b.synthetic ∧
      (a.hunks.flatMap (·.rows)).map (fun row => ContentOnlyRow.mk row.kind row.text) =
        (b.hunks.flatMap (·.rows)).map fun row => ContentOnlyRow.mk row.kind row.text := by
  refine ⟨?_, fun a b => ?_⟩
  · rw [← sorted_eq_iff hpaths]
    constructor
    · intro h
      exact contentOnlyObject_inj
        (hsha.of_prefixedHash (by simp) (by simp) (congrArg Ident.asStr h))
    · intro h
      rw [objectIdentity, objectIdentity, contentOnlyObject, contentOnlyObject, h]
  · exact ContentOnlyFile.ext_iff

namespace Fingerprinted

open StoreRecorded (checksum)

def hunk (start : UInt32) (rows : List DiffRow) : ReviewHunk :=
  ⟨text "hunk", text "@@", start, 1, start, 1, rows⟩

def file (path mode : Text) (hunks : List ReviewHunk) : CapturedFile where
  status := .modified
  oldPath := some path
  newPath := some path
  oldMode := some mode
  newMode := some mode
  oldOid := none
  newOid := none
  isBinary := false
  isSubmodule := false
  isModeOnly := false
  synthetic := false
  hunks := hunks

/-- Two files, one of them in two hunks. -/
def capture : List CapturedFile :=
  [file (text "a") (text "100644") [hunk 1 [⟨.added, none, some 1, text "x"⟩],
      hunk 9 [⟨.removed, some 9, none, text "y"⟩]],
    file (text "b") (text "100644") []]

/-- The same rows in one hunk, the files in the other order and with other modes. -/
def recapture : List CapturedFile :=
  [file (text "b") (text "100755") [],
    file (text "a") (text "100755") [hunk 4 [⟨.added, none, some 4, text "x"⟩,
      ⟨.removed, some 5, none, text "y"⟩]]]

theorem recapture_has_one_id :
    capture ≠ recapture ∧
      objectIdentity checksum capture = objectIdentity checksum recapture := by
  have hrun : capture ≠ recapture ∧
      (capture.map fun file => (file.newPath, file.oldPath)).Nodup ∧
      (capture.map contentOnlyFile).Perm (recapture.map contentOnlyFile) ∧
      (capture.map contentOnlyFile).insertionSort ContentOnlyFile.pathLE =
        (recapture.map contentOnlyFile).insertionSort ContentOnlyFile.pathLE := by
    decide +kernel
  obtain ⟨hne, hpaths, hperm, hsorted⟩ := hrun
  have hobject : contentOnlyObject recapture = contentOnlyObject capture := by
    rw [contentOnlyObject, contentOnlyObject, hsorted]
  refine ⟨hne, (object_identity_iff checksum capture recapture hpaths ?_).1.mpr hperm⟩
  rw [hobject]
  intro v hv w hw _
  simp only [List.mem_cons, List.not_mem_nil, or_false, or_self] at hv hw
  rw [hv, hw]

end Fingerprinted

end Pointbreak
