import Pointbreak.Lib.Lines
import Pointbreak.Model.Ids

/-!
# Git.Patch

Reading the patches Git prints. One machine goes over the lines of a patch; file headers, hunk
headers and rows are told apart by how a line starts.
-/

namespace Pointbreak

open Std

inductive DiffRowKind where
  | context | added | removed
deriving DecidableEq

structure DiffRow where
  kind : DiffRowKind
  oldLine : Option UInt32
  newLine : Option UInt32
  text : Text
deriving DecidableEq

structure ReviewHunk where
  id : Text
  header : Text
  oldStart : UInt32
  oldLines : UInt32
  newStart : UInt32
  newLines : UInt32
  rows : List DiffRow
deriving DecidableEq

structure PatchFile where
  oldPath : Option Text
  newPath : Option Text
  oldMode : Option Text
  newMode : Option Text
  similarity : Option Nat
  isBinary : Bool
  hunks : List ReviewHunk

inductive PatchError where
  | shore (error : ShoreError)
  | panicked (message : Text)

abbrev PatchResult (α : Type) : Type := Except PatchError α

namespace PatchFile

def key (file : PatchFile) : PatchResult Text :=
  match file.newPath.or file.oldPath with
  | some path => .ok path
  | none => .error (.panicked (text "patch file has at least one path"))

end PatchFile

def parsePatchPath (path : Text) : Option Text :=
  if path = text "/dev/null" then none
  else some (((Text.stripPrefix (text "a/") path).or (Text.stripPrefix (text "b/") path)).getD path)

def diffGitOldPath (line : Text) : Option Text :=
  (Text.stripPrefix (text "diff --git a/") line).bind fun tail =>
    (Text.splitOnce (text " b/") tail).map Prod.fst

def diffGitNewPath (line : Text) : Option Text :=
  (Text.splitOnce (text " b/") line).map Prod.snd

structure HunkRange where
  oldStart : UInt32
  oldLines : UInt32
  newStart : UInt32
  newLines : UInt32

/-- A number of the hunk header, or the error that names it. -/
def parseU32 (what number : Text) : PatchResult UInt32 :=
  match Text.parseUnsigned (2 ^ 32) number with
  | .ok value => .ok (.ofNat value)
  | .error error =>
    .error (.shore (.message (what ++ text " " ++ number ++ text ": " ++ error.message)))

def parseRange (range : Text) (sign : UInt8) : PatchResult (UInt32 × UInt32) := do
  let some numbers := Text.stripPrefix [sign] range
    | .error (.shore (.message (text "range " ++ range ++ text " missing prefix " ++ [sign])))
  let (start, lines) := (Text.splitOnce (text ",") numbers).getD (numbers, text "1")
  let start ← parseU32 (text "invalid range start") start
  let lines ← parseU32 (text "invalid range length") lines
  .ok (start, lines)

def parseHunkHeader (header : Text) : PatchResult HunkRange := do
  let parts := Text.splitWhitespace header
  let some old := parts[1]?
    | .error (.shore (.message (text "missing old range in hunk header " ++ header)))
  let some new := parts[2]?
    | .error (.shore (.message (text "missing new range in hunk header " ++ header)))
  let (oldStart, oldLines) ← parseRange old 45
  let (newStart, newLines) ← parseRange new 43
  .ok { oldStart, oldLines, newStart, newLines }

def parseSimilarity (index : Text) : PatchResult Nat :=
  -- trim_end_matches('%')
  match Text.parseUnsigned (2 ^ 16) (index.reverse.dropWhile (· == 37)).reverse with
  | .ok value => .ok value
  | .error error =>
    .error (.shore (.message (text "invalid similarity index " ++ index ++ text ": " ++
      error.message)))

/-- The file after a header line, or nothing when the line is no header. -/
def headerLine (line : Text) (file : PatchFile) : Option (PatchResult PatchFile) :=
  ((Text.stripPrefix (text "--- ") line).map fun path =>
    .ok { file with oldPath := parsePatchPath path }) <|>
  ((Text.stripPrefix (text "+++ ") line).map fun path =>
    .ok { file with newPath := parsePatchPath path }) <|>
  ((Text.stripPrefix (text "old mode ") line).map fun mode =>
    .ok { file with oldMode := some mode }) <|>
  ((Text.stripPrefix (text "new mode ") line).map fun mode =>
    .ok { file with newMode := some mode }) <|>
  ((Text.stripPrefix (text "new file mode ") line).map fun mode =>
    .ok { file with newMode := some mode }) <|>
  ((Text.stripPrefix (text "deleted file mode ") line).map fun mode =>
    .ok { file with oldMode := some mode }) <|>
  ((Text.stripPrefix (text "similarity index ") line).map fun index =>
    (parseSimilarity index).map fun similarity => { file with similarity := some similarity }) <|>
  ((Text.stripPrefix (text "rename from ") line).map fun path =>
    .ok { file with oldPath := some path }) <|>
  ((Text.stripPrefix (text "rename to ") line).map fun path =>
    .ok { file with newPath := some path }) <|>
  (if (text "Binary files ").isPrefixOf line || line = text "GIT binary patch" then
    some (.ok { file with isBinary := true })
  else none)

structure PatchState where
  files : List PatchFile
  currentFile : Option PatchFile
  currentHunk : Option ReviewHunk
  oldLine : UInt32
  newLine : UInt32

namespace PatchState

def init : PatchState where
  files := []
  currentFile := none
  currentHunk := none
  oldLine := 0
  newLine := 0

def finishHunk (s : PatchState) : PatchState :=
  match s.currentFile, s.currentHunk with
  | some file, some hunk =>
    { s with currentFile := some { file with hunks := file.hunks ++ [hunk] }, currentHunk := none }
  | _, _ => { s with currentHunk := none }

def finishFile (s : PatchState) : PatchState :=
  { s with files := s.files ++ s.currentFile.toList, currentFile := none }

def openFile (s : PatchState) (line : Text) : PatchState :=
  { s.finishHunk.finishFile with
    currentFile := some {
      oldPath := diffGitOldPath line, newPath := diffGitNewPath line, oldMode := none,
      newMode := none, similarity := none, isBinary := false, hunks := [] } }

def hunkId (fileKey : Text) (oldStart newStart : UInt32) : Text :=
  fileKey ++ text ":" ++ Text.decimal oldStart ++ text ":" ++ Text.decimal newStart

def openHunk (s : PatchState) (file : PatchFile) (line : Text) : PatchResult PatchState := do
  let fileKey ← file.key
  let range ← parseHunkHeader line
  .ok { s.finishHunk with
    oldLine := range.oldStart
    newLine := range.newStart
    currentHunk := some {
      id := hunkId fileKey range.oldStart range.newStart, header := line,
      oldStart := range.oldStart, oldLines := range.oldLines,
      newStart := range.newStart, newLines := range.newLines, rows := [] } }

/-- A row of the current hunk. The text is cut off after the first byte, which has to be a
character of its own. -/
def readRow (s : PatchState) (hunk : ReviewHunk) (line : Text) : PatchResult PatchState :=
  match line with
  | [] => .ok s
  | marker :: rest =>
    if marker = 92 then .ok s
    else if 128 ≤ marker.toNat then .error (.panicked (text "byte index 1 is not a char boundary"))
    else if marker = 32 then
      .ok { s with
        currentHunk := some { hunk with rows := hunk.rows ++
          [⟨.context, some s.oldLine, some s.newLine, rest⟩] }
        oldLine := s.oldLine + 1, newLine := s.newLine + 1 }
    else if marker = 43 then
      .ok { s with
        currentHunk := some { hunk with rows := hunk.rows ++
          [⟨.added, none, some s.newLine, rest⟩] }
        newLine := s.newLine + 1 }
    else if marker = 45 then
      .ok { s with
        currentHunk := some { hunk with rows := hunk.rows ++
          [⟨.removed, some s.oldLine, none, rest⟩] }
        oldLine := s.oldLine + 1 }
    else .ok s

def step (s : PatchState) (line : Text) : PatchResult PatchState :=
  if (text "diff --git ").isPrefixOf line then .ok (s.openFile line)
  else match s.currentFile with
    | none => .ok s
    | some file =>
      match headerLine line file with
      | some updated => updated.map fun file => { s with currentFile := some file }
      | none =>
        if (text "@@ ").isPrefixOf line then s.openHunk file line
        else match s.currentHunk with
          | none => .ok s
          | some hunk => s.readRow hunk line

end PatchState

def parsePatch (patch : Text) : PatchResult (List PatchFile) := do
  let s ← (Text.lines patch).foldlM PatchState.step .init
  .ok s.finishHunk.finishFile.files

def fillMissing {α : Type} (current next : Option α) : Option α := current.or next

def mergePatchFile (existing next : PatchFile) : PatchFile where
  oldPath := fillMissing existing.oldPath next.oldPath
  newPath := fillMissing existing.newPath next.newPath
  oldMode := fillMissing existing.oldMode next.oldMode
  newMode := fillMissing existing.newMode next.newMode
  similarity := fillMissing existing.similarity next.similarity
  isBinary := existing.isBinary || next.isBinary
  hunks := existing.hunks ++ next.hunks

def addPatchFile (byKey : BTreeMap Text PatchFile) (file : PatchFile) :
    PatchResult (BTreeMap Text PatchFile) := do
  let key ← file.key
  .ok (byKey.alter key fun
    | none => some file
    | some existing => some (mergePatchFile existing file))

def patchFilesByKey (files : List PatchFile) : PatchResult (BTreeMap Text PatchFile) :=
  files.foldlM addPatchFile ∅

end Pointbreak
