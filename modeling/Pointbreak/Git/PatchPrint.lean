import Pointbreak.Git.Patch

/-!
# Git.PatchPrint

File diffs, how Git prints them, and what should be read back: the specification the patch reader
is compared with. The lemmas say how printed lines start and that none of them contains a line
break.
-/

namespace Pointbreak

open Std List

inductive FileMode where
  | regular | executable | symlink

def FileMode.toText : FileMode → Text
  | .regular => text "100644"
  | .executable => text "100755"
  | .symlink => text "120000"

inductive FileChange where
  | modified (modes : Option (FileMode × FileMode))
  | added (mode : FileMode)
  | deleted (mode : FileMode)

/-- A row, and whether its line is the last of a file that does not end with a line feed. -/
structure RowDiff where
  kind : DiffRowKind
  content : Text
  noNewline : Bool

structure HunkDiff where
  oldStart : UInt32
  newStart : UInt32
  heading : Text
  rows : List RowDiff

structure FileDiff where
  path : Text
  change : FileChange
  oldOid : Text
  newOid : Text
  hunks : List HunkDiff

def DiffRowKind.marker : DiffRowKind → UInt8
  | .context => 32
  | .added => 43
  | .removed => 45

namespace RowDiff

def line (row : RowDiff) : Text := row.kind.marker :: row.content

def lines (row : RowDiff) : List Text :=
  row.line :: if row.noNewline then [text "\\ No newline at end of file"] else []

end RowDiff

namespace HunkDiff

def oldCount (hunk : HunkDiff) : Nat := hunk.rows.countP fun row => row.kind ≠ .added

def newCount (hunk : HunkDiff) : Nat := hunk.rows.countP fun row => row.kind ≠ .removed

/-- A range of lines; a length of one is left out. -/
def range (start count : UInt32) : Text :=
  Text.decimal start ++ if count = 1 then [] else text "," ++ Text.decimal count

def header (hunk : HunkDiff) : Text :=
  text "@@ -" ++ range hunk.oldStart (.ofNat hunk.oldCount) ++ text " +" ++
    range hunk.newStart (.ofNat hunk.newCount) ++ text " @@" ++
    if hunk.heading.isEmpty then [] else text " " ++ hunk.heading

def lines (hunk : HunkDiff) : List Text := hunk.header :: hunk.rows.flatMap RowDiff.lines

end HunkDiff

namespace FileDiff

def modeLines (file : FileDiff) : List Text :=
  match file.change with
  | .modified none => []
  | .modified (some (old, new)) => [text "old mode " ++ old.toText, text "new mode " ++ new.toText]
  | .added mode => [text "new file mode " ++ mode.toText]
  | .deleted mode => [text "deleted file mode " ++ mode.toText]

def oldSide (file : FileDiff) : Text :=
  match file.change with
  | .added _ => text "/dev/null"
  | .modified _ | .deleted _ => text "a/" ++ file.path

def newSide (file : FileDiff) : Text :=
  match file.change with
  | .deleted _ => text "/dev/null"
  | .modified _ | .added _ => text "b/" ++ file.path

def headerLines (file : FileDiff) : List Text :=
  (text "diff --git a/" ++ file.path ++ text " b/" ++ file.path) :: file.modeLines ++
    [text "index " ++ file.oldOid ++ text ".." ++ file.newOid] ++
    if file.hunks.isEmpty then [] else [text "--- " ++ file.oldSide, text "+++ " ++ file.newSide]

def lines (file : FileDiff) : List Text := file.headerLines ++ file.hunks.flatMap HunkDiff.lines

def rows (file : FileDiff) : List RowDiff := file.hunks.flatMap HunkDiff.rows

end FileDiff

def printPatch (files : List FileDiff) : Text := Text.unlines (files.flatMap FileDiff.lines)

def numberRows (oldLine newLine : UInt32) : List RowDiff → List DiffRow
  | [] => []
  | row :: rows =>
    match row.kind with
    | .context =>
      ⟨.context, some oldLine, some newLine, row.content⟩ :: numberRows (oldLine + 1) (newLine + 1) rows
    | .added => ⟨.added, none, some newLine, row.content⟩ :: numberRows oldLine (newLine + 1) rows
    | .removed => ⟨.removed, some oldLine, none, row.content⟩ :: numberRows (oldLine + 1) newLine rows

def HunkDiff.reviewHunk (path : Text) (hunk : HunkDiff) : ReviewHunk where
  id := PatchState.hunkId path hunk.oldStart hunk.newStart
  header := hunk.header
  oldStart := hunk.oldStart
  oldLines := .ofNat hunk.oldCount
  newStart := hunk.newStart
  newLines := .ofNat hunk.newCount
  rows := numberRows hunk.oldStart hunk.newStart hunk.rows

def FileDiff.reviewHunks (file : FileDiff) : List ReviewHunk :=
  file.hunks.map (HunkDiff.reviewHunk file.path)

/-- A path without blanks, quotes or control characters. -/
def isSimplePath (path : Text) : Bool :=
  path.all fun byte => 32 < byte.toNat && byte ≠ 34 && byte ≠ 127

/-- The line numbers of the hunk fit their type, with the one after the last row that the reader
counts on to, and its texts are single lines. -/
structure HunkDiff.WellFormed (hunk : HunkDiff) : Prop where
  oldNumbers : hunk.oldStart.toNat + hunk.oldCount < 2 ^ 32
  newNumbers : hunk.newStart.toNat + hunk.newCount < 2 ^ 32
  heading : 10 ∉ hunk.heading ∧ 13 ∉ hunk.heading
  rows : ∀ row ∈ hunk.rows, 10 ∉ row.content

structure FileDiff.WellFormed (file : FileDiff) : Prop where
  path : isSimplePath file.path = true
  oids : (file.oldOid ++ file.newOid).all Text.isLowerHex = true
  hunks : ∀ hunk ∈ file.hunks, hunk.WellFormed

/-- A patch is read back as it was printed: the same files with the same hunks, each hunk with the
rows its header declares, and every path leads to the hunks of its own file. -/
def CapturedFaithfully (files : List FileDiff) : Prop :=
  ∃ parsed, parsePatch (printPatch files) = .ok parsed ∧
    parsed.map (fun file => (file.key, file.hunks)) =
      files.map (fun file => (.ok file.path, file.reviewHunks)) ∧
    (∀ file ∈ parsed, ∀ hunk ∈ file.hunks,
      hunk.rows.countP (fun row => row.kind ≠ .added) = hunk.oldLines.toNat ∧
      hunk.rows.countP (fun row => row.kind ≠ .removed) = hunk.newLines.toNat) ∧
    ∃ byKey, patchFilesByKey parsed = .ok byKey ∧
      ∀ file ∈ files, (byKey[file.path]?).map (·.hunks) = some file.reviewHunks

/-- A row that is neither taken for a header nor cut. -/
structure RowDiff.Legible (row : RowDiff) : Prop where
  noCr : row.content.getLast? ≠ some 13
  notOld : row.kind = .removed → ¬ text "-- " <+: row.content
  notNew : row.kind = .added → ¬ text "++ " <+: row.content

def noBreaks (line : Text) : Bool := line.all fun byte => byte ≠ 10 && byte ≠ 13

theorem noBreaks_append {a b : Text} :
    noBreaks (a ++ b) = true ↔ noBreaks a = true ∧ noBreaks b = true := by
  rw [noBreaks, all_append, Bool.and_eq_true]
  rfl

variable {line : Text}

theorem not_mem_of_noBreaks (h : noBreaks line = true) : 10 ∉ line ∧ 13 ∉ line := by
  rw [noBreaks, all_eq_true] at h
  exact ⟨fun hm => by simpa using h 10 hm, fun hm => by simpa using h 13 hm⟩

theorem noBreaks_of_not_mem (h : 10 ∉ line ∧ 13 ∉ line) : noBreaks line = true := by
  rw [noBreaks, all_eq_true]
  intro byte hb
  rw [Bool.and_eq_true, decide_eq_true_eq, decide_eq_true_eq]
  exact ⟨fun e => h.1 (e ▸ hb), fun e => h.2 (e ▸ hb)⟩

theorem noBreaks_of_all {p : UInt8 → Bool} (h10 : p 10 = false) (h13 : p 13 = false)
    (h : line.all p = true) : noBreaks line = true := by
  rw [all_eq_true] at h
  refine noBreaks_of_not_mem ⟨fun hm => ?_, fun hm => ?_⟩
  · rw [h 10 hm] at h10
    cases h10
  · rw [h 13 hm] at h13
    cases h13

theorem noBreaks_decimal (n : UInt32) : noBreaks (Text.decimal n) = true :=
  noBreaks_of_all (by decide) (by decide) (Text.all_isDigit_decimal n)

theorem noBreaks_toText (mode : FileMode) : noBreaks mode.toText = true := by
  cases mode <;> decide

theorem noBreaks_range (start count : UInt32) : noBreaks (HunkDiff.range start count) = true := by
  rw [HunkDiff.range, noBreaks_append]
  refine ⟨noBreaks_decimal start, ?_⟩
  split
  · rfl
  · exact noBreaks_append.mpr ⟨by decide, noBreaks_decimal count⟩

theorem HunkDiff.WellFormed.noBreaks_header {hunk : HunkDiff} (h : hunk.WellFormed) :
    noBreaks hunk.header = true := by
  have hliteral : noBreaks (text "@@ -") = true ∧ noBreaks (text " +") = true ∧
      noBreaks (text " @@") = true ∧ noBreaks (text " ") = true := by decide
  rw [HunkDiff.header]
  simp only [noBreaks_append, noBreaks_range, hliteral, true_and]
  split
  · rfl
  · exact noBreaks_append.mpr ⟨hliteral.2.2.2, noBreaks_of_not_mem h.heading⟩

theorem FileDiff.WellFormed.noBreaks_headerLines {file : FileDiff} (h : file.WellFormed) :
    ∀ line ∈ file.headerLines, noBreaks line = true := by
  have hpath : noBreaks file.path = true := noBreaks_of_all (by decide) (by decide) h.path
  have hoids : noBreaks (file.oldOid ++ file.newOid) = true :=
    noBreaks_of_all (by decide) (by decide) h.oids
  rw [noBreaks_append] at hoids
  have hliteral : (noBreaks (text "diff --git a/") && noBreaks (text " b/") &&
      noBreaks (text "old mode ") && noBreaks (text "new mode ") &&
      noBreaks (text "new file mode ") && noBreaks (text "deleted file mode ") &&
      noBreaks (text "index ") && noBreaks (text "..") && noBreaks (text "--- ") &&
      noBreaks (text "+++ ") && noBreaks (text "/dev/null") && noBreaks (text "a/") &&
      noBreaks (text "b/")) = true := by decide
  simp only [Bool.and_eq_true] at hliteral
  have hmodes : ∀ line ∈ file.modeLines, noBreaks line = true := by
    unfold modeLines
    split <;> simp [noBreaks_append, noBreaks_toText, hliteral]
  have hsides : noBreaks file.oldSide = true ∧ noBreaks file.newSide = true := by
    unfold oldSide newSide
    cases file.change <;> simp [noBreaks_append, hliteral, hpath]
  intro line hline
  simp only [headerLines, cons_append, mem_cons, mem_append, not_mem_nil,
    or_false] at hline
  rcases hline with rfl | (hline | rfl) | hline
  · simp [noBreaks_append, hliteral, hpath]
  · exact hmodes line hline
  · simp [noBreaks_append, hliteral, hoids]
  · split at hline
    · cases hline
    · simp only [mem_cons, not_mem_nil, or_false] at hline
      rcases hline with rfl | rfl <;> simp [noBreaks_append, hliteral, hsides]

theorem lines_printPatch {files : List FileDiff} (h : ∀ file ∈ files, file.WellFormed) :
    Text.lines (printPatch files) = (files.flatMap FileDiff.lines).map Text.stripCr := by
  refine Text.lines_unlines ?_
  intro line hline
  rw [mem_flatMap] at hline
  obtain ⟨file, hfile, hline⟩ := hline
  rw [FileDiff.lines, mem_append, mem_flatMap] at hline
  rcases hline with hline | ⟨hunk, hhunk, hline⟩
  · exact (not_mem_of_noBreaks ((h file hfile).noBreaks_headerLines line hline)).1
  · have hwf := (h file hfile).hunks hunk hhunk
    rw [HunkDiff.lines, mem_cons, mem_flatMap] at hline
    rcases hline with rfl | ⟨row, hrow, hline⟩
    · exact (not_mem_of_noBreaks hwf.noBreaks_header).1
    · rw [RowDiff.lines, mem_cons] at hline
      rcases hline with rfl | hline
      · rw [RowDiff.line, mem_cons, not_or]
        exact ⟨by cases row.kind <;> decide, hwf.rows row hrow⟩
      · split at hline
        · rw [mem_singleton] at hline
          subst hline
          decide
        · cases hline

/-- The line starts like the header of the old or the new side of a file. -/
def startsLikeSide (line : Text) : Bool :=
  (text "--- ").isPrefixOf line || (text "+++ ").isPrefixOf line

theorem headerLine_eq_none {a : UInt8} (ha : a ∈ [32, 43, 45, 64, 92, 105]) {s : Text}
    (h : startsLikeSide (a :: s) = false) (file : PatchFile) : headerLine (a :: s) file = none := by
  rw [startsLikeSide, Bool.or_eq_false_iff] at h
  have hold : Text.stripPrefix (text "--- ") (a :: s) = none := by rw [Text.stripPrefix, h.1]; rfl
  have hnew : Text.stripPrefix (text "+++ ") (a :: s) = none := by rw [Text.stripPrefix, h.2]; rfl
  rw [headerLine, hold, hnew]
  -- The other headers start with other letters.
  simp only [mem_cons, not_mem_nil, or_false] at ha
  rcases ha with rfl | rfl | rfl | rfl | rfl | rfl <;> rfl

theorem hunks_of_headerLine {file file' : PatchFile} (h : headerLine line file = some (.ok file')) :
    file'.hunks = file.hunks := by
  have hor : ∀ {x y : Option (PatchResult PatchFile)},
      (x <|> y) = some (.ok file') → x = some (.ok file') ∨ y = some (.ok file') := by
    intro x y hxy
    cases x with
    | none => exact .inr hxy
    | some v => exact .inl hxy
  have hmap : ∀ {lead : Text} {update : Text → PatchResult PatchFile},
      (∀ t, update t = .ok file' → file'.hunks = file.hunks) →
      (Text.stripPrefix lead line).map update = some (.ok file') → file'.hunks = file.hunks := by
    intro lead update hupdate hx
    rw [Option.map_eq_some_iff] at hx
    obtain ⟨t, -, ht⟩ := hx
    exact hupdate t ht
  unfold headerLine at h
  iterate 6
    rcases hor h with h | h
    · refine hmap (fun t ht => ?_) h
      cases ht
      rfl
  rcases hor h with h | h
  · refine hmap (fun t ht => ?_) h
    cases hsim : parseSimilarity t with
    | error e => rw [hsim] at ht; cases ht
    | ok v => rw [hsim] at ht; cases ht; rfl
  iterate 2
    rcases hor h with h | h
    · refine hmap (fun t ht => ?_) h
      cases ht
      rfl
  split at h
  · cases h
    rfl
  · cases h

end Pointbreak
