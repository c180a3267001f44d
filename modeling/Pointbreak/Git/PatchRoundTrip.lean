import Mathlib.Algebra.GroupWithZero.Nat
import Mathlib.Algebra.Order.BigOperators.Group.List
import Mathlib.Algebra.Order.Group.Nat
import Pointbreak.Git.PatchPrint

/-!
# Git.PatchRoundTrip

Reading back what Git prints. A row can start the way a header does, and is then taken for one; and
a carriage return at the end of a row is taken for part of the line ending. `capture_faithful_iff`
says that no other rows are lost.
-/

namespace Pointbreak

open Std FileDiff RowDiff PatchState List

/-! ## How much is read

Every line adds at most one row, of at most its own length, to what has been read, and a line that
starts like a header adds nothing. -/

def rowsWeight (rows : List DiffRow) : Nat := (rows.map fun row => row.text.length + 1).sum

def hunksWeight (hunks : List ReviewHunk) : Nat := (hunks.map fun hunk => rowsWeight hunk.rows).sum

def filesWeight (files : List PatchFile) : Nat := (files.map fun file => hunksWeight file.hunks).sum

def lineWeight (line : Text) : Nat :=
  match line with
  | [] => 0
  | a :: _ =>
    if (a = 32 ∨ a = 43 ∨ a = 45) ∧ startsLikeSide line = false then line.length else 0

namespace PatchState

def weight (s : PatchState) : Nat :=
  filesWeight s.files + filesWeight s.currentFile.toList + hunksWeight s.currentHunk.toList

theorem weight_finishHunk_le (s : PatchState) : s.finishHunk.weight ≤ s.weight := by
  obtain ⟨files, currentFile, currentHunk, oldLine, newLine⟩ := s
  cases currentFile with
  | none => simp [finishHunk, weight, filesWeight, hunksWeight]
  | some file =>
    cases currentHunk with
    | none => exact Nat.le_refl _
    | some hunk =>
      simp [finishHunk, weight, filesWeight, hunksWeight]
      omega

theorem weight_finishFile (s : PatchState) : s.finishFile.weight = s.weight := by
  obtain ⟨files, currentFile, currentHunk, oldLine, newLine⟩ := s
  simp [finishFile, weight, filesWeight]

theorem weight_openFile_le (s : PatchState) (line : Text) : (s.openFile line).weight ≤ s.weight := by
  have hle := s.weight_finishHunk_le
  rw [← weight_finishFile s.finishHunk] at hle
  have heq : (s.openFile line).weight = s.finishHunk.finishFile.weight := by
    simp [openFile, weight, finishFile, filesWeight, hunksWeight]
  omega

variable {line : Text} {s s' : PatchState}

theorem weight_openHunk_le {file : PatchFile} (h : s.openHunk file line = .ok s') :
    s'.weight ≤ s.weight := by
  simp only [openHunk, Result.bind_eq_ok] at h
  obtain ⟨key, -, range, -, ⟨⟩⟩ := h
  have hle := s.weight_finishHunk_le
  have hnone : s.finishHunk.currentHunk = none := by
    unfold finishHunk
    split <;> rfl
  simpa [weight, hnone, hunksWeight, rowsWeight] using hle

theorem readRow_cases {hunk : ReviewHunk} (hs : s.currentHunk = some hunk)
    (h : s.readRow hunk line = .ok s') :
    s' = s ∨ (∃ a rest, line = a :: rest ∧ (a = 32 ∨ a = 43 ∨ a = 45)) ∧
      s'.weight = s.weight + line.length := by
  have hadd : ∀ (row : DiffRow) (oldLine newLine : UInt32),
      ({ s with currentHunk := some { hunk with rows := hunk.rows ++ [row] },
                oldLine := oldLine, newLine := newLine } : PatchState).weight =
        s.weight + (row.text.length + 1) := by
    intro row oldLine newLine
    simp only [weight, hs, hunksWeight, rowsWeight, Option.toList_some, map_cons, map_nil,
      sum_cons, sum_nil, map_append, sum_append]
    omega
  cases line with
  | nil => exact .inl (Except.ok.inj h).symm
  | cons a rest =>
    simp only [readRow] at h
    split_ifs at h with _ _ ha ha ha <;> cases h
    · exact .inl rfl
    · exact .inr ⟨⟨a, rest, rfl, .inl ha⟩, hadd ..⟩
    · exact .inr ⟨⟨a, rest, rfl, .inr (.inl ha)⟩, hadd ..⟩
    · exact .inr ⟨⟨a, rest, rfl, .inr (.inr ha)⟩, hadd ..⟩
    · exact .inl rfl

theorem weight_step_le (h : s.step line = .ok s') : s'.weight ≤ s.weight + lineWeight line := by
  simp only [step] at h
  split at h
  · cases h
    exact Nat.le_add_right_of_le (s.weight_openFile_le line)
  · split at h
    · cases h
      exact Nat.le_add_right ..
    · next file hfile =>
      split at h
      · next updated hheader =>
        cases updated <;> cases h
        have hhunks := hunks_of_headerLine hheader
        simp [weight, hfile, filesWeight, hhunks]
      · next hheader =>
        split at h
        · exact Nat.le_add_right_of_le (weight_openHunk_le h)
        · split at h
          · cases h
            exact Nat.le_add_right ..
          · next hunk hhunk =>
            rcases readRow_cases hhunk h with rfl | ⟨⟨a, rest, rfl, ha⟩, hweight⟩
            · exact Nat.le_add_right ..
            · have hside : startsLikeSide (a :: rest) = false := by
                rw [← Bool.not_eq_true]
                intro hside
                rw [startsLikeSide, Bool.or_eq_true] at hside
                rcases hside with hold | hnew
                · simp [headerLine, Text.stripPrefix, hold] at hheader
                · simp only [headerLine, Text.stripPrefix, hnew] at hheader
                  split at hheader <;> simp at hheader
              rw [hweight, lineWeight, if_pos ⟨ha, hside⟩]

theorem weight_run_le {ls : List Text} (h : ls.foldlM step s = .ok s') :
    s'.weight ≤ s.weight + (ls.map lineWeight).sum := by
  induction ls generalizing s with
  | nil =>
    cases h
    exact Nat.le_add_right ..
  | cons line ls ih =>
    rw [foldlM_cons, Result.bind_eq_ok] at h
    obtain ⟨t, hstep, hrun⟩ := h
    have hline := weight_step_le hstep
    have hrest := ih hrun
    rw [map_cons, sum_cons]
    omega

end PatchState

theorem filesWeight_parsePatch_le {patch : Text} {parsed : List PatchFile}
    (h : parsePatch patch = .ok parsed) :
    filesWeight parsed ≤ ((Text.lines patch).map lineWeight).sum := by
  rw [parsePatch, Result.bind_eq_ok] at h
  obtain ⟨s, hrun, ⟨⟩⟩ := h
  have hle := weight_run_le hrun
  have hinit : PatchState.init.weight = 0 := rfl
  have hclose := s.weight_finishHunk_le
  rw [← weight_finishFile] at hclose
  have hfiles : filesWeight s.finishHunk.finishFile.files ≤ s.finishHunk.finishFile.weight := by
    rw [PatchState.weight, Nat.add_assoc]
    exact Nat.le_add_right ..
  omega

theorem sum_map_flatMap {α β : Type} (f : α → List β) (g : β → Nat) (l : List α) :
    ((l.flatMap f).map g).sum = (l.map fun x => ((f x).map g).sum).sum := by
  induction l with
  | nil => rfl
  | cons x l ih =>
    rw [flatMap_cons, map_append, sum_append, map_cons, sum_cons, ih]

variable {line : Text}

theorem lineWeight_of_startsLikeSide (h : startsLikeSide line = true) : lineWeight line = 0 := by
  cases line with
  | nil => rfl
  | cons a s =>
    rw [lineWeight, h, if_neg]
    rintro ⟨-, hfalse⟩
    cases hfalse

theorem lineWeight_headerLines {file : FileDiff} (h : line ∈ file.headerLines) :
    lineWeight line = 0 := by
  -- The first bytes of a line settle what it weighs, whatever follows them.
  simp only [headerLines, cons_append, append_assoc, mem_cons,
    mem_append, nil_append] at h
  rcases h with rfl | h | rfl | h
  · rfl
  · unfold modeLines at h
    split at h
    · cases h
    · simp only [mem_cons, not_mem_nil, or_false] at h
      rcases h with rfl | rfl <;> rfl
    · rw [mem_singleton.mp h]
      rfl
    · rw [mem_singleton.mp h]
      rfl
  · rfl
  · split at h
    · cases h
    · simp only [mem_cons, not_mem_nil, or_false] at h
      rcases h with rfl | rfl <;> rfl

theorem lineWeight_header (hunk : HunkDiff) : lineWeight hunk.header = 0 := by
  simp only [HunkDiff.header, append_assoc]
  rfl

variable (row : RowDiff)

theorem RowDiff.stripCr_line :
    Text.stripCr row.line = row.kind.marker :: Text.stripCr row.content :=
  Text.stripCr_cons (by cases row.kind <;> decide) row.content

theorem lineWeight_row_le : lineWeight (Text.stripCr row.line) ≤ row.content.length + 1 := by
  have hlength := Text.length_stripCr_le row.content
  rw [stripCr_line, lineWeight]
  split
  · rw [length_cons]
    omega
  · exact Nat.zero_le _

theorem RowDiff.legible_iff {row : RowDiff} : row.Legible ↔
    row.content.getLast? ≠ some 13 ∧ startsLikeSide row.line = false := by
  have hold : text "--- " = 45 :: text "-- " := by decide
  have hnew : text "+++ " = 43 :: text "++ " := by decide
  have hside : startsLikeSide row.line = false ↔ (row.kind = .removed → ¬ text "-- " <+: row.content) ∧
      (row.kind = .added → ¬ text "++ " <+: row.content) := by
    rw [← Bool.not_eq_true, startsLikeSide, Bool.or_eq_true, isPrefixOf_iff_prefix,
      isPrefixOf_iff_prefix, hold, hnew, RowDiff.line, cons_prefix_cons,
      cons_prefix_cons]
    cases row.kind <;> simp [DiffRowKind.marker]
  rw [hside]
  exact ⟨fun h => ⟨h.noCr, h.notOld, h.notNew⟩, fun h => ⟨h.1, h.2.1, h.2.2⟩⟩

/-- A row that is not legible is lost or cut. -/
theorem lineWeight_row_lt {row : RowDiff} (h : ¬ row.Legible) :
    lineWeight (Text.stripCr row.line) < row.content.length + 1 := by
  by_cases hcr : row.content.getLast? = some 13
  · have hlength := Text.length_stripCr_lt hcr
    rw [stripCr_line, lineWeight]
    split
    · rw [length_cons]
      omega
    · exact Nat.succ_pos _
  · have hside : startsLikeSide (Text.stripCr row.line) = true := by
      rw [stripCr_line, Text.stripCr_eq_self hcr, ← RowDiff.line, ← Bool.not_eq_false]
      exact fun hside => h (legible_iff.mpr ⟨hcr, hside⟩)
    rw [lineWeight_of_startsLikeSide hside]
    exact Nat.succ_pos _

theorem sum_lineWeight_row :
    ((row.lines.map Text.stripCr).map lineWeight).sum = lineWeight (Text.stripCr row.line) := by
  unfold RowDiff.lines
  split
  · have hmarker : lineWeight (Text.stripCr (text "\\ No newline at end of file")) = 0 := by
      decide
    simp [hmarker]
  · simp

/-- Only the rows of a patch can be read as rows. -/
theorem sum_lineWeight_printed {files : List FileDiff} (h : ∀ file ∈ files, file.WellFormed) :
    (((files.flatMap FileDiff.lines).map Text.stripCr).map lineWeight).sum =
      ((files.flatMap FileDiff.rows).map fun row => lineWeight (Text.stripCr row.line)).sum := by
  have hstrip : ∀ {line : Text}, noBreaks line = true → lineWeight line = 0 →
      lineWeight (Text.stripCr line) = 0 := by
    intro line hbreaks hzero
    rw [Text.stripCr_of_not_mem (not_mem_of_noBreaks hbreaks).2, hzero]
  rw [map_map, sum_map_flatMap, sum_map_flatMap]
  refine congrArg List.sum (map_congr_left fun file hfile => ?_)
  have hwf := h file hfile
  have hheaders : ((file.headerLines.map (lineWeight ∘ Text.stripCr))).sum = 0 := by
    rw [sum_eq_zero_iff]
    intro weight hweight
    obtain ⟨line, hline, rfl⟩ := mem_map.mp hweight
    exact hstrip (hwf.noBreaks_headerLines line hline) (lineWeight_headerLines hline)
  rw [FileDiff.lines, map_append, sum_append, hheaders, Nat.zero_add, FileDiff.rows,
    sum_map_flatMap, sum_map_flatMap]
  refine congrArg List.sum (map_congr_left fun hunk hhunk => ?_)
  have hheader := hstrip (hwf.hunks hunk hhunk).noBreaks_header (lineWeight_header hunk)
  rw [HunkDiff.lines, map_cons, sum_cons, Function.comp_apply, hheader, Nat.zero_add,
    sum_map_flatMap]
  refine congrArg List.sum (map_congr_left fun row _ => ?_)
  rw [← map_map, sum_lineWeight_row]

theorem rowsWeight_numberRows (oldLine newLine : UInt32) (rows : List RowDiff) :
    rowsWeight (numberRows oldLine newLine rows) =
      (rows.map fun row => row.content.length + 1).sum := by
  induction rows generalizing oldLine newLine with
  | nil => rfl
  | cons row rows ih =>
    rw [numberRows]
    split <;> rw [rowsWeight, map_cons, sum_cons, map_cons, sum_cons] <;>
      exact congrArg _ (ih ..)

theorem hunksWeight_reviewHunks (file : FileDiff) :
    hunksWeight file.reviewHunks = (file.rows.map fun row => row.content.length + 1).sum := by
  rw [FileDiff.rows, sum_map_flatMap, hunksWeight, reviewHunks, map_map]
  refine congrArg List.sum (map_congr_left fun hunk _ => ?_)
  exact rowsWeight_numberRows ..

/-- A patch with an illegible row is not read back: less is read than was printed. -/
theorem legible_of_capturedFaithfully {files : List FileDiff}
    (hwf : ∀ file ∈ files, file.WellFormed) (h : CapturedFaithfully files) :
    ∀ row ∈ files.flatMap FileDiff.rows, row.Legible := by
  obtain ⟨parsed, hparsed, hsame, -⟩ := h
  have hread := filesWeight_parsePatch_le hparsed
  rw [lines_printPatch hwf, sum_lineWeight_printed hwf] at hread
  have hexpected : filesWeight parsed =
      ((files.flatMap FileDiff.rows).map fun row => row.content.length + 1).sum := by
    have hhunks : parsed.map (·.hunks) = files.map reviewHunks := by
      simpa [Function.comp_def] using congrArg (List.map Prod.snd) hsame
    have hweights := congrArg (fun hunks => (hunks.map hunksWeight).sum) hhunks
    simp only [map_map, Function.comp_def, hunksWeight_reviewHunks] at hweights
    rw [filesWeight, sum_map_flatMap]
    exact hweights
  intro row hrow
  by_contra hillegible
  have hlt := sum_lt_sum (fun row => lineWeight (Text.stripCr row.line))
    (fun row => row.content.length + 1) (fun row _ => lineWeight_row_le row)
    ⟨row, hrow, lineWeight_row_lt hillegible⟩
  omega

/-! ## Reading a hunk back -/

theorem parseU32_decimal (what : Text) (n : UInt32) :
    parseU32 what (Text.decimal n) = .ok n := by
  rw [parseU32, Text.parseUnsigned_decimal]
  simp

theorem parseRange_range (sign : UInt8) (start count : UInt32) :
    parseRange (sign :: HunkDiff.range start count) sign = .ok (start, count) := by
  have hstrip : Text.stripPrefix [sign] (sign :: HunkDiff.range start count) =
      some (HunkDiff.range start count) :=
    Text.stripPrefix_append [sign] _
  have hcomma : text "," = [44] := by decide
  have hdigits : (44 : UInt8) ∉ Text.decimal start := Text.not_mem_decimal (by decide) start
  rw [parseRange, hstrip, HunkDiff.range, hcomma]
  dsimp only
  split
  · next hone =>
    have hread : parseU32 (text "invalid range length") (text "1") = .ok 1 := by decide
    rw [append_nil, Text.splitOnce_eq_none hdigits, Option.getD_none, parseU32_decimal, hread,
      hone]
    rfl
  · rw [Text.splitOnce_append hdigits [] (Text.decimal count), Option.getD_some, parseU32_decimal,
      parseU32_decimal]
    rfl

theorem all_isGraphic_range (start count : UInt32) :
    (HunkDiff.range start count).all Text.isGraphic = true := by
  have hdecimal : ∀ n, (Text.decimal n).all Text.isGraphic = true := by
    intro n
    refine all_eq_true.mpr fun byte hbyte => ?_
    have hdigit := all_eq_true.mp (Text.all_isDigit_decimal n) byte hbyte
    rw [Text.isDigit, Bool.and_eq_true, decide_eq_true_eq, decide_eq_true_eq] at hdigit
    rw [Text.isGraphic, Bool.and_eq_true, decide_eq_true_eq, decide_eq_true_eq]
    omega
  rw [HunkDiff.range, all_append, hdecimal, Bool.true_and]
  split
  · rfl
  · rw [all_append, hdecimal, Bool.and_true]
    decide

theorem splitWhitespace_header (hunk : HunkDiff) :
    ∃ rest, Text.splitWhitespace hunk.header =
      text "@@" :: (45 :: HunkDiff.range hunk.oldStart (.ofNat hunk.oldCount)) ::
        (43 :: HunkDiff.range hunk.newStart (.ofNat hunk.newCount)) :: rest := by
  have hliteral : text "@@ -" = text "@@" ++ [32, 45] ∧ text " +" = [32, 43] ∧
      text " @@" = 32 :: text "@@" ∧ text "@@" ≠ [] ∧
      (text "@@").all Text.isGraphic = true ∧ Text.isGraphic 45 = true ∧
      Text.isGraphic 43 = true := by decide
  obtain ⟨hopen, hplus, hclose, hne, hgraphic, hminus, hplusOk⟩ := hliteral
  have hrange : ∀ {sign} start count, Text.isGraphic sign = true →
      (sign :: HunkDiff.range start count).all Text.isGraphic = true := by
    intro sign start count hsign
    rw [all_cons, hsign, all_isGraphic_range, Bool.and_self]
  refine ⟨Text.splitWhitespace (text "@@" ++
    if hunk.heading.isEmpty then [] else text " " ++ hunk.heading), ?_⟩
  rw [HunkDiff.header, hopen, hplus, hclose]
  simp only [append_assoc, cons_append, nil_append]
  rw [Text.splitWhitespace_word hne hgraphic, ← cons_append,
    Text.splitWhitespace_word (cons_ne_nil _ _) (hrange _ _ hminus), ← cons_append,
    Text.splitWhitespace_word (cons_ne_nil _ _) (hrange _ _ hplusOk)]

namespace PatchState

/-- What the machine has, once the hunk it is reading is put to its file. -/
def closed (s : PatchState) : List PatchFile × Option PatchFile := (s.files, s.finishHunk.currentFile)

variable {s : PatchState} {done : List PatchFile}

theorem finishHunk_of_closed {file : Option PatchFile} (h : s.closed = (done, file)) :
    s.finishHunk = { s with files := done, currentFile := file, currentHunk := none } := by
  rw [closed, Prod.mk.injEq] at h
  obtain ⟨rfl, rfl⟩ := h
  unfold finishHunk
  split <;> rfl

variable {file : PatchFile}

theorem currentFile_of_closed (h : s.closed = (done, some file)) :
    ∃ current, s.currentFile = some current ∧ current.key = file.key := by
  rw [closed, Prod.mk.injEq] at h
  obtain ⟨-, h⟩ := h
  unfold finishHunk at h
  split at h
  · next current hunk hcurrent _ =>
    cases h
    exact ⟨current, hcurrent, rfl⟩
  · exact ⟨file, h, rfl⟩

theorem step_of_not_header (hs : s.currentFile = some file) {a : UInt8}
    (ha : a ∈ [32, 43, 45, 64, 92, 105]) {line : Text} (h : startsLikeSide (a :: line) = false) :
    s.step (a :: line) =
      if (text "@@ ").isPrefixOf (a :: line) then s.openHunk file (a :: line)
      else match s.currentHunk with
        | none => .ok s
        | some hunk => s.readRow hunk (a :: line) := by
  have hdiff : (text "diff --git ").isPrefixOf (a :: line) = false := by
    simp only [mem_cons, not_mem_nil, or_false] at ha
    rcases ha with rfl | rfl | rfl | rfl | rfl | rfl <;> rfl
  rw [step, hdiff, hs]
  dsimp only
  rw [headerLine_eq_none ha h]
  rfl

variable {path : Text}

theorem step_header (hs : s.closed = (done, some file)) (hkey : file.key = .ok path)
    (hunk : HunkDiff) :
    s.step hunk.header = .ok {
      files := done, currentFile := some file, oldLine := hunk.oldStart, newLine := hunk.newStart,
      currentHunk := some { hunk.reviewHunk path with rows := [] } } := by
  obtain ⟨current, hcurrent, hcurrentKey⟩ := currentFile_of_closed hs
  have hrange : parseHunkHeader hunk.header =
      .ok ⟨hunk.oldStart, .ofNat hunk.oldCount, hunk.newStart, .ofNat hunk.newCount⟩ := by
    obtain ⟨rest, hsplit⟩ := splitWhitespace_header hunk
    rw [parseHunkHeader, hsplit]
    simp only [getElem?_cons_succ, getElem?_cons_zero, parseRange_range]
    rfl
  obtain ⟨line, hline⟩ : ∃ line, hunk.header = 64 :: 64 :: 32 :: line := by
    simp only [HunkDiff.header, append_assoc]
    exact ⟨_, rfl⟩
  rw [hline] at hrange ⊢
  have hat : (text "@@ ").isPrefixOf (64 :: 64 :: 32 :: line) = true := rfl
  rw [step_of_not_header hcurrent (by decide) rfl, if_pos hat, openHunk, hcurrentKey, hkey,
    hrange, finishHunk_of_closed hs, HunkDiff.reviewHunk, hline]
  rfl

variable {hunk : ReviewHunk}

theorem step_row {row : RowDiff} (hfile : s.currentFile = some file)
    (hhunk : s.currentHunk = some hunk) (h : row.Legible) :
    ∃ numbered oldLine newLine,
      s.step (Text.stripCr row.line) = .ok { s with
        currentHunk := some { hunk with rows := hunk.rows ++ [numbered] }
        oldLine := oldLine, newLine := newLine } ∧
      ∀ rows, numberRows s.oldLine s.newLine (row :: rows) =
        numbered :: numberRows oldLine newLine rows := by
  have hside := (legible_iff.mp h).2
  have hmarker : row.kind.marker ∈ ([32, 43, 45, 64, 92, 105] : List UInt8) := by
    cases row.kind <;> decide
  have hat : (text "@@ ").isPrefixOf row.line = false := by
    rw [RowDiff.line]
    cases row.kind <;> rfl
  rw [stripCr_line, Text.stripCr_eq_self h.noCr]
  rw [RowDiff.line] at hside hat
  rw [step_of_not_header hfile hmarker hside, hat, hhunk]
  -- each kind reads its own numbered row off the step
  cases hkind : row.kind
  all_goals
    refine ⟨_, _, _, rfl, fun rows => ?_⟩
    rw [numberRows, hkind]

theorem step_noNewline (hfile : s.currentFile = some file) (hhunk : s.currentHunk = some hunk) :
    s.step (Text.stripCr (text "\\ No newline at end of file")) = .ok s := by
  have hliteral : Text.stripCr (text "\\ No newline at end of file") =
      92 :: text " No newline at end of file" ∧
      startsLikeSide (92 :: text " No newline at end of file") = false ∧
      (text "@@ ").isPrefixOf (92 :: text " No newline at end of file") = false := by
    decide
  rw [hliteral.1, step_of_not_header hfile (by decide) hliteral.2.1, hliteral.2.2, hhunk]
  rfl

theorem run_row {row : RowDiff} (hfile : s.currentFile = some file)
    (hhunk : s.currentHunk = some hunk) (h : row.Legible) :
    ∃ numbered oldLine newLine,
      (row.lines.map Text.stripCr).foldlM step s = .ok { s with
        currentHunk := some { hunk with rows := hunk.rows ++ [numbered] }
        oldLine := oldLine, newLine := newLine } ∧
      ∀ rows, numberRows s.oldLine s.newLine (row :: rows) =
        numbered :: numberRows oldLine newLine rows := by
  obtain ⟨numbered, oldLine, newLine, hstep, hnumber⟩ := step_row hfile hhunk h
  refine ⟨numbered, oldLine, newLine, ?_, hnumber⟩
  rw [RowDiff.lines, map_cons, foldlM_cons, hstep]
  split
  · have hpass := step_noNewline (s := { s with
      currentHunk := some { hunk with rows := hunk.rows ++ [numbered] }, oldLine, newLine }) hfile rfl
    exact (bind_pure _).trans hpass
  · rfl

theorem run_rows {rows : List RowDiff} (hrows : ∀ row ∈ rows, row.Legible)
    (hfile : s.currentFile = some file) (hhunk : s.currentHunk = some hunk) :
    ∃ oldLine newLine, ((rows.flatMap RowDiff.lines).map Text.stripCr).foldlM step s = .ok {
      s with
      currentHunk := some { hunk with rows := hunk.rows ++ numberRows s.oldLine s.newLine rows }
      oldLine := oldLine, newLine := newLine } := by
  induction rows generalizing s hunk with
  | nil =>
    refine ⟨s.oldLine, s.newLine, ?_⟩
    rw [numberRows, append_nil, ← hhunk]
    rfl
  | cons row rows ih =>
    obtain ⟨numbered, oldLine, newLine, hrow, hnumber⟩ :=
      run_row hfile hhunk (hrows row (.head _))
    obtain ⟨oldLine', newLine', hrest⟩ := ih (fun row hrow => hrows row (.tail _ hrow))
      (s := { s with currentHunk := some { hunk with rows := hunk.rows ++ [numbered] }, oldLine, newLine })
      hfile rfl
    refine ⟨oldLine', newLine', ?_⟩
    rw [flatMap_cons, map_append, foldlM_append, hrow, hnumber]
    refine Eq.trans hrest ?_
    rw [append_assoc]
    rfl

theorem run_hunk (hs : s.closed = (done, some file)) (hkey : file.key = .ok path) {hunk : HunkDiff}
    (hwf : hunk.WellFormed) (hrows : ∀ row ∈ hunk.rows, row.Legible) :
    ∃ s', (hunk.lines.map Text.stripCr).foldlM step s = .ok s' ∧
      s'.closed = (done, some { file with hunks := file.hunks ++ [hunk.reviewHunk path] }) := by
  have hheader := step_header hs hkey hunk
  obtain ⟨oldLine, newLine, hrun⟩ := run_rows hrows (s := {
    files := done, currentFile := some file, oldLine := hunk.oldStart, newLine := hunk.newStart,
    currentHunk := some { hunk.reviewHunk path with rows := [] } }) rfl rfl
  refine ⟨_, Eq.trans ?_ hrun, rfl⟩
  rw [HunkDiff.lines, map_cons, foldlM_cons,
    Text.stripCr_of_not_mem (not_mem_of_noBreaks hwf.noBreaks_header).2, hheader]
  rfl

theorem run_hunks {hunks : List HunkDiff} (hwf : ∀ hunk ∈ hunks, hunk.WellFormed)
    (hrows : ∀ hunk ∈ hunks, ∀ row ∈ hunk.rows, row.Legible) (hs : s.closed = (done, some file))
    (hkey : file.key = .ok path) :
    ∃ s', ((hunks.flatMap HunkDiff.lines).map Text.stripCr).foldlM step s = .ok s' ∧
      s'.closed =
        (done, some { file with hunks := file.hunks ++ hunks.map (HunkDiff.reviewHunk path) }) := by
  induction hunks generalizing s file with
  | nil =>
    refine ⟨s, rfl, ?_⟩
    rw [map_nil, append_nil]
    exact hs
  | cons hunk hunks ih =>
    obtain ⟨t, hrun, ht⟩ := run_hunk hs hkey (hwf hunk (.head _)) (hrows hunk (.head _))
    obtain ⟨s', hrest, hs'⟩ := ih (fun hunk hhunk => hwf hunk (.tail _ hhunk))
      (fun hunk hhunk => hrows hunk (.tail _ hhunk)) ht hkey
    refine ⟨s', ?_, ?_⟩
    · rw [flatMap_cons, map_append, foldlM_append, hrun]
      exact hrest
    · rw [hs', map_cons, append_assoc]
      rfl

end PatchState

section DiffGit

variable {path : Text} (h : 32 ∉ path)

include h

theorem diffGitOldPath_line :
    diffGitOldPath (text "diff --git a/" ++ path ++ text " b/" ++ path) = some path := by
  have hsep : text " b/" = 32 :: [98, 47] := by decide
  rw [diffGitOldPath, append_assoc, append_assoc, Text.stripPrefix_append,
    Option.bind_some, hsep, Text.splitOnce_append h [98, 47] path]
  rfl

theorem diffGitNewPath_line :
    diffGitNewPath (text "diff --git a/" ++ path ++ text " b/" ++ path) = some path := by
  have hsep : text " b/" = 32 :: [98, 47] := by decide
  have hlead : text "diff --git a/" =
      [100, 105, 102, 102, 32, 45, 45, 103, 105, 116, 32, 97, 47] := by decide
  have hsplit : Text.splitOnce [32, 98, 47] (path ++ 32 :: 98 :: 47 :: path) = some (path, path) :=
    Text.splitOnce_append h [98, 47] path
  rw [diffGitNewPath, append_assoc, append_assoc, hsep, hlead]
  simp [Text.splitOnce, Text.stripPrefix, List.isPrefixOf, hsplit]

end DiffGit

namespace PatchState

structure InHeader (s : PatchState) (files : List PatchFile) (oldPath newPath : Option Text) :
    Prop where
  files : s.files = files
  noHunk : s.currentHunk = none
  file : ∃ file, s.currentFile = some file ∧ file.oldPath = oldPath ∧ file.newPath = newPath ∧
    file.hunks = []

namespace InHeader

variable {s : PatchState} {files : List PatchFile} {oldPath newPath : Option Text}
  (h : InHeader s files oldPath newPath)
include h

theorem closed :
    ∃ file, s.closed = (files, some file) ∧ file.oldPath = oldPath ∧ file.newPath = newPath ∧
      file.hunks = [] := by
  obtain ⟨file, hfile, hrest⟩ := h.file
  refine ⟨file, ?_, hrest⟩
  simp [PatchState.closed, finishHunk, h.noHunk, h.files, hfile]

theorem step (line : Text) {oldPath' newPath' : Option Text}
    (hdiff : Text.stripPrefix (text "diff --git ") line = none)
    (hline : ∀ file : PatchFile, file.oldPath = oldPath → file.newPath = newPath →
      ∃ file', headerLine line file = some (.ok file') ∧ file'.oldPath = oldPath' ∧
        file'.newPath = newPath' ∧ file'.hunks = file.hunks) :
    ∃ s', s.step line = .ok s' ∧ InHeader s' files oldPath' newPath' := by
  obtain ⟨file, hfile, hold, hnew, hhunks⟩ := h.file
  obtain ⟨file', hheader, hold', hnew', hhunks'⟩ := hline file hold hnew
  refine ⟨{ s with currentFile := some file' }, ?_, h.files, h.noHunk, file', rfl, hold', hnew',
    hhunks'.trans hhunks⟩
  rw [Text.stripPrefix] at hdiff
  split at hdiff
  · cases hdiff
  · next hinitial =>
    rw [PatchState.step, if_neg hinitial, hfile]
    dsimp only
    rw [hheader]
    rfl

theorem run_modeLines (file : FileDiff) :
    ∃ s', file.modeLines.foldlM PatchState.step s = .ok s' ∧ InHeader s' files oldPath newPath := by
  unfold modeLines
  split
  · exact ⟨s, rfl, h⟩
  · next old new _ =>
    obtain ⟨t, hstep, ht⟩ := h.step (text "old mode " ++ old.toText) rfl
      fun file hfile hfile' => ⟨_, rfl, hfile, hfile', rfl⟩
    obtain ⟨s', hstep', hs'⟩ := ht.step (text "new mode " ++ new.toText) rfl
      fun file hfile hfile' => ⟨_, rfl, hfile, hfile', rfl⟩
    refine ⟨s', ?_, hs'⟩
    rw [foldlM_cons, hstep]
    exact (bind_pure _).trans hstep'
  all_goals
    simp only [foldlM_cons, foldlM_nil, bind_pure]
    exact h.step _ rfl fun file hfile hfile' => ⟨_, rfl, hfile, hfile', rfl⟩

theorem step_index (rest : Text) :
    s.step (text "index " ++ rest) = .ok s := by
  obtain ⟨file, hfile, -⟩ := h.file
  have hline : text "index " ++ rest = 105 :: (text "ndex " ++ rest) := rfl
  have hat : (text "@@ ").isPrefixOf (105 :: (text "ndex " ++ rest)) = false := rfl
  rw [hline, step_of_not_header hfile (by decide) rfl, hat, h.noHunk]
  rfl

theorem run_sides (old new : Text) :
    ∃ s', [text "--- " ++ old, text "+++ " ++ new].foldlM PatchState.step s = .ok s' ∧
      InHeader s' files (parsePatchPath old) (parsePatchPath new) := by
  obtain ⟨t, hstep, ht⟩ := h.step (text "--- " ++ old) rfl
    fun file _ hnew => ⟨_, rfl, rfl, hnew, rfl⟩
  obtain ⟨s', hstep', hs'⟩ := ht.step (text "+++ " ++ new) rfl
    fun file hold _ => ⟨_, rfl, hold, rfl, rfl⟩
  refine ⟨s', ?_, hs'⟩
  rw [foldlM_cons, hstep]
  exact (bind_pure _).trans hstep'

end InHeader

variable {done : List PatchFile} {current : Option PatchFile}

theorem parsePatchPath_sides (file : FileDiff) :
    (parsePatchPath file.newSide).or (parsePatchPath file.oldSide) = some file.path := by
  unfold newSide oldSide
  cases file.change <;> rfl

theorem run_headerLines {s : PatchState} (hs : s.closed = (done, current)) {file : FileDiff}
    (hwf : file.WellFormed) :
    ∃ s' oldPath newPath, file.headerLines.foldlM step s = .ok s' ∧
      InHeader s' (done ++ current.toList) oldPath newPath ∧
      newPath.or oldPath = some file.path := by
  have hpath : 32 ∉ file.path := by
    intro hmem
    have hsimple := all_eq_true.mp hwf.path 32 hmem
    simp at hsimple
  obtain ⟨opened, hdiff, hopen⟩ : ∃ opened,
      s.step (text "diff --git a/" ++ file.path ++ text " b/" ++ file.path) = .ok opened ∧
      InHeader opened (done ++ current.toList) (some file.path) (some file.path) := by
    refine ⟨_, if_pos rfl, ?_⟩
    rw [openFile, finishHunk_of_closed hs, diffGitOldPath_line hpath, diffGitNewPath_line hpath]
    exact ⟨rfl, rfl, _, rfl, rfl, rfl, rfl⟩
  obtain ⟨t, hmodes, ht⟩ := hopen.run_modeLines file
  have hindex : t.step (text "index " ++ file.oldOid ++ text ".." ++ file.newOid) = .ok t := by
    rw [append_assoc, append_assoc]
    exact ht.step_index _
  have hrun : ((text "diff --git a/" ++ file.path ++ text " b/" ++ file.path) :: file.modeLines ++
      [text "index " ++ file.oldOid ++ text ".." ++ file.newOid]).foldlM step s = .ok t := by
    rw [foldlM_append, foldlM_cons, hdiff]
    change (file.modeLines.foldlM step _ >>= _) = _
    rw [hmodes]
    exact (bind_pure _).trans hindex
  rw [headerLines, foldlM_append, hrun]
  split
  · exact ⟨t, some file.path, some file.path, rfl, ht, rfl⟩
  · obtain ⟨s', hsides, hs'⟩ := ht.run_sides file.oldSide file.newSide
    exact ⟨s', _, _, hsides, hs', parsePatchPath_sides file⟩

theorem run_file {s : PatchState} (hs : s.closed = (done, current)) {file : FileDiff}
    (hwf : file.WellFormed) (hrows : ∀ row ∈ file.rows, row.Legible) :
    ∃ s' parsed, (file.lines.map Text.stripCr).foldlM step s = .ok s' ∧
      s'.closed = (done ++ current.toList, some parsed) ∧ parsed.key = .ok file.path ∧
      parsed.hunks = file.reviewHunks := by
  obtain ⟨t, oldPath, newPath, hheader, ht, hpath⟩ := run_headerLines hs hwf
  obtain ⟨opened, hclosed, hold, hnew, hhunks⟩ := ht.closed
  have hkey : opened.key = .ok file.path := by rw [PatchFile.key, hold, hnew, hpath]
  obtain ⟨s', hrun, hs'⟩ := run_hunks hwf.hunks
    (fun hunk hhunk row hrow => hrows row (mem_flatMap.mpr ⟨hunk, hhunk, hrow⟩)) hclosed hkey
  have hstrip : file.headerLines.map Text.stripCr = file.headerLines := by
    refine (map_congr_left fun line hline => ?_).trans (map_id _)
    exact Text.stripCr_of_not_mem (not_mem_of_noBreaks (hwf.noBreaks_headerLines line hline)).2
  refine ⟨s', _, ?_, hs', hkey, ?_⟩
  · rw [FileDiff.lines, map_append, foldlM_append, hstrip, hheader]
    exact hrun
  · rw [hhunks]
    rfl

theorem run_files {files : List FileDiff} (hwf : ∀ file ∈ files, file.WellFormed)
    (hrows : ∀ file ∈ files, ∀ row ∈ file.rows, row.Legible) {s : PatchState}
    (hs : s.closed = (done, current)) :
    ∃ s' parsed, ((files.flatMap FileDiff.lines).map Text.stripCr).foldlM step s = .ok s' ∧
      s'.finishHunk.finishFile.files = done ++ current.toList ++ parsed ∧
      parsed.map (fun file => (file.key, file.hunks)) =
        files.map (fun file => (.ok file.path, file.reviewHunks)) := by
  induction files generalizing s done current with
  | nil =>
    refine ⟨s, [], rfl, ?_, rfl⟩
    rw [finishHunk_of_closed hs, append_nil]
    rfl
  | cons file files ih =>
    obtain ⟨t, first, hrun, ht, hkey, hhunks⟩ := run_file hs (hwf file (.head _))
      (hrows file (.head _))
    obtain ⟨s', rest, hrest, hfiles, hsame⟩ := ih (fun file hfile => hwf file (.tail _ hfile))
      (fun file hfile => hrows file (.tail _ hfile)) ht
    refine ⟨s', first :: rest, ?_, ?_, ?_⟩
    · rw [flatMap_cons, map_append, foldlM_append, hrun]
      exact hrest
    · rw [hfiles]
      simp
    · rw [map_cons, map_cons, hsame, hkey, hhunks]

end PatchState

theorem foldlM_addPatchFile {files : List PatchFile} {paths : List Text}
    (hkeys : files.map PatchFile.key = paths.map .ok) (hnodup : paths.Nodup)
    {byKey : BTreeMap Text PatchFile} (hnew : ∀ path ∈ paths, byKey[path]? = none) :
    ∃ byKey', files.foldlM addPatchFile byKey = .ok byKey' ∧
      (∀ other, other ∉ paths → byKey'[other]? = byKey[other]?) ∧
      ∀ file ∈ files, ∀ path, file.key = .ok path → byKey'[path]? = some file := by
  induction files generalizing paths byKey with
  | nil => exact ⟨byKey, rfl, fun _ _ => rfl, fun _ h => nomatch h⟩
  | cons file files ih =>
    cases paths with
    | nil => cases hkeys
    | cons path paths =>
      rw [map_cons, map_cons, List.cons.injEq] at hkeys
      rw [nodup_cons] at hnodup
      obtain ⟨next, hadd, hnext⟩ : ∃ next, addPatchFile byKey file = .ok next ∧
          ∀ other, next[other]? = if path = other then some file else byKey[other]? := by
        refine ⟨_, by rw [addPatchFile, hkeys.1]; rfl, fun other => ?_⟩
        rw [BTreeMap.get_alter, hnew path (.head _)]
      have hnew' : ∀ other ∈ paths, next[other]? = none := by
        intro other hother
        have hne : path ≠ other := by
          rintro rfl
          exact hnodup.1 hother
        rw [hnext, if_neg hne]
        exact hnew other (.tail _ hother)
      obtain ⟨byKey', hrest, hothers, hfiles⟩ := ih hkeys.2 hnodup.2 hnew'
      refine ⟨byKey', ?_, fun other hother => ?_, fun one hone key hkey => ?_⟩
      · rw [foldlM_cons, hadd]
        exact hrest
      · rw [mem_cons, not_or] at hother
        rw [hothers other hother.2, hnext, if_neg (Ne.symm hother.1)]
      · rcases mem_cons.mp hone with rfl | hone
        · have hpath : path = key := Except.ok.inj (hkeys.1.symm.trans hkey)
          rw [hothers key (hpath ▸ hnodup.1), hnext, if_pos hpath]
        · exact hfiles one hone key hkey

theorem patchFilesByKey_of_same {files : List FileDiff} {parsed : List PatchFile}
    (hpaths : (files.map FileDiff.path).Nodup)
    (hsame : parsed.map (fun file => (file.key, file.hunks)) =
      files.map (fun file => (.ok file.path, file.reviewHunks))) :
    ∃ byKey, patchFilesByKey parsed = .ok byKey ∧
      ∀ file ∈ files, (byKey[file.path]?).map (·.hunks) = some file.reviewHunks := by
  have hkeys : parsed.map PatchFile.key = (files.map FileDiff.path).map .ok := by
    simpa [Function.comp_def] using congrArg (List.map Prod.fst) hsame
  have hempty : ∀ path ∈ files.map FileDiff.path, (∅ : BTreeMap Text PatchFile)[path]? = none := by
    simp
  obtain ⟨byKey, hfold, -, hget⟩ := foldlM_addPatchFile hkeys hpaths hempty
  refine ⟨byKey, hfold, fun file hfile => ?_⟩
  have hmem : ((.ok file.path, file.reviewHunks) : PatchResult Text × List ReviewHunk) ∈
      parsed.map fun file => (file.key, file.hunks) := by
    rw [hsame]
    exact mem_map_of_mem (f := fun file : FileDiff =>
      ((.ok file.path, file.reviewHunks) : PatchResult Text × List ReviewHunk)) hfile
  obtain ⟨one, hone, heq⟩ := mem_map.mp hmem
  rw [Prod.mk.injEq] at heq
  rw [hget one hone file.path heq.1, Option.map_some, heq.2]

/-! ## Rows and headers agree -/

theorem countP_numberRows (p : DiffRowKind → Bool) (oldLine newLine : UInt32)
    (rows : List RowDiff) :
    (numberRows oldLine newLine rows).countP (fun row => p row.kind) =
      rows.countP fun row => p row.kind := by
  induction rows generalizing oldLine newLine with
  | nil => rfl
  | cons row rows ih =>
    rw [numberRows]
    cases hkind : row.kind <;> simp only [countP_cons, hkind, ih]

theorem countP_reviewHunk {hunk : HunkDiff} (h : hunk.WellFormed) (path : Text) :
    (hunk.reviewHunk path).rows.countP (fun row => row.kind ≠ .added) =
        (hunk.reviewHunk path).oldLines.toNat ∧
      (hunk.reviewHunk path).rows.countP (fun row => row.kind ≠ .removed) =
        (hunk.reviewHunk path).newLines.toNat := by
  have hold := countP_numberRows (fun kind => kind ≠ .added) hunk.oldStart hunk.newStart hunk.rows
  have hnew := countP_numberRows (fun kind => kind ≠ .removed) hunk.oldStart hunk.newStart hunk.rows
  constructor
  · rw [HunkDiff.reviewHunk, UInt32.toNat_ofNat',
      Nat.mod_eq_of_lt (Nat.lt_of_le_of_lt (Nat.le_add_left ..) h.oldNumbers)]
    exact hold
  · rw [HunkDiff.reviewHunk, UInt32.toNat_ofNat',
      Nat.mod_eq_of_lt (Nat.lt_of_le_of_lt (Nat.le_add_left ..) h.newNumbers)]
    exact hnew

/-- Patches are read back as they were printed exactly when no row ends with a carriage return, no
removed row starts with `-- ` and no added row starts with `++ `. -/
theorem capture_faithful_iff (files : List FileDiff) (hpaths : (files.map FileDiff.path).Nodup)
    (hwf : ∀ file ∈ files, file.WellFormed) :
    CapturedFaithfully files ↔
      ∀ file ∈ files, ∀ hunk ∈ file.hunks, ∀ row ∈ hunk.rows, row.Legible := by
  constructor
  · intro h file hfile hunk hhunk row hrow
    refine legible_of_capturedFaithfully hwf h row (mem_flatMap.mpr ⟨file, hfile, ?_⟩)
    exact mem_flatMap.mpr ⟨hunk, hhunk, hrow⟩
  · intro h
    have hrows : ∀ file ∈ files, ∀ row ∈ file.rows, row.Legible := by
      intro file hfile row hrow
      obtain ⟨hunk, hhunk, hrow⟩ := mem_flatMap.mp hrow
      exact h file hfile hunk hhunk row hrow
    have hinit : PatchState.init.closed = ([], none) := rfl
    obtain ⟨s, parsed, hrun, hfiles, hsame⟩ := run_files hwf hrows hinit
    refine ⟨parsed, ?_, hsame, ?_, patchFilesByKey_of_same hpaths hsame⟩
    · rw [parsePatch, lines_printPatch hwf, hrun]
      exact congrArg Except.ok hfiles
    · intro file hfile hunk hhunk
      have hmem := mem_map_of_mem (f := fun file : PatchFile => (file.key, file.hunks)) hfile
      rw [hsame, mem_map] at hmem
      obtain ⟨printed, hprinted, heq⟩ := hmem
      rw [Prod.mk.injEq] at heq
      rw [← heq.2, reviewHunks, mem_map] at hhunk
      obtain ⟨source, hsource, rfl⟩ := hhunk
      exact countP_reviewHunk ((hwf printed hprinted).hunks source hsource) printed.path

namespace Recorded

def replacedRow (old new : Text) : HunkDiff where
  oldStart := 3
  newStart := 3
  heading := []
  rows := [⟨.context, text "begin", false⟩, ⟨.removed, old, false⟩, ⟨.added, new, false⟩]

def replacedLine (old new : Text) : FileDiff where
  path := text "schema.sql"
  change := .modified none
  oldOid := text "83db48f"
  newOid := text "bf269f4"
  hunks := [replacedRow old new]

theorem replacedLine_wellFormed {old new : Text} (hold : 10 ∉ old) (hnew : 10 ∉ new) :
    (replacedLine old new).WellFormed where
  path := by
    change isSimplePath (text "schema.sql") = true
    decide
  oids := by
    change (text "83db48f" ++ text "bf269f4").all Text.isLowerHex = true
    decide
  hunks := by
    intro hunk hhunk
    rw [replacedLine, mem_singleton] at hhunk
    subst hhunk
    have hcounts : (replacedRow old new).oldCount = 2 ∧ (replacedRow old new).newCount = 2 :=
      ⟨rfl, rfl⟩
    have hstarts : (replacedRow old new).oldStart.toNat = 3 ∧
        (replacedRow old new).newStart.toNat = 3 := ⟨rfl, rfl⟩
    have hbegin : 10 ∉ text "begin" := by decide
    refine ⟨by omega, by omega, by simp [replacedRow], ?_⟩
    intro row hrow
    simp only [replacedRow, mem_cons, not_mem_nil, or_false] at hrow
    rcases hrow with rfl | rfl | rfl
    · exact hbegin
    · exact hold
    · exact hnew

end Recorded

open Recorded in
/-- Removing an SQL comment prints a row that starts like the header of the old side. The row is
lost, and its text becomes the path of the old side. -/
theorem removed_comment_lost :
    (parsePatch (printPatch [replacedLine (text "-- drop") (text "keep")])).toOption.any
      (fun parsed => parsed.map (·.oldPath) = [some (text "drop")] &&
        parsed.map (fun file => file.hunks.map fun hunk => hunk.rows.map (·.text)) =
          [[[text "begin", text "keep"]]]) = true ∧
    ¬ CapturedFaithfully [replacedLine (text "-- drop") (text "keep")] := by
  refine ⟨by decide +kernel, fun h => ?_⟩
  have hwf : ∀ file ∈ [replacedLine (text "-- drop") (text "keep")], file.WellFormed := by
    intro file hfile
    rw [mem_singleton.mp hfile]
    exact replacedLine_wellFormed (by decide) (by decide)
  have hrow : (⟨.removed, text "-- drop", false⟩ : RowDiff) ∈
      [replacedLine (text "-- drop") (text "keep")].flatMap FileDiff.rows := by
    simp [FileDiff.rows, replacedLine, replacedRow]
  exact (legible_of_capturedFaithfully hwf h _ hrow).notOld rfl (by decide)

open Recorded in
theorem replaced_line_captured :
    CapturedFaithfully [replacedLine (text "- drop") (text "+ keep")] := by
  refine (capture_faithful_iff _ (by decide) ?_).mpr ?_
  · intro file hfile
    rw [mem_singleton.mp hfile]
    exact replacedLine_wellFormed (by decide) (by decide)
  · have hlegible : ∀ row ∈ (replacedRow (text "- drop") (text "+ keep")).rows,
        row.content.getLast? ≠ some 13 ∧
        (row.kind = .removed → ¬ text "-- " <+: row.content) ∧
        (row.kind = .added → ¬ text "++ " <+: row.content) := by decide
    intro file hfile hunk hhunk row hrow
    rw [mem_singleton.mp hfile, replacedLine, mem_singleton] at hhunk
    rw [hhunk] at hrow
    obtain ⟨hcr, hold, hnew⟩ := hlegible row hrow
    exact ⟨hcr, hold, hnew⟩

end Pointbreak
