import Pointbreak.Lib.Text

/-!
# Lib.Lines

Reading a text line by line: splitting it into lines and words, stripping what a line starts with,
and decimal numbers. Each reader comes with the lemma that it reads back what was written.
-/

namespace Text

open List

/-- A carriage return before the line feed belongs to the line ending. -/
def stripCr (line : Text) : Text := if line.getLast? = some 13 then line.dropLast else line

/-- `str::lines`, with the bytes of the current line in reverse. -/
def linesFrom (line : Text) : Text → List Text
  | [] => if line.isEmpty then [] else [line.reverse]
  | byte :: rest =>
    if byte = 10 then stripCr line.reverse :: linesFrom [] rest else linesFrom (byte :: line) rest

def lines (s : Text) : List Text := linesFrom [] s

def unlines (ls : List Text) : Text := ls.flatMap fun line => line ++ [10]

variable {l : Text}

theorem linesFrom_append (h : 10 ∉ l) (line rest : Text) :
    linesFrom line (l ++ rest) = linesFrom (l.reverse ++ line) rest := by
  induction l generalizing line with
  | nil => rfl
  | cons byte l ih =>
    rw [mem_cons, not_or] at h
    rw [cons_append, linesFrom, if_neg (Ne.symm h.1), ih h.2, reverse_cons,
      append_assoc]
    rfl

theorem lines_unlines {ls : List Text} (h : ∀ l ∈ ls, 10 ∉ l) :
    lines (unlines ls) = ls.map stripCr := by
  induction ls with
  | nil => rfl
  | cons l ls ih =>
    have hl := h l (.head _)
    have hls : ∀ l ∈ ls, 10 ∉ l := fun l' hl' => h l' (.tail _ hl')
    rw [lines, unlines, flatMap_cons, append_assoc, linesFrom_append hl,
      singleton_append, linesFrom, if_pos rfl, append_nil, reverse_reverse,
      map_cons]
    exact congrArg _ (ih hls)

theorem stripCr_eq_self (h : l.getLast? ≠ some 13) : stripCr l = l := by
  rw [stripCr, if_neg h]

theorem stripCr_of_not_mem (h : 13 ∉ l) : stripCr l = l := by
  refine stripCr_eq_self fun hlast => h ?_
  exact mem_of_getLast? hlast

variable {a : UInt8}

theorem stripCr_cons (ha : a ≠ 13) (l : Text) : stripCr (a :: l) = a :: stripCr l := by
  cases l with
  | nil =>
    rw [stripCr_eq_self (by simpa using ha)]
    rfl
  | cons b l =>
    rw [stripCr, stripCr, getLast?_cons_cons]
    split <;> rfl

theorem length_stripCr_le (l : Text) : (stripCr l).length ≤ l.length := by
  rw [stripCr]
  split
  · rw [length_dropLast]
    exact Nat.sub_le ..
  · exact Nat.le_refl _

theorem length_stripCr_lt (h : l.getLast? = some 13) : (stripCr l).length < l.length := by
  have hne : l ≠ [] := by
    rintro rfl
    cases h
  have hpos := length_pos_iff.mpr hne
  rw [stripCr, if_pos h, length_dropLast]
  omega

/-- `strip_prefix`. -/
def stripPrefix (lead s : Text) : Option Text :=
  if lead.isPrefixOf s then some (s.drop lead.length) else none

@[simp] theorem stripPrefix_append (lead s : Text) : stripPrefix lead (lead ++ s) = some s := by
  rw [stripPrefix, if_pos ( isPrefixOf_iff_prefix.mpr (prefix_append ..)), drop_left]

theorem stripPrefix_cons_of_ne {a b : UInt8} (h : a ≠ b) (lead s : Text) :
    stripPrefix (a :: lead) (b :: s) = none := by
  simp [stripPrefix, List.isPrefixOf, h]

/-- `split_once`: at the first occurrence. -/
def splitOnce (sep : Text) : Text → Option (Text × Text)
  | [] => if sep.isEmpty then some ([], []) else none
  | byte :: s =>
    match stripPrefix sep (byte :: s) with
    | some rest => some ([], rest)
    | none => (splitOnce sep s).map fun parts => (byte :: parts.1, parts.2)

theorem splitOnce_append (h : a ∉ l) (sep rest : Text) :
    splitOnce (a :: sep) (l ++ (a :: sep ++ rest)) = some (l, rest) := by
  induction l with
  | nil => rw [nil_append, cons_append, splitOnce, ← cons_append, stripPrefix_append]
  | cons b l ih =>
    rw [mem_cons, not_or] at h
    rw [cons_append, splitOnce, stripPrefix_cons_of_ne h.1, ih h.2]
    rfl

theorem splitOnce_eq_none {s : Text} (h : a ∉ s) (sep : Text) : splitOnce (a :: sep) s = none := by
  induction s with
  | nil => rfl
  | cons b s ih =>
    rw [mem_cons, not_or] at h
    rw [splitOnce, stripPrefix_cons_of_ne h.1, ih h.2]
    rfl

/-- The width of the blank a text starts with, zero when it starts with none. -/
def blankWidth : Text → Nat
  | [] => 0
  | [a] => if isAsciiBlank a then 1 else 0
  | [a, b] => if isAsciiBlank a then 1 else if isTwoByteBlank a b then 2 else 0
  | a :: b :: c :: _ =>
    if isAsciiBlank a then 1 else if isTwoByteBlank a b then 2
    else if isThreeByteBlank a b c then 3 else 0

def word (reversed : Text) : List Text := if reversed.isEmpty then [] else [reversed.reverse]

/-- `split_whitespace`, with the bytes of a blank still to be skipped and the bytes of the current
word in reverse. -/
def wordsFrom (skip : Nat) (current : Text) : Text → List Text
  | [] => word current
  | byte :: rest =>
    match skip with
    | skip + 1 => wordsFrom skip current rest
    | 0 =>
      match blankWidth (byte :: rest) with
      | 0 => wordsFrom 0 (byte :: current) rest
      | width + 1 => word current ++ wordsFrom width [] rest

def splitWhitespace (s : Text) : List Text := wordsFrom 0 [] s

def isGraphic (byte : UInt8) : Bool := 33 ≤ byte.toNat && byte.toNat ≤ 126

theorem blankWidth_of_isGraphic (h : isGraphic a = true) (s : Text) : blankWidth (a :: s) = 0 := by
  rw [isGraphic, Bool.and_eq_true, decide_eq_true_eq, decide_eq_true_eq] at h
  have hascii : isAsciiBlank a = false := by
    have hne : a ≠ 32 := by
      rintro rfl
      exact absurd h.1 (by decide)
    simp only [isAsciiBlank, beq_eq_false_iff_ne.mpr hne, Bool.false_or]
    simp
    omega
  have hbyte : ∀ k : UInt8, 128 ≤ k.toNat → (a == k) = false := by
    intro k hk
    refine beq_eq_false_iff_ne.mpr ?_
    rintro rfl
    omega
  have htwo : ∀ b, isTwoByteBlank a b = false := by
    intro b
    simp [isTwoByteBlank, hbyte 0xC2 (by decide)]
  have hthree : ∀ b c, isThreeByteBlank a b c = false := by
    intro b c
    simp [isThreeByteBlank, hbyte 0xE1 (by decide), hbyte 0xE2 (by decide), hbyte 0xE3 (by decide)]
  rcases s with _ | ⟨b, _ | ⟨c, s⟩⟩
  · simp [blankWidth, hascii]
  · simp [blankWidth, hascii, htwo]
  · simp [blankWidth, hascii, htwo, hthree]

theorem blankWidth_space (s : Text) : blankWidth (32 :: s) = 1 := by
  rcases s with _ | ⟨b, _ | ⟨c, s⟩⟩ <;> rfl

theorem wordsFrom_append {w : Text} (h : w.all isGraphic = true) (current rest : Text) :
    wordsFrom 0 current (w ++ rest) = wordsFrom 0 (w.reverse ++ current) rest := by
  induction w generalizing current with
  | nil => rfl
  | cons a w ih =>
    rw [all_cons, Bool.and_eq_true] at h
    rw [cons_append, wordsFrom, blankWidth_of_isGraphic h.1, ih h.2, reverse_cons,
      append_assoc]
    rfl

theorem splitWhitespace_word {w : Text} (hw : w ≠ []) (h : w.all isGraphic = true) (rest : Text) :
    splitWhitespace (w ++ 32 :: rest) = w :: splitWhitespace rest := by
  have hne : (w.reverse ++ []).isEmpty = false := by simpa using hw
  rw [splitWhitespace, wordsFrom_append h, wordsFrom, blankWidth_space, word, hne]
  simp [splitWhitespace]

def digit (n : Nat) : UInt8 := .ofNat (48 + n)

def digitsOf : Nat → Nat → Text → Text
  | 0, _, rest => rest
  | len + 1, n, rest =>
    if n < 10 then digit n :: rest else digitsOf len (n / 10) (digit (n % 10) :: rest)

/-- An unsigned number of 32 bits in decimal. -/
def decimal (n : UInt32) : Text := digitsOf 10 n.toNat []

inductive ParseIntError where
  | empty | invalidDigit | posOverflow

def ParseIntError.message : ParseIntError → Text
  | .empty => text "cannot parse integer from empty string"
  | .invalidDigit => text "invalid digit found in string"
  | .posOverflow => text "number too large to fit in target type"

/-- Read digits below a bound, after those already read. -/
def parseDigits (bound value : Nat) : Text → Except ParseIntError Nat
  | [] => .ok value
  | byte :: rest =>
    if 48 ≤ byte.toNat ∧ byte.toNat ≤ 57 then
      if 10 * value + (byte.toNat - 48) < bound then
        parseDigits bound (10 * value + (byte.toNat - 48)) rest
      else .error .posOverflow
    else .error .invalidDigit

/-- `from_str` of an unsigned integer type: a leading plus sign is allowed. -/
def parseUnsigned (bound : Nat) (s : Text) : Except ParseIntError Nat :=
  match s with
  | [] => .error .empty
  | 43 :: byte :: rest => parseDigits bound 0 (byte :: rest)
  | digits => parseDigits bound 0 digits

theorem toNat_digit {n : Nat} (h : n < 10) : (digit n).toNat = 48 + n := by
  rw [digit, UInt8.toNat_ofNat']
  omega

theorem parseDigits_digit {bound value d : Nat} (hd : d < 10) (h : 10 * value + d < bound)
    (rest : Text) :
    parseDigits bound value (digit d :: rest) = parseDigits bound (10 * value + d) rest := by
  have hdigit := toNat_digit hd
  rw [parseDigits, hdigit, if_pos (by omega), Nat.add_sub_cancel_left, if_pos h]

theorem parseDigits_digitsOf {bound : Nat} (len : Nat) {n : Nat} (hlen : n < 10 ^ len)
    (hbound : n < bound) (rest : Text) :
    parseDigits bound 0 (digitsOf len n rest) = parseDigits bound n rest := by
  induction len generalizing n rest with
  | zero =>
    rw [Nat.pow_zero] at hlen
    rw [digitsOf, Nat.lt_one_iff.mp hlen]
  | succ len ih =>
    rw [digitsOf]
    split
    · next hn => rw [parseDigits_digit hn (by omega), Nat.mul_zero, Nat.zero_add]
    · have hdiv : n / 10 < 10 ^ len := by
        rw [Nat.pow_succ] at hlen
        omega
      have hsplit : 10 * (n / 10) + n % 10 = n := by omega
      rw [ih hdiv (by omega), parseDigits_digit (by omega) (by omega), hsplit]

def isDigit (byte : UInt8) : Bool := 48 ≤ byte.toNat && byte.toNat ≤ 57

theorem isDigit_digit {n : Nat} (h : n < 10) : isDigit (digit n) = true := by
  rw [isDigit, toNat_digit h, Bool.and_eq_true, decide_eq_true_eq, decide_eq_true_eq]
  omega

theorem all_digitsOf (len n : Nat) {rest : Text} (h : rest.all isDigit = true) :
    (digitsOf len n rest).all isDigit = true := by
  induction len generalizing n rest with
  | zero => exact h
  | succ len ih =>
    rw [digitsOf]
    split
    · next hn => rw [all_cons, isDigit_digit hn, h, Bool.and_self]
    · refine ih _ ?_
      rw [all_cons, isDigit_digit (Nat.mod_lt n (by omega)), h, Bool.and_self]

theorem digitsOf_ne_nil (len n : Nat) (rest : Text) : digitsOf (len + 1) n rest ≠ [] := by
  induction len generalizing n rest with
  | zero =>
    rw [digitsOf]
    split <;> exact cons_ne_nil _ _
  | succ len ih =>
    rw [digitsOf]
    split
    · exact cons_ne_nil _ _
    · exact ih _ _

theorem all_isDigit_decimal (n : UInt32) : (decimal n).all isDigit = true := all_digitsOf 10 _ rfl

theorem decimal_ne_nil (n : UInt32) : decimal n ≠ [] := digitsOf_ne_nil 9 _ _

theorem not_mem_decimal (h : isDigit a = false) (n : UInt32) : a ∉ decimal n := by
  intro hmem
  rw [all_eq_true.mp (all_isDigit_decimal n) a hmem] at h
  cases h

theorem parseUnsigned_decimal (n : UInt32) : parseUnsigned (2 ^ 32) (decimal n) = .ok n.toNat := by
  have hn := n.toNat_lt
  have hread : parseDigits (2 ^ 32) 0 (decimal n) = .ok n.toNat :=
    parseDigits_digitsOf 10 (by omega) hn []
  have hplus : (43 : UInt8) ∉ decimal n := not_mem_decimal (by decide) n
  rw [← hread]
  cases hd : decimal n with
  | nil => exact absurd hd (decimal_ne_nil n)
  | cons a rest =>
    rw [hd, mem_cons, not_or] at hplus
    rw [parseUnsigned]
    · exact cons_ne_nil _ _
    · intro byte rest' h
      rw [List.cons.injEq] at h
      exact hplus.1 h.1.symm

end Text
