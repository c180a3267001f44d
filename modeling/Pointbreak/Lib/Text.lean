import Mathlib.Algebra.Group.Nat.Defs
import Mathlib.Data.List.Sort

/-!
# Lib.Text

Strings as programs that compare, hash and measure them see them: their UTF-8 bytes. The order is
the byte order, a length is a byte count, and a literal evaluates to its bytes.
-/

/-- A UTF-8 string as its bytes. -/
abbrev Text : Type := List UInt8

def text (s : String) : Text := s.toUTF8.data.toList

namespace Text

instance : LawfulBEq Text := inferInstance

/-- `is_ascii_hexdigit` and not `is_ascii_uppercase`: one of `0`-`9` or `a`-`f`. -/
def isLowerHex (byte : UInt8) : Bool :=
  (48 ≤ byte.toNat && byte.toNat ≤ 57) || (97 ≤ byte.toNat && byte.toNat ≤ 102)

/-- `is_ascii_hexdigit`: one of `0`-`9`, `a`-`f` or `A`-`F`. -/
def isAsciiHexdigit (byte : UInt8) : Bool :=
  isLowerHex byte || (65 ≤ byte.toNat && byte.toNat ≤ 70)

def isHexOfLength (len : Nat) (s : Text) : Bool := s.length == len && s.all isLowerHex

/-- `is_char_boundary`: an end of the text, or a byte that does not continue a character. -/
def isCharBoundary (value : Text) (index : Nat) : Bool :=
  index = 0 || index = value.length ||
    value[index]?.any fun byte => byte.toNat < 128 || 192 ≤ byte.toNat

def isAsciiBlank (byte : UInt8) : Bool := byte == 32 || (9 ≤ byte.toNat && byte.toNat ≤ 13)

def isTwoByteBlank (a b : UInt8) : Bool := a == 0xC2 && (b == 0x85 || b == 0xA0)

/-- The three-byte blanks: U+1680, U+2000 to U+200A, U+2028, U+2029, U+202F, U+205F, U+3000. -/
def isThreeByteBlank (a b c : UInt8) : Bool :=
  (a == 0xE1 && b == 0x9A && c == 0x80) ||
  (a == 0xE2 && b == 0x80 &&
    ((0x80 ≤ c.toNat && c.toNat ≤ 0x8A) || c == 0xA8 || c == 0xA9 || c == 0xAF)) ||
  (a == 0xE2 && b == 0x81 && c == 0x9F) ||
  (a == 0xE3 && b == 0x80 && c == 0x80)

/-- `trim().is_empty()`: nothing but blanks. -/
def isBlank : Text → Bool
  | [] => true
  | [a] => isAsciiBlank a
  | [a, b] => if isAsciiBlank a then isAsciiBlank b else isTwoByteBlank a b
  | a :: b :: c :: rest =>
    if isAsciiBlank a then isBlank (b :: c :: rest)
    else if isTwoByteBlank a b then isBlank (c :: rest)
    else isThreeByteBlank a b c && isBlank rest

def trimStart : Text → Text
  | [] => []
  | [a] => if isAsciiBlank a then [] else [a]
  | [a, b] =>
    if isAsciiBlank a then trimStart [b] else if isTwoByteBlank a b then [] else [a, b]
  | a :: b :: c :: rest =>
    if isAsciiBlank a then trimStart (b :: c :: rest)
    else if isTwoByteBlank a b then trimStart (c :: rest)
    else if isThreeByteBlank a b c then trimStart rest
    else a :: b :: c :: rest

/-- `trim_end`. No blank starts with a continuation byte, so a blank rest is cut whole. -/
def trimEnd : Text → Text
  | [] => []
  | a :: rest => if isBlank (a :: rest) then [] else a :: trimEnd rest

def trim (s : Text) : Text := trimEnd (trimStart s)

def hexDigit (n : Nat) : UInt8 := if n < 10 then .ofNat (48 + n) else .ofNat (87 + n)

/-- The last `len` hexadecimal digits of `n`, most significant first, in front of `rest`. -/
def hexOf : Nat → Nat → Text → Text
  | 0, _, rest => rest
  | len + 1, n, rest => hexOf len (n / 16) (hexDigit (n % 16) :: rest)

def lowercaseHex (bytes : List UInt8) : Text :=
  bytes.flatMap fun byte => [hexDigit (byte.toNat / 16), hexDigit (byte.toNat % 16)]

theorem isLowerHex_hexDigit {n : Nat} (h : n < 16) : isLowerHex (hexDigit n) = true := by
  rw [hexDigit]
  split
  · have : (48 + n) % 256 = 48 + n := by omega
    simp only [isLowerHex, UInt8.toNat_ofNat', this, Bool.or_eq_true, Bool.and_eq_true,
      decide_eq_true_eq]
    omega
  · have : (87 + n) % 256 = 87 + n := by omega
    simp only [isLowerHex, UInt8.toNat_ofNat', this, Bool.or_eq_true, Bool.and_eq_true,
      decide_eq_true_eq]
    omega

variable (len n : Nat)

theorem length_hexOf (rest : Text) : (hexOf len n rest).length = len + rest.length := by
  induction len generalizing n rest with
  | zero => simp [hexOf]
  | succ len ih =>
    rw [hexOf, ih, List.length_cons]
    omega

theorem all_hexOf (rest : Text) (h : rest.all isLowerHex = true) :
    (hexOf len n rest).all isLowerHex = true := by
  induction len generalizing n rest with
  | zero => exact h
  | succ len ih =>
    refine ih (n / 16) _ ?_
    rw [List.all_cons, h, isLowerHex_hexDigit (by omega), Bool.and_self]

theorem isHexOfLength_hexOf : isHexOfLength len (hexOf len n []) = true := by
  rw [isHexOfLength, length_hexOf, all_hexOf len n [] rfl]
  simp

end Text
