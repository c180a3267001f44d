import Mathlib.Algebra.Group.Int.Defs
import Pointbreak.Lib.BTree
import Pointbreak.Lib.Text

/-!
# Model.Instant

The instant of an event: `unix-ms:` with a number, or RFC 3339 in UTC, read as epoch milliseconds.
`compareEventInstants` orders all texts: those that are no instant come first, by their bytes, and
equivalent forms compare equal.
-/

namespace Pointbreak

open Std

namespace Instant

def isAsciiDigit (byte : UInt8) : Bool := 48 ≤ byte && byte ≤ 57

def digitsValue (digits : Text) : Nat :=
  digits.foldl (fun n byte => 10 * n + (byte.toNat - 48)) 0

/-- A signed number within 64 bits, read as the standard library reads it. -/
def parseI64 (value : Text) : Option Int :=
  let (negative, digits) := match value with
    | 45 :: digits => (true, digits)
    | 43 :: digits => (false, digits)
    | digits => (false, digits)
  let n : Int := if negative then - digitsValue digits else digitsValue digits
  if digits.isEmpty || !digits.all isAsciiDigit then none
  else if - 2 ^ 63 ≤ n ∧ n < 2 ^ 63 then some n else none

def splitOnce (separator : UInt8) : Text → Option (Text × Text)
  | [] => none
  | byte :: value =>
    if byte = separator then some ([], value)
    else (splitOnce separator value).map fun (before, after) => (byte :: before, after)

def parseFixedDigits (value : Text) (width : Nat) : Option Int :=
  if value.length ≠ width || !value.all isAsciiDigit then none else some (digitsValue value)

def parseFractionMillis (fraction : Text) : Option Int :=
  if fraction.isEmpty || !fraction.all isAsciiDigit then none
  else some (digitsValue (fraction.take 3 ++ (text "000").drop (min fraction.length 3)))

def isLeapYear (year : Int) : Bool :=
  (year % 4 = 0 && year % 100 ≠ 0) || year % 400 = 0

def daysInMonth (year month : Int) : Option Int :=
  if month ∈ [1, 3, 5, 7, 8, 10, 12] then some 31
  else if month ∈ [4, 6, 9, 11] then some 30
  else if month = 2 then some (if isLeapYear year then 29 else 28)
  else none

/-- Days since 1970-01-01 in the proleptic Gregorian calendar. -/
def daysFromCivil (year month day : Int) : Int :=
  let year := year - if month ≤ 2 then 1 else 0
  let era := (if 0 ≤ year then year else year - 399).tdiv 400
  let yearOfEra := year - era * 400
  let dayOfYear := (153 * (if month > 2 then month - 3 else month + 9) + 2).tdiv 5 + day - 1
  let dayOfEra := yearOfEra * 365 + yearOfEra.tdiv 4 - yearOfEra.tdiv 100 + dayOfYear
  era * 146097 + dayOfEra - 719468

def splitFraction (time : Text) : Option (Text × Int) :=
  match splitOnce 46 time with
  | some (clock, fraction) => (parseFractionMillis fraction).map fun millis => (clock, millis)
  | none => some (time, 0)

def parseRfc3339UtcMillis (value : Text) : Option Int := do
  let body ← if value.getLast? = some 90 then some value.dropLast else none
  let (date, time) ← splitOnce 84 body
  let [year, month, day] := date.splitOn 45 | none
  let year ← parseFixedDigits year 4
  let month ← parseFixedDigits month 2
  let day ← parseFixedDigits day 2
  let days ← if 1 ≤ month ∧ month ≤ 12 then daysInMonth year month else none
  if 1 ≤ day ∧ day ≤ days then
    let (clock, fractionMillis) ← splitFraction time
    let [hour, minute, second] := clock.splitOn 58 | none
    let hour ← parseFixedDigits hour 2
    let minute ← parseFixedDigits minute 2
    let second ← parseFixedDigits second 2
    -- a leap second is allowed
    if hour > 23 ∨ minute > 59 ∨ second > 60 then none
    else
      let seconds := ((daysFromCivil year month day * 24 + hour) * 60 + minute) * 60 + second
      some (seconds * 1000 + fractionMillis)
  else none

end Instant

def parseEventInstant (value : Text) : Option Int :=
  if (text "unix-ms:").isPrefixOf value then
    Instant.parseI64 (value.drop (text "unix-ms:").length)
  else Instant.parseRfc3339UtcMillis value

def compareEventInstants (left right : Text) : Ordering :=
  match parseEventInstant left, parseEventInstant right with
  | some left, some right => compare left right
  | none, none => compare left right
  | none, some _ => .lt
  | some _, none => .gt

example : parseEventInstant (text "2026-06-10T00:00:00Z") = some 1781049600000 := by decide +kernel

def residue (value : Text) : Text := if (parseEventInstant value).isSome then [] else value

theorem compareEventInstants_eq (left right : Text) :
    compareEventInstants left right =
      (compare (parseEventInstant left) (parseEventInstant right)).then
        (compare (residue left) (residue right)) := by
  unfold compareEventInstants residue
  cases hl : parseEventInstant left with
  | none => cases hr : parseEventInstant right <;> rfl
  | some l =>
    cases hr : parseEventInstant right with
    | none => rfl
    | some r =>
      change compare l r = (compare l r).then .eq
      cases compare l r <;> rfl

/-- Event instants are totally preordered, whatever the texts. -/
instance : TransCmp compareEventInstants := by
  have heq : compareEventInstants = compareLex (compareOn parseEventInstant) (compareOn residue) := by
    funext left right
    exact compareEventInstants_eq left right
  rw [heq]
  infer_instance

end Pointbreak
