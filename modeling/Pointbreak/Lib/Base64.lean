import Pointbreak.Lib.Text

/-!
# Lib.Base64

URL-safe base64 without padding. Three bytes are four symbols; what is left over at the end is two or
three symbols whose spare bits are zero, and a decoder refuses other ones.
-/

namespace Base64

/-- `A`-`Z`, `a`-`z`, `0`-`9`, `-` and `_`. -/
def symbol (value : Nat) : UInt8 :=
  .ofNat (if value < 26 then 65 + value else if value < 52 then 71 + value
    else if value < 62 then value - 4 else if value = 62 then 45 else 95)

def valueOf (byte : UInt8) : Option Nat :=
  (List.range 64).find? fun value => symbol value = byte

def encode : List UInt8 → List UInt8
  | [] => []
  | [a] => [symbol (a.toNat / 4), symbol (a.toNat % 4 * 16)]
  | [a, b] =>
    [symbol (a.toNat / 4), symbol (a.toNat % 4 * 16 + b.toNat / 16), symbol (b.toNat % 16 * 4)]
  | a :: b :: c :: rest =>
    symbol (a.toNat / 4) :: symbol (a.toNat % 4 * 16 + b.toNat / 16) ::
      symbol (b.toNat % 16 * 4 + c.toNat / 64) :: symbol (c.toNat % 64) :: encode rest

def decode : List UInt8 → Option (List UInt8)
  | [] => some []
  | [_] => none
  | [p, q] => do
    let x ← valueOf p
    let y ← valueOf q
    if y % 16 = 0 then some [.ofNat (x * 4 + y / 16)] else none
  | [p, q, r] => do
    let x ← valueOf p
    let y ← valueOf q
    let z ← valueOf r
    if z % 4 = 0 then some [.ofNat (x * 4 + y / 16), .ofNat (y % 16 * 16 + z / 4)] else none
  | p :: q :: r :: s :: rest => do
    let x ← valueOf p
    let y ← valueOf q
    let z ← valueOf r
    let w ← valueOf s
    let bytes ← decode rest
    some (.ofNat (x * 4 + y / 16) :: .ofNat (y % 16 * 16 + z / 4) :: .ofNat (z % 4 * 64 + w) :: bytes)

theorem valueOf_symbol {value : Nat} (h : value < 64) : valueOf (symbol value) = some value := by
  have hall : ∀ value ∈ List.range 64, valueOf (symbol value) = some value := by decide +kernel
  exact hall value (List.mem_range.mpr h)

theorem ofNat_eq (byte : UInt8) {value : Nat} (h : value = byte.toNat) : UInt8.ofNat value = byte := by
  rw [h, UInt8.ofNat_toNat]

theorem decode_encode (bytes : List UInt8) : decode (encode bytes) = some bytes := by
  fun_induction encode bytes with
  | case1 => rfl
  | case2 a =>
    have ha := a.toNat_lt
    simp only [decode]
    rw [valueOf_symbol (by omega), valueOf_symbol (by omega)]
    simp only [Option.bind_eq_bind, Option.bind_some]
    rw [if_pos (by omega), ofNat_eq a (by omega)]
  | case3 a b =>
    have ha := a.toNat_lt
    have hb := b.toNat_lt
    simp only [decode]
    rw [valueOf_symbol (by omega), valueOf_symbol (by omega), valueOf_symbol (by omega)]
    simp only [Option.bind_eq_bind, Option.bind_some]
    rw [if_pos (by omega), ofNat_eq a (by omega), ofNat_eq b (by omega)]
  | case4 a b c rest ih =>
    have ha := a.toNat_lt
    have hb := b.toNat_lt
    have hc := c.toNat_lt
    simp only [decode]
    rw [valueOf_symbol (by omega), valueOf_symbol (by omega), valueOf_symbol (by omega),
      valueOf_symbol (by omega), ih]
    simp only [Option.bind_eq_bind, Option.bind_some]
    rw [ofNat_eq a (by omega), ofNat_eq b (by omega), ofNat_eq c (by omega)]

example : encode (text "Review?>") = text "UmV2aWV3Pz4" := by decide

end Base64
