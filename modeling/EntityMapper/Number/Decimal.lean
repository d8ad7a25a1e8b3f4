import EntityMapper.Number.Binary

/-! # Shortest decimal text of binary numbers

A finite number is written with the fewest decimal digits that round back to it. The digits
are found in exact arithmetic: among the powers of ten, the largest one that has a multiple
closer to the number than to its neighbours gives the shortest text.
-/

namespace EntityMapper

/-- The decimal number `digits · 10 ^ exponent`. -/
structure Decimal where
  digits : Nat
  exponent : Int
  deriving DecidableEq, Repr

/-- Which of two equally near decimals is written. -/
inductive TieRule
  | larger
  | evenDigit
  deriving DecidableEq

namespace TieRule

/-- Whether the larger of the neighbours `digits` and `digits + 1` is written on a tie. -/
def picksLarger : TieRule → (digits : Nat) → Bool
  | larger, _ => true
  | evenDigit, digits => digits % 2 = 1

end TieRule

namespace Decimal

/-- The positive reals that round to a number: the number `num / den` itself and the ends of
the interval over the same denominator; `closed` tells whether the ends belong to it. -/
structure Neighbourhood where
  num : Nat
  low : Nat
  high : Nat
  den : Nat
  closed : Bool

/-- The reals that round to `significand · 2 ^ exponent` in the format. Below the least
significand of a binade the spacing is halved. -/
def Neighbourhood.of (f : BinaryFormat) (significand : Nat) (exponent : Int) : Neighbourhood :=
  let unit := Nat.pow 2 (exponent - 2).toNat
  let narrow := significand = Nat.pow 2 (f.precision - 1) ∧ f.minExponent < exponent
  { num := 4 * significand * unit
    low := (4 * significand - (if narrow then 1 else 2)) * unit
    high := (4 * significand + 2) * unit
    den := Nat.pow 2 (2 - exponent).toNat
    closed := significand % 2 = 0 }

namespace Neighbourhood

/-- Whether `digits · 10 ^ exponent` lies in the interval. -/
def contains (v : Neighbourhood) (exponent : Int) (digits : Nat) : Bool :=
  let point := digits * Nat.pow 10 exponent.toNat * v.den
  let scale := Nat.pow 10 (-exponent).toNat
  if v.closed then v.low * scale ≤ point ∧ point ≤ v.high * scale
  else v.low * scale < point ∧ point < v.high * scale

/-- The multiple of `10 ^ exponent` in the interval that is nearest to the number. -/
def nearest? (v : Neighbourhood) (tie : TieRule) (exponent : Int) : Option Nat :=
  let num := v.num * Nat.pow 10 (-exponent).toNat
  let den := v.den * Nat.pow 10 exponent.toNat
  let below := num / den
  match v.contains exponent below, v.contains exponent (below + 1) with
  | false, false => none
  | true, false => some below
  | false, true => some (below + 1)
  | true, true =>
      let twice := 2 * (num % den)
      if twice < den then some below
      else if den < twice then some (below + 1)
      else some (if tie.picksLarger below then below + 1 else below)

/-- The nearest multiple of the largest power of ten, among the `span` powers above
`10 ^ floor`, that has a multiple in the interval. -/
def search (v : Neighbourhood) (tie : TieRule) (floor : Int) : (span : Nat) → Decimal
  | 0 => ⟨v.num / v.den, 0⟩
  | span + 1 =>
      match v.nearest? tie (floor + span) with
      | some digits => ⟨digits, floor + span⟩
      | none => search v tie floor span

end Neighbourhood

/-- The shortest decimal that rounds to the double `significand · 2 ^ exponent`, and the
nearest of these. The powers tried run from `10 ^ 309`, above every double, down to
`10 ^ (-324)`, below the spacing of doubles. -/
def shortest (tie : TieRule) (significand : Nat) (exponent : Int) : Decimal :=
  if significand = 0 then ⟨0, 0⟩
  else (Neighbourhood.of .double significand exponent).search tie (-324) 634

/-! ## Layout -/

/-- The decimal digits of the magnitude. -/
def text (d : Decimal) : String := d.digits.repr

/-- A run of zeros. -/
def zeros (count : Nat) : String := String.ofList (List.replicate count '0')

/-- The exponent of the leading digit. -/
def leadingExponent (d : Decimal) : Int := d.exponent + d.text.length - 1

/-- Positional notation without an exponent; a whole number has no point. -/
def positional (d : Decimal) : String :=
  let places := (-d.exponent).toNat
  if 0 ≤ d.exponent then d.text ++ zeros d.exponent.toNat
  else if places < d.text.length then
    (d.text.take (d.text.length - places)).toString ++ "." ++
      (d.text.drop (d.text.length - places)).toString
  else "0." ++ zeros (places - d.text.length) ++ d.text

/-- Positional notation that always has a fractional part. -/
def fractional (d : Decimal) : String :=
  if 0 ≤ d.exponent then d.positional ++ ".0" else d.positional

/-- Scientific notation: one digit before the point, the others after it, and an exponent
that always has a sign. -/
def scientific (d : Decimal) : String :=
  let fraction := (d.text.drop 1).toString
  let mantissa := (d.text.take 1).toString ++ (if fraction = "" then "" else "." ++ fraction)
  let sign := if d.leadingExponent < 0 then "-" else "+"
  mantissa ++ "e" ++ sign ++ d.leadingExponent.natAbs.repr

end Decimal

/-- A minus sign for negative numbers. -/
def signText (negative : Bool) : String := if negative then "-" else ""

/-- The decimal text of an integer. -/
def integerText (n : Int) : String := signText (n < 0) ++ n.natAbs.repr

end EntityMapper
