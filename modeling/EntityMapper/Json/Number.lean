import EntityMapper.Json.Basic

/-! # Reading JSON numbers

The grammar of JSON numbers and the value of each. Integers that fit 64 bits are kept exact.
Any other number is read as its leading digits, as many as fit 64 bits, rounded to a double,
and then scaled by a rounded power of ten.
-/

namespace EntityMapper.Json

/-- The digits at the start of a text, and the rest. -/
def digits : List Char → List Nat × List Char
  | [] => ([], [])
  | c :: cs =>
      if c.isDigit then
        let (ds, rest) := digits cs
        ((c.toNat - '0'.toNat) :: ds, rest)
      else ([], c :: cs)

/-- The parts of a number as written. -/
structure Numeral where
  negative : Bool
  whole : List Nat
  fraction : Option (List Nat)
  exponent : Option Int

/-- Reads the digits before the point: a lone zero, or digits that do not start with zero. -/
def wholeDigits (cs : List Char) : Option (List Nat × List Char) :=
  match digits cs with
  | ([], _) => none
  | (0 :: _ :: _, _) => none
  | (ds, rest) => some (ds, rest)

/-- Reads a point and at least one digit, if a point comes next. -/
def fractionDigits : List Char → Option (Option (List Nat) × List Char)
  | '.' :: cs =>
      match digits cs with
      | ([], _) => none
      | (ds, rest) => some (some ds, rest)
  | cs => some (none, cs)

/-- The natural number with the given digits. -/
def ofDigits (ds : List Nat) : Nat := ds.foldl (fun n d => 10 * n + d) 0

/-- Reads the digits of an exponent after its mark and sign. -/
def exponentDigits (negative : Bool) (cs : List Char) : Option (Option Int × List Char) :=
  match digits cs with
  | ([], _) => none
  | (ds, rest) => some (some (if negative then -(ofDigits ds : Int) else ofDigits ds), rest)

/-- Reads an exponent, if its mark comes next. -/
def exponentPart : List Char → Option (Option Int × List Char)
  | c :: cs =>
      if c = 'e' ∨ c = 'E' then
        match cs with
        | '+' :: rest => exponentDigits false rest
        | '-' :: rest => exponentDigits true rest
        | rest => exponentDigits false rest
      else some (none, c :: cs)
  | [] => some (none, [])

/-- Reads a number as written. -/
def numeral (cs : List Char) : Option (Numeral × List Char) := do
  let (negative, cs) := match cs with
    | '-' :: cs => (true, cs)
    | cs => (false, cs)
  let (whole, cs) ← wholeDigits cs
  let (fraction, cs) ← fractionDigits cs
  let (exponent, cs) ← exponentPart cs
  return ({ negative, whole, fraction, exponent }, cs)

/-- Appends digits to a significand while it fits 64 bits; also the number of digits left. -/
def appendDigits (significand : Nat) : List Nat → Nat × Nat
  | [] => (significand, 0)
  | d :: ds =>
      if 10 * significand + d < Nat.pow 2 64 then appendDigits (10 * significand + d) ds
      else (significand, ds.length + 1)

/-- The double nearest to a power of ten. -/
def powerOfTen (exponent : Nat) : Binary64 := .round .double false (Nat.pow 10 exponent) 1

/-- The number times a power of ten. Between `1e-308` and `1e308` this is one rounded factor
or divisor; below, the number is divided by `1e308` until the rest is in range or nothing is
left; above, every number but zero overflows. -/
def scale (x : Binary64) (exponent : Int) : Binary64 :=
  if x.isZero ∧ (exponent < -308 ∨ 308 < exponent) then x
  else if exponent < -308 then scale (x.dividedBy (powerOfTen 308)) (exponent + 308)
  else if exponent < 0 then x.dividedBy (powerOfTen exponent.natAbs)
  else if exponent ≤ 308 then x.times (powerOfTen exponent.natAbs)
  else .infinite false
termination_by (-exponent).toNat
decreasing_by omega

/-- The significand and the power of ten of a numeral. -/
def Numeral.scaled (n : Numeral) : Nat × Int :=
  let (leading, dropped) := appendDigits 0 n.whole
  let fraction := n.fraction.getD []
  let (significand, ignored) := appendDigits leading fraction
  (significand, dropped - ((fraction.length - ignored : Nat) : Int) + n.exponent.getD 0)

/-- The finite double of a numeral; none when it overflows. -/
def Numeral.float? (n : Numeral) : Option Number :=
  let (significand, exponent) := n.scaled
  let magnitude := scale (.ofInt .double significand) exponent
  let x := if n.negative then magnitude.negate else magnitude
  if finite : x.isFinite then some (.float x finite) else none

/-- The integer of a numeral without fraction and exponent, if it fits 64 bits. A negative
zero is no integer. -/
def Numeral.integer? (n : Numeral) : Option Number :=
  if n.fraction.isSome ∨ n.exponent.isSome then none
  else if n.negative then
    let magnitude := ofDigits n.whole
    let word := Int64.ofInt (-magnitude)
    if lt_zero : word < 0 then
      if magnitude ≤ Nat.pow 2 63 then some (.negative word lt_zero) else none
    else none
  else if ofDigits n.whole < Nat.pow 2 64 then some (.natural (UInt64.ofNat (ofDigits n.whole)))
  else none

/-- Reads a number. -/
def number? (cs : List Char) : Option (Number × List Char) := do
  let (n, rest) ← numeral cs
  match n.integer? with
  | some integer => return (integer, rest)
  | none =>
      let float ← n.float?
      return (float, rest)

end EntityMapper.Json
