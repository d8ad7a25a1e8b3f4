/-! # Binary floating-point numbers

Numbers of the form `± significand · 2 ^ exponent` in a format of bounded precision and
range, with infinities and a single not-a-number. Every operation computes the exact
quotient of two natural numbers and rounds it once, to nearest and ties to even, so a
number's meaning never depends on the machine.
-/

namespace EntityMapper

/-- The quotient of two natural numbers rounded to the nearest natural number, a tie going
to the even neighbour. -/
def roundDiv (num den : Nat) : Nat :=
  let quotient := num / den
  let remainder := num % den
  if 2 * remainder < den then quotient
  else if den < 2 * remainder then quotient + 1
  else quotient + quotient % 2

/-- The shape of a format: the bits of a significand and the range of its exponent. -/
structure BinaryFormat where
  precision : Nat
  minExponent : Int
  maxExponent : Int
  deriving DecidableEq

namespace BinaryFormat

/-- Double precision, 64 bits wide. -/
def double : BinaryFormat := ⟨53, -1074, 971⟩

/-- Single precision, 32 bits wide. -/
def single : BinaryFormat := ⟨24, -149, 104⟩

/-- A significand and exponent in normal form: the leading bit is set unless the exponent
is already the least one. -/
def Canonical (f : BinaryFormat) (significand : Nat) (exponent : Int) : Prop :=
  significand < Nat.pow 2 f.precision ∧ f.minExponent ≤ exponent ∧ exponent ≤ f.maxExponent ∧
    (Nat.pow 2 (f.precision - 1) ≤ significand ∨ exponent = f.minExponent)

instance (f : BinaryFormat) (significand : Nat) (exponent : Int) :
    Decidable (f.Canonical significand exponent) := by
  unfold Canonical; infer_instance

end BinaryFormat

/-- A number of a binary format. -/
inductive Binary (f : BinaryFormat)
  | nan
  | infinite (negative : Bool)
  | finite (negative : Bool) (significand : Nat) (exponent : Int)
      (canonical : f.Canonical significand exponent)
  deriving DecidableEq

/-- Double-precision numbers. -/
abbrev Binary64 := Binary .double

/-- Single-precision numbers. -/
abbrev Binary32 := Binary .single

namespace Binary

variable {f : BinaryFormat}

/-- Neither infinite nor not-a-number. -/
def isFinite : Binary f → Bool
  | finite .. => true
  | _ => false

/-- Positive or negative zero. -/
def isZero : Binary f → Bool
  | finite _ significand _ _ => significand == 0
  | _ => false

/-- The number `± significand · 2 ^ exponent` of a rounded significand, which may have
carried into one more bit; beyond the largest exponent it is infinite. -/
def ofRounded (f : BinaryFormat) (negative : Bool) (significand : Nat) (exponent : Int) :
    Binary f :=
  let carried := significand = Nat.pow 2 f.precision
  let significand := if carried then Nat.pow 2 (f.precision - 1) else significand
  let exponent := if carried then exponent + 1 else exponent
  if canonical : f.Canonical significand exponent then
    .finite negative significand exponent canonical
  else .infinite negative

/-- The least exponent of the format whose significands reach the quotient `num / den`. -/
def unitExponent (f : BinaryFormat) (num den : Nat) : Int :=
  let exponent : Int := num.log2 - den.log2 - f.precision
  let reached :=
    num * Nat.pow 2 (-exponent).toNat < den * Nat.pow 2 exponent.toNat * Nat.pow 2 f.precision
  max f.minExponent (if reached then exponent else exponent + 1)

/-- The number of the format nearest to `± num / den`, ties going to the even significand;
a magnitude too large for the format is infinite. -/
def round (f : BinaryFormat) (negative : Bool) (num den : Nat) : Binary f :=
  let exponent := if num = 0 then f.minExponent else unitExponent f num den
  ofRounded f negative
    (roundDiv (num * Nat.pow 2 (-exponent).toNat) (den * Nat.pow 2 exponent.toNat))
    exponent

/-- The number nearest to an integer. -/
def ofInt (f : BinaryFormat) (n : Int) : Binary f :=
  round f (n < 0) n.natAbs 1

/-- Positive zero. -/
def zero (f : BinaryFormat) : Binary f := ofInt f 0

instance : Inhabited (Binary f) := ⟨zero f⟩

/-- The number with the opposite sign. -/
def negate : Binary f → Binary f
  | nan => nan
  | infinite negative => infinite !negative
  | finite negative m e canonical => finite (!negative) m e canonical

/-- The number of another format nearest to this one. -/
def convert (g : BinaryFormat) : Binary f → Binary g
  | nan => nan
  | infinite negative => infinite negative
  | finite negative m e _ => round g negative (m * Nat.pow 2 e.toNat) (Nat.pow 2 (-e).toNat)

/-- The product of two numbers, rounded once. -/
def times : Binary f → Binary f → Binary f
  | nan, _ | _, nan => nan
  | infinite s, infinite t => infinite (s != t)
  | infinite s, finite t m _ _ | finite t m _ _, infinite s =>
      if m = 0 then nan else infinite (s != t)
  | finite s m d _, finite t n e _ =>
      round f (s != t) (m * n * Nat.pow 2 (d + e).toNat) (Nat.pow 2 (-(d + e)).toNat)

/-- The quotient of two numbers, rounded once. -/
def dividedBy : Binary f → Binary f → Binary f
  | nan, _ | _, nan => nan
  | infinite _, infinite _ => nan
  | infinite s, finite t _ _ _ => infinite (s != t)
  | finite s _ _ _, infinite t => round f (s != t) 0 1
  | finite s m d _, finite t n e _ =>
      if n = 0 then (if m = 0 then nan else infinite (s != t))
      else round f (s != t) (m * Nat.pow 2 (d - e).toNat) (n * Nat.pow 2 (e - d).toNat)

/-- Numerical equality: not-a-number differs from everything, the two zeros are equal. -/
def equal : Binary f → Binary f → Bool
  | nan, _ | _, nan => false
  | infinite s, infinite t => s == t
  | finite s m d _, finite t n e _ => (m == 0 && n == 0) || (s == t && m == n && d == e)
  | _, _ => false

/-! ## Interchange encoding of double precision -/

/-- The number with a 64-bit interchange encoding: a sign bit, eleven exponent bits and
fifty-two trailing bits of the significand. -/
def ofBits (bits : UInt64) : Binary64 :=
  let word := bits.toNat
  let negative : Bool := word / Nat.pow 2 63 = 1
  let biased : Nat := word / Nat.pow 2 52 % Nat.pow 2 11
  let trailing := word % Nat.pow 2 52
  if biased = 2047 then (if trailing = 0 then .infinite negative else .nan)
  else if biased = 0 then ofRounded .double negative trailing (-1074)
  else ofRounded .double negative (Nat.pow 2 52 + trailing) ((biased : Int) - 1075)

/-- The interchange encoding of a number; not-a-number is the quiet one. -/
def toBits : Binary64 → UInt64
  | nan => 0x7ff8000000000000
  | infinite negative => (if negative then 0x8000000000000000 else 0) + 0x7ff0000000000000
  | finite negative m e _ =>
      (if negative then 0x8000000000000000 else 0) +
        (if m < Nat.pow 2 52 then UInt64.ofNat m
         else UInt64.ofNat ((e + 1075).toNat * Nat.pow 2 52 + (m - Nat.pow 2 52)))

end Binary

end EntityMapper
