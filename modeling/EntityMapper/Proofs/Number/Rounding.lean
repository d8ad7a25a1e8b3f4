import EntityMapper.Number.Binary
import Mathlib.Algebra.Order.Field.Power
import Mathlib.Algebra.Order.Field.Rat
import Mathlib.Tactic.GCongr
import Mathlib.Tactic.Positivity
import Mathlib.Tactic.Ring

/-!
# Rounding numbers that a format has

A quotient that a format has a number for is rounded to that number (`Binary.round_exact`). So a
number outlives its conversion to a format that has it as well (`Binary.convert_convert`), as all
single-precision numbers outlive double precision.
-/

namespace EntityMapper

/-! ## Powers of two -/

/-- A power of two is a quotient of natural powers, one of which is one. -/
theorem two_zpow_mul_toNat (z : Int) : (2 : Rat) ^ z * 2 ^ (-z).toNat = 2 ^ z.toNat := by
  rw [← zpow_natCast, ← zpow_natCast, ← zpow_add₀ two_ne_zero]
  congr 1
  omega

/-- A power of two is split at an exponent. -/
theorem two_pow_mul_zpow_sub (n : Nat) (z : Int) : (2 : Rat) ^ n * 2 ^ (z - n) = 2 ^ z := by
  rw [← zpow_natCast, ← zpow_add₀ two_ne_zero, add_sub_cancel]

/-- Multiples of powers of two are ordered as the exponents. -/
theorem lt_of_two_zpow_mul_lt {x y : Int} {q : Rat} (hq : 0 < q)
    (h : (2 : Rat) ^ x * q < 2 ^ y * q) : x < y :=
  (zpow_lt_zpow_iff_right₀ one_lt_two).1 (lt_of_mul_lt_mul_right h hq.le)

/-- A positive number lies between two neighbouring powers of two. -/
theorem two_zpow_log2_bounds {n : Nat} (h : 0 < n) :
    (2 : Rat) ^ (n.log2 : Int) ≤ n ∧ (n : Rat) < 2 ^ ((n.log2 : Int) + 1) := by
  constructor
  · exact_mod_cast Nat.log2_self_le h.ne'
  · exact_mod_cast Nat.lt_log2_self

/-- Two numbers that are scaled to natural ones compare as the numbers do. -/
theorem scaled_lt_iff {a b : Nat} {z : Int} :
    a * Nat.pow 2 (-z).toNat < b * Nat.pow 2 z.toNat ↔ (a : Rat) < b * 2 ^ z := by
  have hpos : (0 : Rat) < 2 ^ (-z).toNat := by positivity
  rw [← mul_lt_mul_iff_left₀ hpos, mul_assoc, two_zpow_mul_toNat]
  exact_mod_cast Iff.rfl

/-- An exact quotient needs no rounding. -/
theorem roundDiv_mul (m : Nat) {den : Nat} (hden : 0 < den) : roundDiv (m * den) den = m := by
  simp [roundDiv, hden]

namespace Binary

variable {f g : BinaryFormat} {m num den : Nat} {e : Int} {negative : Bool}

/-! ## Rounding -/

/-- The significands that reach a quotient have as many bits as the format gives them, unless their
exponent is the least one. -/
theorem unitExponent_eq (hnum : 0 < num) (hden : 0 < den) {z : Int}
    (hlow : (2 : Rat) ^ z * den ≤ num) (hhigh : (num : Rat) < 2 ^ (z + 1) * den) :
    unitExponent f num den = max f.minExponent (z + 1 - f.precision) := by
  have hden' : (0 : Rat) < den := by exact_mod_cast hden
  obtain ⟨hnumLow, hnumHigh⟩ := two_zpow_log2_bounds hnum
  obtain ⟨hdenLow, hdenHigh⟩ := two_zpow_log2_bounds hden
  generalize hk : (num.log2 : Int) - den.log2 = k
  have hbelow : (2 : Rat) ^ (k - 1) * den < num :=
    calc (2 : Rat) ^ (k - 1) * den < 2 ^ (k - 1) * 2 ^ ((den.log2 : Int) + 1) := by gcongr
      _ = 2 ^ (num.log2 : Int) := by
        rw [← zpow_add₀ two_ne_zero]
        congr 1
        omega
      _ ≤ num := hnumLow
  have habove : (num : Rat) < 2 ^ (k + 1) * den :=
    calc (num : Rat) < 2 ^ ((num.log2 : Int) + 1) := hnumHigh
      _ = 2 ^ (k + 1) * 2 ^ (den.log2 : Int) := by
        rw [← zpow_add₀ two_ne_zero]
        congr 1
        omega
      _ ≤ 2 ^ (k + 1) * den := by gcongr
  have hz : z < k + 1 := lt_of_two_zpow_mul_lt hden' (hlow.trans_lt habove)
  have hk' : k - 1 < z + 1 := lt_of_two_zpow_mul_lt hden' (hbelow.trans hhigh)
  have hreached : num * Nat.pow 2 (-(k - f.precision)).toNat
      < den * Nat.pow 2 (k - f.precision).toNat * Nat.pow 2 f.precision ↔
        (num : Rat) < 2 ^ k * den := by
    have hscale : ((den * Nat.pow 2 f.precision : Nat) : Rat) * 2 ^ (k - f.precision)
        = 2 ^ k * den := by
      rw [← two_pow_mul_zpow_sub f.precision k]
      push_cast [Nat.pow_eq]
      ring
    rw [Nat.mul_right_comm, scaled_lt_iff, hscale]
  rw [unitExponent, hk]
  simp only [hreached]
  congr 1
  split
  · rename_i hlt
    have hzk : z < k := lt_of_two_zpow_mul_lt hden' (hlow.trans_lt hlt)
    omega
  · rename_i hge
    have hkz : k < z + 1 := lt_of_two_zpow_mul_lt hden' ((not_lt.1 hge).trans_lt hhigh)
    omega

/-- The exponent of a quotient that the format has a number for is that of the number. -/
theorem unitExponent_of_canonical (h : f.Canonical m e) (hm : 0 < m) (hden : 0 < den)
    (hq : (num : Rat) = m * 2 ^ e * den) : unitExponent f num den = e := by
  have hden' : (0 : Rat) < den := by exact_mod_cast hden
  have hnum : 0 < num := by
    have hnum' : (0 : Rat) < num := by rw [hq]; positivity
    exact_mod_cast hnum'
  obtain ⟨hlow, hhigh⟩ := two_zpow_log2_bounds hm
  have hlow' : (2 : Rat) ^ ((m.log2 : Int) + e) * den ≤ num := by
    rw [hq, zpow_add₀ two_ne_zero]
    gcongr
  have hhigh' : (num : Rat) < 2 ^ ((m.log2 : Int) + e + 1) * den := by
    rw [hq, add_right_comm, zpow_add₀ two_ne_zero]
    gcongr
  rw [unitExponent_eq hnum hden hlow' hhigh']
  obtain ⟨hbits, hleast, -, hnormal⟩ := h
  have hlog : m.log2 < f.precision := (Nat.log2_lt hm.ne').2 hbits
  rcases hnormal with hnormal | rfl
  · have hlog' : f.precision - 1 ≤ m.log2 := (Nat.le_log2 hm.ne').2 hnormal
    omega
  · omega

/-- A canonical significand needs no carry. -/
theorem ofRounded_of_canonical (h : f.Canonical m e) :
    ofRounded f negative m e = .finite negative m e h := by
  have hcarry : ¬ m = Nat.pow 2 f.precision := h.1.ne
  simp only [ofRounded, hcarry, if_false]
  exact dif_pos h

/-- A quotient that the format has a number for is rounded to that number. -/
theorem round_exact (h : f.Canonical m e) (hden : 0 < den) (hq : (num : Rat) = m * 2 ^ e * den) :
    round f negative num den = .finite negative m e h := by
  have hexponent : (if num = 0 then f.minExponent else unitExponent f num den) = e := by
    rcases Nat.eq_zero_or_pos m with rfl | hm
    · have hnum : num = 0 := by simpa using hq
      have hleast : e = f.minExponent := h.2.2.2.resolve_left (by simp)
      rw [if_pos hnum, hleast]
    · have hnum : num ≠ 0 := by
        rintro rfl
        have hpos : (0 : Rat) < m * 2 ^ e * den := by positivity
        exact hpos.ne hq
      rw [if_neg hnum, unitExponent_of_canonical h hm hden hq]
  have hscaled : num * Nat.pow 2 (-e).toNat = m * (den * Nat.pow 2 e.toNat) := by
    have hcast : (num : Rat) * 2 ^ (-e).toNat = m * (den * 2 ^ e.toNat) := by
      rw [hq, ← two_zpow_mul_toNat e]
      ring
    exact_mod_cast hcast
  have hpos : 0 < den * Nat.pow 2 e.toNat := Nat.mul_pos hden (Nat.two_pow_pos _)
  rw [round, hexponent, hscaled, roundDiv_mul m hpos]
  exact ofRounded_of_canonical h

end Binary

/-! ## Conversions between formats -/

/-- Whether a format has all numbers of another one. -/
structure BinaryFormat.Within (f g : BinaryFormat) : Prop where
  positive : 0 < f.precision
  precision : f.precision ≤ g.precision
  least : g.minExponent + g.precision ≤ f.minExponent + 1
  greatest : f.maxExponent ≤ g.maxExponent

/-- Double precision has all numbers of single precision. -/
theorem BinaryFormat.single_within_double : single.Within double := by
  constructor <;> decide

namespace Binary

variable {f g : BinaryFormat} {m : Nat} {e : Int} {negative : Bool}

/-- A number of a format is one of a format that has all its numbers: its significand is shifted to
where it is canonical. -/
theorem exists_canonical (hfg : f.Within g) (h : f.Canonical m e) :
    ∃ m' e', g.Canonical m' e' ∧ (m' : Rat) * 2 ^ e' = m * 2 ^ e := by
  obtain ⟨hbits, hleast, hgreatest, -⟩ := h
  obtain ⟨hpositive, hprecision, hleast', hgreatest'⟩ := hfg
  rcases Nat.eq_zero_or_pos m with rfl | hm
  · refine ⟨0, g.minExponent, ⟨Nat.two_pow_pos _, le_refl _, by omega, .inr rfl⟩, by simp⟩
  · have hlog : m.log2 < f.precision := (Nat.log2_lt hm.ne').2 hbits
    obtain ⟨shift, hshift⟩ : ∃ shift, m.log2 + shift + 1 = g.precision :=
      ⟨g.precision - (m.log2 + 1), by omega⟩
    refine ⟨m * 2 ^ shift, e - shift, ⟨?_, by omega, by omega, .inl ?_⟩, ?_⟩
    · calc m * 2 ^ shift < 2 ^ (m.log2 + 1) * 2 ^ shift :=
            Nat.mul_lt_mul_of_pos_right Nat.lt_log2_self (Nat.two_pow_pos _)
        _ = Nat.pow 2 g.precision := by
            rw [← hshift, ← Nat.pow_add, Nat.pow_eq]
            congr 1
            omega
    · calc Nat.pow 2 (g.precision - 1) = 2 ^ m.log2 * 2 ^ shift := by
            rw [← hshift, ← Nat.pow_add, Nat.pow_eq]
            congr 1
        _ ≤ m * 2 ^ shift := Nat.mul_le_mul_right _ (Nat.log2_self_le hm.ne')
    · rw [← two_pow_mul_zpow_sub shift e]
      push_cast
      ring

/-- The quotient that stands for a finite number. -/
theorem quotient_eq (m : Nat) (e : Int) :
    ((m * Nat.pow 2 e.toNat : Nat) : Rat) = m * 2 ^ e * (Nat.pow 2 (-e).toNat : Nat) := by
  rw [mul_assoc]
  push_cast [Nat.pow_eq]
  rw [two_zpow_mul_toNat]

/-- A number is converted to the number of the other format that is as large, if there is one. -/
theorem convert_exact {m' : Nat} {e' : Int} (h : f.Canonical m e) (h' : g.Canonical m' e')
    (heq : (m' : Rat) * 2 ^ e' = m * 2 ^ e) :
    (finite negative m e h : Binary f).convert g = .finite negative m' e' h' := by
  rw [convert]
  exact round_exact h' (Nat.two_pow_pos _) (heq ▸ quotient_eq m e)

/-- A number that is converted to a format that has it is converted back to itself. -/
theorem convert_convert (hfg : f.Within g) (x : Binary f) : (x.convert g).convert f = x := by
  cases x with
  | nan => rfl
  | infinite negative => rfl
  | finite negative m e h =>
      obtain ⟨m', e', h', heq⟩ := exists_canonical hfg h
      rw [convert_exact h h' heq, convert_exact h' h heq.symm]

end Binary

end EntityMapper
