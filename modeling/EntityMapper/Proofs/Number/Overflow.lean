import EntityMapper.Proofs.Number.Rounding
import Mathlib.Data.Int.Log
import Mathlib.Data.Rat.Floor
import Mathlib.Tactic.FieldSimp
import Mathlib.Tactic.Linarith
import Mathlib.Tactic.NormNum

/-!
# Numbers that a format has no room for

The numbers of a format end half a unit before its overflow bound. A quotient is rounded to a finite
number exactly where it is below that bound (`Binary.isFinite_round_iff`), and so is a number of
another format (`Binary.isFinite_convert_iff`): a double narrows to a single-precision number below
`2 ^ 128 - 2 ^ 103` and to an infinite one from there on. Integers of 64 bits stay far below
(`Binary.isFinite_ofInt`).
-/

namespace EntityMapper

/-! ## Rounded quotients -/

section Quotients

variable {num den k : Nat}

/-- A quotient is rounded down or up to the next natural number. -/
theorem roundDiv_bounds (num den : Nat) :
    num / den ≤ roundDiv num den ∧ roundDiv num den ≤ num / den + 1 := by
  rw [roundDiv]
  split
  · omega
  · split <;> omega

variable (hden : 0 < den)
include hden

/-- A quotient of at most a natural number is not rounded above it. -/
theorem roundDiv_le (h : (num : Rat) / den ≤ k) : roundDiv num den ≤ k := by
  have hle : num ≤ k * den := by exact_mod_cast (div_le_iff₀ (Nat.cast_pos.2 hden)).1 h
  have hquotient : num / den ≤ k := Nat.div_le_of_le_mul (by rwa [Nat.mul_comm])
  rcases hquotient.eq_or_lt with rfl | hlt
  · have hsplit := Nat.div_add_mod num den
    have hrest : num % den = 0 := by
      rw [Nat.mul_comm] at hle
      omega
    simp [roundDiv, hrest, hden]
  · exact (roundDiv_bounds num den).2.trans hlt

/-- A quotient of at least a natural number is not rounded below it. -/
theorem le_roundDiv (h : (k : Rat) ≤ num / den) : k ≤ roundDiv num den := by
  have hle : k * den ≤ num := by exact_mod_cast (le_div_iff₀ (Nat.cast_pos.2 hden)).1 h
  exact ((Nat.le_div_iff_mul_le hden).2 hle).trans (roundDiv_bounds num den).1

/-- A quotient is rounded to an even number or above it from half a unit below that number on. -/
theorem even_le_roundDiv_iff (heven : k % 2 = 0) :
    k ≤ roundDiv num den ↔ (k : Rat) - 1 / 2 ≤ num / den := by
  have hden' : (0 : Rat) < den := Nat.cast_pos.2 hden
  have hhalf : (k : Rat) - 1 / 2 ≤ num / den ↔ 2 * (k * den) ≤ 2 * num + den := by
    have hcast : (2 * (k * den) ≤ 2 * num + den) ↔
        (2 * (k * den) : Rat) ≤ 2 * num + den := by exact_mod_cast Iff.rfl
    rw [le_div_iff₀ hden', hcast]
    constructor <;> intro h <;> linarith
  have hsplit := Nat.div_add_mod num den
  have hrest := Nat.mod_lt num hden
  rw [hhalf]
  -- Only the number right above the floor of the quotient is in doubt. The floor is odd there, so a
  -- tie goes up to the even number.
  rcases Nat.lt_trichotomy (num / den + 1) k with hbelow | hnext | habove
  · have hround := (roundDiv_bounds num den).2
    have hproduct : (num / den + 2) * den ≤ k * den := Nat.mul_le_mul_right den hbelow
    have hexpand : (num / den + 2) * den = den * (num / den) + 2 * den := by ring
    constructor <;> intro h <;> omega
  · have hproduct : k * den = den * (num / den) + den := by
      rw [← hnext]
      ring
    rw [roundDiv, hproduct]
    split
    · omega
    · split <;> omega
  · have hquotient : k ≤ num / den := by omega
    have hproduct : k * den ≤ den * (num / den) := by
      rw [Nat.mul_comm den]
      exact Nat.mul_le_mul_right den hquotient
    refine ⟨fun _ => by omega, fun _ => le_roundDiv hden ((le_div_iff₀ hden').2 ?_)⟩
    exact_mod_cast hproduct.trans (hsplit ▸ Nat.le_add_right _ _)

end Quotients

/-! ## The overflow bound -/

namespace BinaryFormat

/-- Whether a format has a significand of some bits and a range of exponents. -/
structure IsProper (f : BinaryFormat) : Prop where
  positive : 0 < f.precision
  range : f.minExponent ≤ f.maxExponent

/-- The bound from which on magnitudes are rounded to infinity: half a unit above the greatest
number of the format. -/
def overflow (f : BinaryFormat) : Rat := (2 ^ f.precision - 1 / 2) * 2 ^ f.maxExponent

theorem isProper_single : single.IsProper := by constructor <;> decide

theorem isProper_double : double.IsProper := by constructor <;> decide

/-- Single precision overflows half a unit below the first power of two that it does not have. -/
theorem overflow_single : single.overflow = 2 ^ 128 - 2 ^ 103 := by
  norm_num [overflow, single]

/-- The first power of two that a format does not have is above its bound. -/
theorem overflow_lt (f : BinaryFormat) : f.overflow < 2 ^ (f.maxExponent + f.precision) := by
  rw [overflow, zpow_add₀ two_ne_zero, zpow_natCast, mul_comm ((2 : Rat) ^ f.maxExponent)]
  gcongr
  linarith

variable {f : BinaryFormat}

/-- The powers of two that a format has are below its bound. -/
theorem IsProper.le_overflow (h : f.IsProper) {z : Int} (hz : z < f.maxExponent + f.precision) :
    (2 : Rat) ^ z ≤ f.overflow := by
  have hone : (1 : Rat) ≤ 2 ^ (f.precision - 1) := one_le_pow₀ one_le_two
  have hdouble : (2 : Rat) ^ f.precision = 2 * 2 ^ (f.precision - 1) := by
    rw [← pow_succ', Nat.sub_add_cancel h.positive]
  calc (2 : Rat) ^ z ≤ 2 ^ (f.maxExponent + (f.precision - 1 : Nat)) :=
        zpow_le_zpow_right₀ one_le_two (by have := h.positive; omega)
    _ = 2 ^ (f.precision - 1) * 2 ^ f.maxExponent := by
        rw [zpow_add₀ two_ne_zero, zpow_natCast, mul_comm]
    _ ≤ f.overflow := by
        rw [overflow]
        gcongr
        linarith

end BinaryFormat

namespace Binary

variable {f g : BinaryFormat} {m num den : Nat} {e : Int} {negative : Bool}

/-! ## Rounding by steps -/

/-- The exponent that a quotient is rounded at. -/
def roundingExponent (f : BinaryFormat) (num den : Nat) : Int :=
  if num = 0 then f.minExponent else unitExponent f num den

/-- The significand that a quotient is rounded to. -/
def roundedSignificand (f : BinaryFormat) (num den : Nat) : Nat :=
  let exponent := roundingExponent f num den
  roundDiv (num * Nat.pow 2 (-exponent).toNat) (den * Nat.pow 2 exponent.toNat)

theorem round_eq : round f negative num den =
    ofRounded f negative (roundedSignificand f num den) (roundingExponent f num den) := rfl

/-- The significands at the rounding exponent reach the quotient, and its leading bit is set unless
the exponent is the least one. -/
theorem roundingExponent_bounds (f : BinaryFormat) (num : Nat) (hden : 0 < den) :
    f.minExponent ≤ roundingExponent f num den ∧
      (num : Rat) / den < 2 ^ (roundingExponent f num den + f.precision) ∧
      (roundingExponent f num den = f.minExponent ∨
        (2 : Rat) ^ (roundingExponent f num den + f.precision - 1) ≤ num / den) := by
  have hden' : (0 : Rat) < den := Nat.cast_pos.2 hden
  rw [roundingExponent]
  split
  · rename_i hnum
    refine ⟨le_refl _, ?_, .inl rfl⟩
    rw [hnum, Nat.cast_zero, zero_div]
    positivity
  · rename_i hnum
    have hnum : 0 < num := Nat.pos_of_ne_zero hnum
    -- The binade of the quotient is where its leading bit is.
    let q : Rat := num / den
    have hlow : (2 : Rat) ^ Int.log 2 q ≤ q :=
      Int.zpow_log_le_self one_lt_two (div_pos (Nat.cast_pos.2 hnum) hden')
    have hhigh : q < (2 : Rat) ^ (Int.log 2 q + 1) := Int.lt_zpow_succ_log_self one_lt_two q
    rw [unitExponent_eq hnum hden ((le_div_iff₀ hden').1 hlow) ((div_lt_iff₀ hden').1 hhigh)]
    refine ⟨le_max_left _ _, hhigh.trans_le (zpow_le_zpow_right₀ one_le_two (by omega)), ?_⟩
    rcases max_choice f.minExponent (Int.log 2 q + 1 - f.precision) with hmax | hmax
    · exact .inl hmax
    · refine .inr (le_trans (zpow_le_zpow_right₀ one_le_two ?_) hlow)
      rw [hmax]
      omega

/-- The quotient that is rounded to a significand is the whole one in units of the exponent. -/
theorem scaled_div (num den : Nat) (e : Int) :
    ((num * Nat.pow 2 (-e).toNat : Nat) : Rat) / (den * Nat.pow 2 e.toNat : Nat)
      = num / den / 2 ^ e := by
  have hpos : (0 : Rat) < 2 ^ (-e).toNat := by positivity
  push_cast [Nat.pow_eq]
  rw [← two_zpow_mul_toNat e, ← mul_assoc, mul_div_mul_right _ _ hpos.ne', div_div]

/-- The significand has at most one bit too many, and its leading bit is set unless the exponent is
the least one. -/
theorem roundedSignificand_bounds (hf : f.IsProper) (num : Nat) (hden : 0 < den) :
    roundedSignificand f num den ≤ 2 ^ f.precision ∧
      (roundingExponent f num den = f.minExponent ∨
        2 ^ (f.precision - 1) ≤ roundedSignificand f num den) := by
  obtain ⟨-, hhigh, hlow⟩ := roundingExponent_bounds f num hden
  have hscaled : 0 < den * Nat.pow 2 (roundingExponent f num den).toNat :=
    Nat.mul_pos hden (Nat.two_pow_pos _)
  have hunit : (0 : Rat) < 2 ^ roundingExponent f num den := by positivity
  refine ⟨roundDiv_le hscaled ?_, hlow.imp_right fun hlow => le_roundDiv hscaled ?_⟩
  · rw [scaled_div, div_le_iff₀ hunit]
    refine hhigh.le.trans_eq ?_
    push_cast
    rw [← zpow_natCast, ← zpow_add₀ two_ne_zero, add_comm]
  · rw [scaled_div, le_div_iff₀ hunit]
    refine le_of_eq_of_le ?_ hlow
    push_cast
    rw [← zpow_natCast, ← zpow_add₀ two_ne_zero]
    congr 1
    have := hf.positive
    omega

/-- The significand carries into one more bit from half a unit below that bit on. -/
theorem carries_iff (hf : f.IsProper) (hden : 0 < den) :
    2 ^ f.precision ≤ roundedSignificand f num den ↔
      (2 ^ f.precision - 1 / 2) * 2 ^ roundingExponent f num den ≤ (num : Rat) / den := by
  have hscaled : 0 < den * Nat.pow 2 (roundingExponent f num den).toNat :=
    Nat.mul_pos hden (Nat.two_pow_pos _)
  have hunit : (0 : Rat) < 2 ^ roundingExponent f num den := by positivity
  have heven : 2 ^ f.precision % 2 = 0 :=
    Nat.mod_eq_zero_of_dvd (dvd_pow_self 2 hf.positive.ne')
  rw [roundedSignificand, even_le_roundDiv_iff hscaled heven, scaled_div, le_div_iff₀ hunit]
  push_cast
  rfl

/-- A rounded significand stays in the format unless its exponent, after a carry, is too large. -/
theorem isFinite_ofRounded_iff (hf : f.IsProper) (hm : m ≤ 2 ^ f.precision)
    (hleast : f.minExponent ≤ e) (hnormal : e = f.minExponent ∨ 2 ^ (f.precision - 1) ≤ m) :
    (ofRounded f negative m e).isFinite = true ↔
      e ≤ f.maxExponent ∧ (2 ^ f.precision ≤ m → e < f.maxExponent) := by
  have hbit : 2 ^ (f.precision - 1) < 2 ^ f.precision :=
    Nat.pow_lt_pow_right Nat.one_lt_two (Nat.sub_lt hf.positive Nat.one_pos)
  rcases hm.eq_or_lt with rfl | hm
  · have hcanonical : f.Canonical (Nat.pow 2 (f.precision - 1)) (e + 1) ↔ e < f.maxExponent :=
      ⟨fun h => h.2.2.1, fun h => ⟨hbit, by omega, h, .inl (le_refl _)⟩⟩
    simp only [ofRounded, Nat.pow_eq, if_true]
    split
    · rename_i h
      have hbelow := hcanonical.1 h
      exact iff_of_true rfl ⟨hbelow.le, fun _ => hbelow⟩
    · rename_i h
      exact iff_of_false Bool.false_ne_true fun hbelow => h (hcanonical.2 (hbelow.2 (le_refl _)))
  · have hcanonical : f.Canonical m e ↔ e ≤ f.maxExponent :=
      ⟨fun h => h.2.2.1, fun h => ⟨hm, hleast, h, hnormal.symm⟩⟩
    have hcarry : ¬ m = Nat.pow 2 f.precision := hm.ne
    simp only [ofRounded, hcarry, if_false]
    split
    · rename_i h
      exact iff_of_true rfl ⟨hcanonical.1 h, fun hcarry => absurd hcarry (not_le.2 hm)⟩
    · rename_i h
      exact iff_of_false Bool.false_ne_true fun hle => h (hcanonical.2 hle.1)

/-- A quotient is rounded to a finite number exactly where it is below the overflow bound. -/
theorem isFinite_round_iff (hf : f.IsProper) (hden : 0 < den) :
    (round f negative num den).isFinite = true ↔ (num : Rat) / den < f.overflow := by
  obtain ⟨hleast, hhigh, hlow⟩ := roundingExponent_bounds f num hden
  obtain ⟨hbits, hnormal⟩ := roundedSignificand_bounds hf num hden
  rw [round_eq, isFinite_ofRounded_iff hf hbits hleast hnormal, carries_iff hf hden]
  generalize roundingExponent f num den = e at *
  -- Below the last exponent nothing overflows and above it everything does; at it, what carries.
  rcases lt_trichotomy e f.maxExponent with hbelow | rfl | habove
  · have hunder := hhigh.trans_le (hf.le_overflow (by omega))
    exact ⟨fun _ => hunder, fun _ => ⟨hbelow.le, fun _ => hbelow⟩⟩
  · rw [← BinaryFormat.overflow]
    exact ⟨fun h => lt_of_not_ge fun hover => lt_irrefl _ (h.2 hover),
      fun h => ⟨le_refl _, fun hover => absurd h (not_lt.2 hover)⟩⟩
  · have hover : f.overflow ≤ (num : Rat) / den := by
      have hbound := hlow.resolve_left (by have := hf.range; omega)
      exact (f.overflow_lt.le.trans (zpow_le_zpow_right₀ one_le_two (by omega))).trans hbound
    exact ⟨fun h => absurd h.1 (not_le.2 habove), fun h => absurd h (not_lt.2 hover)⟩

/-- A rounded significand makes an infinite number or one of its own size. -/
theorem ofRounded_cases (hf : f.IsProper) (negative : Bool) (m : Nat) (e : Int) :
    ofRounded f negative m e = .infinite negative ∨
      ∃ m' e' h, ofRounded f negative m e = .finite negative m' e' h ∧
        (m' : Rat) * 2 ^ e' = m * 2 ^ e := by
  have hcarry : ((Nat.pow 2 (f.precision - 1) : Nat) : Rat) * 2 ^ (e + 1)
      = (Nat.pow 2 f.precision : Nat) * 2 ^ e := by
    push_cast [Nat.pow_eq]
    rw [zpow_add_one₀ two_ne_zero, mul_comm ((2 : Rat) ^ e), ← mul_assoc, ← pow_succ,
      Nat.sub_add_cancel hf.positive]
  by_cases hm : m = Nat.pow 2 f.precision
  · subst hm
    simp only [ofRounded, if_true]
    split
    · rename_i h
      exact .inr ⟨_, _, h, rfl, hcarry⟩
    · exact .inl rfl
  · simp only [ofRounded, hm, if_false]
    split
    · rename_i h
      exact .inr ⟨m, e, h, rfl, rfl⟩
    · exact .inl rfl

/-! ## Numbers and their conversions -/

/-- The magnitude of a finite number. -/
def magnitude : Binary f → Rat
  | finite _ m e _ => m * 2 ^ e
  | _ => 0

/-- A number is converted to a finite one exactly where it is finite itself and below the overflow
bound. -/
theorem isFinite_convert_iff (hg : g.IsProper) (x : Binary f) :
    (x.convert g).isFinite = true ↔ x.isFinite = true ∧ x.magnitude < g.overflow := by
  cases x with
  | nan => exact ⟨nofun, nofun⟩
  | infinite negative => exact ⟨nofun, nofun⟩
  | finite negative m e h =>
      have hden : 0 < Nat.pow 2 (-e).toNat := Nat.two_pow_pos _
      have hquotient : ((m * Nat.pow 2 e.toNat : Nat) : Rat) / (Nat.pow 2 (-e).toNat : Nat)
          = m * 2 ^ e := by
        rw [quotient_eq, mul_div_cancel_right₀ _ (Nat.cast_pos.2 hden).ne']
      rw [convert, isFinite_round_iff hg hden, hquotient]
      exact ⟨fun h => ⟨rfl, h⟩, And.right⟩

/-- A finite number that is converted to none that is finite is converted to an infinite one. -/
theorem convert_eq_infinite (hg : g.IsProper) {x : Binary f} (hx : x.isFinite = true)
    (h : (x.convert g).isFinite = false) : ∃ negative, x.convert g = .infinite negative := by
  cases x with
  | nan => cases hx
  | infinite negative => cases hx
  | finite negative m e _ =>
      rw [convert, round_eq] at h ⊢
      rcases ofRounded_cases hg negative _ _ with hinfinite | ⟨m', e', _, hfinite, -⟩
      · exact ⟨negative, hinfinite⟩
      · rw [hfinite] at h
        cases h

/-- A number stays finite, or is not, in a format that has all numbers of its own. -/
theorem isFinite_convert_of_within (hfg : f.Within g) (x : Binary f) :
    (x.convert g).isFinite = x.isFinite := by
  cases x with
  | nan => rfl
  | infinite negative => rfl
  | finite negative m e h =>
      obtain ⟨m', e', h', heq⟩ := exists_canonical hfg h
      rw [convert_exact h h' heq]
      rfl

/-! ## Integers -/

/-- A quotient below a power of two is not rounded above it. -/
theorem magnitude_round_le (hf : f.IsProper) (hden : 0 < den) {z : Int}
    (hz : f.minExponent + f.precision ≤ z) (h : (num : Rat) / den < 2 ^ z) :
    (round f negative num den).magnitude ≤ 2 ^ z := by
  obtain ⟨-, -, hlow⟩ := roundingExponent_bounds f num hden
  obtain ⟨hbits, -⟩ := roundedSignificand_bounds hf num hden
  -- A carry reaches the next power of two at most, and the bound is one that is not passed.
  have hexponent : roundingExponent f num den + f.precision ≤ z := by
    rcases hlow with hleast | hlow
    · omega
    · have hlt := (zpow_lt_zpow_iff_right₀ one_lt_two).1 (hlow.trans_lt h)
      omega
  rw [round_eq]
  rcases ofRounded_cases hf negative _ _ with hinfinite | ⟨m, e, _, hfinite, hsize⟩
  · have hpos : (0 : Rat) ≤ 2 ^ z := by positivity
    rw [hinfinite]
    exact hpos
  · rw [hfinite, magnitude, hsize]
    calc _ ≤ (2 : Rat) ^ f.precision * 2 ^ roundingExponent f num den := by
          gcongr
          exact_mod_cast hbits
      _ = 2 ^ (roundingExponent f num den + f.precision) := by
          rw [← zpow_natCast, ← zpow_add₀ two_ne_zero, add_comm]
      _ ≤ 2 ^ z := zpow_le_zpow_right₀ one_le_two hexponent

/-- Integers of 64 bits are finite as doubles, and in single precision after that. -/
theorem isFinite_ofInt {n : Int} (hn : n.natAbs < 2 ^ 64) :
    (ofInt .double n).isFinite = true ∧ ((ofInt .double n).convert .single).isFinite = true := by
  have hquotient : ((n.natAbs : Nat) : Rat) / (1 : Nat) < 2 ^ (64 : Int) := by
    rw [Nat.cast_one, div_one]
    exact_mod_cast hn
  have hdouble : (ofInt .double n).isFinite = true :=
    (isFinite_round_iff BinaryFormat.isProper_double Nat.one_pos).2
      (hquotient.trans_le (BinaryFormat.isProper_double.le_overflow (by decide)))
  have hmagnitude : (ofInt .double n).magnitude ≤ 2 ^ (64 : Int) :=
    magnitude_round_le BinaryFormat.isProper_double Nat.one_pos (by decide) hquotient
  refine ⟨hdouble, (isFinite_convert_iff BinaryFormat.isProper_single _).2 ⟨hdouble, ?_⟩⟩
  calc (ofInt .double n).magnitude ≤ (2 : Rat) ^ (64 : Int) := hmagnitude
    _ < 2 ^ (65 : Int) := zpow_lt_zpow_right₀ one_lt_two (by decide)
    _ ≤ BinaryFormat.single.overflow := BinaryFormat.isProper_single.le_overflow (by decide)

end Binary

end EntityMapper
