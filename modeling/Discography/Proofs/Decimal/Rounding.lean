import Discography.Decimal.Real
import Mathlib.Tactic.Ring
import Mathlib.Algebra.Order.Ring.Nat

/-!
# Rounding of decimal numerals

The word nearest to a ratio depends on the ratio alone, so a numeral may gain or lose zeros at its
end without changing the number it stands for. Numerals that are too small or too large to be looked
at are read as if they had been. A finite magnitude is the word nearest to its own exact expansion.

## Main results

* `Binary64.wordOfRatio_mul_left`: numerator and denominator may be multiplied
* `Binary64.wordOfDecimal_mul_pow`: trailing zeros move into the exponent
* `Binary64.wordOfDecimal_exact`: the exact expansion of a magnitude reads back
* `Decimal.wordOfNumeral_eq`: the shortcuts for extreme numerals agree with rounding
-/

namespace Discography

namespace Binary64

theorem roundEven_mul_left (k num den : Nat) (hk : 0 < k) :
    roundEven (k * num) (k * den) = roundEven num den := by
  have hrest : 2 * (k * (num % den)) = k * (2 * (num % den)) := by ring
  -- quotient and comparison stay, and the remainder grows with the denominator
  simp only [roundEven, Nat.mul_div_mul_left _ _ hk, Nat.mul_mod_mul_left, hrest,
    Nat.mul_lt_mul_left hk]

/-- The nearest word depends on the ratio alone. -/
theorem wordOfRatio_mul_left (k num den : Nat) (hk : 0 < k) :
    wordOfRatio (k * num) (k * den) = wordOfRatio num den := by
  have hscaled : k * num * 2 ^ 1074 = k * (num * 2 ^ 1074) := Nat.mul_assoc ..
  simp only [wordOfRatio, Nat.pow_eq, hscaled, Nat.mul_div_mul_left _ _ hk, Nat.mul_assoc k den,
    roundEven_mul_left _ _ _ hk]

/-- The ratio of a numeral, whatever the sign of its exponent. -/
theorem wordOfDecimal_eq_wordOfRatio (digits : Nat) (exponent : Int) :
    wordOfDecimal digits exponent =
      wordOfRatio (digits * 10 ^ exponent.toNat) (10 ^ (-exponent).toNat) := by
  -- one of the two powers is always the empty one
  by_cases h : 0 ≤ exponent
  · have hzero : (-exponent).toNat = 0 := by omega
    simp only [wordOfDecimal, Nat.pow_eq, h, if_true, hzero, pow_zero]
  · have hzero : exponent.toNat = 0 := by omega
    simp only [wordOfDecimal, Nat.pow_eq, h, if_false, hzero, pow_zero, mul_one]

/-- Zeros at the end of a numeral move into its exponent. -/
theorem wordOfDecimal_mul_pow (digits k : Nat) (exponent : Int) :
    wordOfDecimal (digits * 10 ^ k) exponent = wordOfDecimal digits (exponent + k) := by
  -- the powers that numerator and denominator have in common
  let common := min k (-exponent).toNat
  have hnum : k + exponent.toNat = common + (exponent + k).toNat := by omega
  have hden : (-exponent).toNat = common + (-(exponent + k)).toNat := by omega
  rw [wordOfDecimal_eq_wordOfRatio, wordOfDecimal_eq_wordOfRatio, mul_assoc, ← pow_add, hnum, hden,
    pow_add, pow_add, mul_left_comm, wordOfRatio_mul_left _ _ _ (Nat.pow_pos (by decide))]

theorem wordOfRatio_def (num den : Nat) :
    wordOfRatio num den =
      min ((Nat.log2 (num * 2 ^ 1074 / den) - 52) * 2 ^ 52 +
        roundEven (num * 2 ^ 1074) (den * 2 ^ (Nat.log2 (num * 2 ^ 1074 / den) - 52)))
        infinityWord := by
  simp only [wordOfRatio, Nat.pow_eq]

/-- A ratio below half of the least number is zero. -/
theorem wordOfRatio_eq_zero {num den : Nat} (h : 2 * (num * 2 ^ 1074) < den) :
    wordOfRatio num den = 0 := by
  rw [wordOfRatio_def]
  generalize num * 2 ^ 1074 = scaled at h ⊢
  have hdiv : scaled / den = 0 := Nat.div_eq_of_lt (by omega)
  have hmod : scaled % den = scaled := Nat.mod_eq_of_lt (by omega)
  have hround : roundEven scaled (den * 2 ^ 0) = 0 := by
    rw [roundEven, pow_zero, mul_one, hmod, if_pos h, hdiv]
  rw [hdiv, Nat.log2_zero, Nat.zero_sub, hround, zero_mul, Nat.zero_min]

/-- A ratio of at least `2 ^ 1029` is infinite. -/
theorem wordOfRatio_eq_infinityWord {num den : Nat} (hden : 0 < den) (h : den * 2 ^ 1029 ≤ num) :
    wordOfRatio num den = infinityWord := by
  have hquot : 2 ^ (1029 + 1074) ≤ num * 2 ^ 1074 / den := by
    rw [Nat.le_div_iff_mul_le hden, Nat.mul_comm]
    calc den * 2 ^ (1029 + 1074) = den * 2 ^ 1029 * 2 ^ 1074 := by rw [pow_add, mul_assoc]
      _ ≤ num * 2 ^ 1074 := Nat.mul_le_mul_right _ h
  rw [wordOfRatio_def]
  generalize num * 2 ^ 1074 / den = quotient at hquot ⊢
  have hpos : quotient ≠ 0 := by
    rintro rfl
    exact Nat.not_le_of_gt (Nat.two_pow_pos (1029 + 1074)) hquot
  -- the number of the leading bit alone makes an exponent beyond that of the format
  have hlog : 1029 + 1074 ≤ Nat.log2 quotient := (Nat.le_log2 hpos).2 hquot
  refine Nat.min_eq_right (Nat.le_trans ?_ (Nat.le_add_right _ _))
  exact Nat.mul_le_mul_right _ (by omega)

@[simp] theorem wordOfDecimal_zero (exponent : Int) : wordOfDecimal 0 exponent = 0 := by
  rw [wordOfDecimal_eq_wordOfRatio]
  refine wordOfRatio_eq_zero ?_
  rw [zero_mul, zero_mul, mul_zero]
  exact Nat.pow_pos (by decide)

theorem roundEven_mul_self (quotient : Nat) {den : Nat} (hden : 0 < den) :
    roundEven (quotient * den) den = quotient := by
  have hdiv : quotient * den / den = quotient := Nat.mul_div_cancel _ hden
  simp [roundEven, hdiv, hden]

/-- The word nearest to a number of units of `2 ^ -1074`. -/
theorem wordOfRatio_units (units : Nat) :
    wordOfRatio units (2 ^ 1074) =
      min ((Nat.log2 units - 52) * 2 ^ 52 + roundEven units (2 ^ (Nat.log2 units - 52)))
        infinityWord := by
  have hquot : units * 2 ^ 1074 / 2 ^ 1074 = units := Nat.mul_div_cancel _ (Nat.two_pow_pos _)
  rw [wordOfRatio_def, hquot, Nat.mul_comm units, roundEven_mul_left _ _ _ (Nat.two_pow_pos _)]

theorem magnitudeWord_eq (x : Binary64) :
    x.magnitudeWord = x.exponentField * 2 ^ 52 + x.fraction :=
  (Nat.div_add_mod' x.magnitudeWord (2 ^ 52)).symm

theorem fraction_lt (x : Binary64) : x.fraction < 2 ^ 52 := Nat.mod_lt _ (by decide)

theorem magnitudeWord_lt_infinityWord {x : Binary64} (h : x.isFinite) :
    x.magnitudeWord < infinityWord := by
  have hne : x.exponentField ≠ 2047 := by simpa [isFinite] using h
  have hword : x.magnitudeWord < 2 ^ 63 := Nat.mod_lt _ (by decide)
  have hfraction := x.fraction_lt
  have heq := x.magnitudeWord_eq
  simp only [infinityWord, Nat.pow_eq]
  omega

/-- A finite magnitude is the word nearest to its number of units. -/
theorem wordOfRatio_of_isFinite {x : Binary64} (h : x.isFinite) :
    wordOfRatio x.units (2 ^ 1074) = x.magnitudeWord := by
  have hword := magnitudeWord_lt_infinityWord h
  have hfraction := x.fraction_lt
  rw [wordOfRatio_units, magnitudeWord_eq] at *
  by_cases hzero : x.exponentField = 0
  -- below the least normal number no bits are cut off
  · have hshift : Nat.log2 x.fraction - 52 = 0 := by
      rcases Nat.eq_zero_or_pos x.fraction with hf | hf
      · rw [hf]; rfl
      · have := (Nat.log2_lt (Nat.ne_of_gt hf)).2 hfraction
        omega
    have hround : roundEven x.fraction (2 ^ 0) = x.fraction := by
      simpa using roundEven_mul_self x.fraction Nat.one_pos
    rw [units, if_pos hzero, hshift, hround, hzero]
    rw [hzero] at hword
    exact Nat.min_eq_left hword.le
  · -- the leading bit is the one that the exponent field stands for
    have hlog : Nat.log2 ((2 ^ 52 + x.fraction) * 2 ^ (x.exponentField - 1)) =
        52 + (x.exponentField - 1) := by
      refine (Nat.log2_eq_iff ?_).2 ⟨?_, ?_⟩
      · exact Nat.ne_of_gt (Nat.mul_pos (by omega) (Nat.two_pow_pos _))
      · rw [pow_add]
        exact Nat.mul_le_mul_right _ (by omega)
      · rw [show 52 + (x.exponentField - 1) + 1 = 53 + (x.exponentField - 1) by omega, pow_add]
        exact Nat.mul_lt_mul_of_pos_right (by omega) (Nat.two_pow_pos _)
    have hshift : 52 + (x.exponentField - 1) - 52 = x.exponentField - 1 := by omega
    rw [units, if_neg hzero, Nat.pow_eq, Nat.pow_eq, hlog, hshift,
      roundEven_mul_self _ (Nat.two_pow_pos _)]
    omega

/-- The exact expansion of a finite magnitude reads back. -/
theorem wordOfDecimal_exact {x : Binary64} (h : x.isFinite) :
    wordOfDecimal (x.units * 5 ^ 1074) (-1074) = x.magnitudeWord := by
  have hden : 10 ^ (- -1074 : Int).toNat = 5 ^ 1074 * 2 ^ 1074 := by
    rw [← Nat.mul_pow]; rfl
  have hnum : x.units * 5 ^ 1074 * 10 ^ (-1074 : Int).toNat = 5 ^ 1074 * x.units := by
    rw [Nat.mul_comm x.units]; exact Nat.mul_one _
  -- tens are fives times twos, and the fives cancel
  rw [wordOfDecimal_eq_wordOfRatio, hden, hnum,
    wordOfRatio_mul_left _ _ _ (Nat.pow_pos (by decide)), wordOfRatio_of_isFinite h]

end Binary64

namespace Decimal

open Binary64

theorem length_writeNat_pos (n : Nat) : 0 < (writeNat n).length := Nat.length_toDigits_pos

theorem lt_pow_length_writeNat (n : Nat) : n < 10 ^ (writeNat n).length :=
  (Nat.length_toDigits_le_iff (by decide) (length_writeNat_pos n)).1 (Nat.le_refl _)

theorem pow_length_writeNat_le {n : Nat} (hn : 0 < n) : 10 ^ ((writeNat n).length - 1) ≤ n := by
  by_cases hlen : (writeNat n).length - 1 = 0
  · rw [hlen]
    exact hn
  -- a smaller number would be written with fewer digits
  · refine Nat.le_of_not_lt fun hlt => ?_
    have := (Nat.length_toDigits_le_iff (b := 10) (by decide) (Nat.pos_of_ne_zero hlen)).2 hlt
    exact absurd this (by have := length_writeNat_pos n; simp only [writeNat] at *; omega)

/-- Numerals beyond the range of the format need no extra rule. -/
theorem wordOfNumeral_eq (significand : Nat) (exponent : Int) :
    wordOfNumeral significand exponent = wordOfDecimal significand exponent := by
  have hupper := lt_pow_length_writeNat significand
  have hpos := length_writeNat_pos significand
  simp only [wordOfNumeral, Bool.or_eq_true, decide_eq_true_eq]
  split
  · rename_i hsmall
    rcases hsmall with rfl | hsmall
    · exact (wordOfDecimal_zero exponent).symm
    · -- `significand * 10 ^ exponent` lies below `10 ^ -331`
      have hexp : exponent.toNat = 0 := by omega
      have hneg : (-exponent).toNat =
          331 + (writeNat significand).length + ((-exponent).toNat - 331 -
            (writeNat significand).length) := by omega
      rw [wordOfDecimal_eq_wordOfRatio, hexp, pow_zero, mul_one]
      refine (wordOfRatio_eq_zero ?_).symm
      have hgap : 2 * 2 ^ 1074 ≤ 10 ^ 331 := by decide +kernel
      calc 2 * (significand * 2 ^ 1074)
          = 2 * 2 ^ 1074 * significand := by ring
        _ < 10 ^ 331 * 10 ^ (writeNat significand).length :=
          Nat.mul_lt_mul_of_le_of_lt hgap hupper (Nat.pow_pos (by decide))
        _ ≤ 10 ^ (-exponent).toNat := by
          rw [← pow_add]
          exact Nat.pow_le_pow_right (by decide) (by omega)
  · split
    · rename_i hzero hlarge
      -- `significand * 10 ^ exponent` is at least `10 ^ 310`
      have hlower := pow_length_writeNat_le (n := significand) (by omega)
      rw [wordOfDecimal_eq_wordOfRatio]
      refine (wordOfRatio_eq_infinityWord (Nat.pow_pos (by decide)) ?_).symm
      have hgap : 2 ^ 1029 ≤ 10 ^ 310 := by decide +kernel
      calc 10 ^ (-exponent).toNat * 2 ^ 1029
          ≤ 10 ^ (-exponent).toNat * 10 ^ 310 := Nat.mul_le_mul_left _ hgap
        _ ≤ 10 ^ ((writeNat significand).length - 1) * 10 ^ exponent.toNat := by
          rw [← pow_add, ← pow_add]
          exact Nat.pow_le_pow_right (by decide) (by omega)
        _ ≤ significand * 10 ^ exponent.toNat := Nat.mul_le_mul_right _ hlower
    · rfl

end Decimal

end Discography
