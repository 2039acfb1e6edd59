import Discography.Proofs.Decimal.Syntax
import Discography.Proofs.Decimal.Rounding

/-!
# Numerals beyond the range

A numeral has no bound, but the finite numbers have one. A numeral is read as infinity from halfway
between the largest finite number and the next power of two on: that is the tie which rounds up,
since the significand of the largest number is odd. Nothing else that has a point or an exponent is
read as infinity, and nothing at all that has one is read as the non-number.

## Main definitions

* `Binary64.overflowBound`: the least integer that is rounded to infinity
* `Decimal.Overflows`: numerals beyond the range

## Main results

* `Binary64.wordOfRatio_lt_infinityWord_iff`: the ratios that are rounded to a finite number
* `Decimal.RealNumeral.isFinite_iff`: the numerals that are read as a finite number
-/

namespace Discography

namespace Binary64

/-! ### Rounding to an even number -/

theorem div_le_roundEven (num den : Nat) : num / den ≤ roundEven num den := by
  simp only [roundEven]
  split_ifs <;> omega

/-- Rounding stays below an even number up to the half in front of it. -/
theorem roundEven_lt_iff {num den bound : Nat} (hden : 0 < den) (heven : bound % 2 = 0) :
    roundEven num den < bound ↔ 2 * num + den < 2 * (bound * den) := by
  have hnum : num / den * den + num % den = num := Nat.div_add_mod' num den
  have hrest : num % den < den := Nat.mod_lt _ hden
  simp only [roundEven]
  generalize num / den = quotient at hnum ⊢
  generalize num % den = rest at hnum hrest ⊢
  rcases Nat.lt_trichotomy (quotient + 1) bound with hlt | rfl | hgt
  · have hle : (quotient + 2) * den ≤ bound * den := Nat.mul_le_mul_right _ hlt
    rw [Nat.add_mul] at hle
    split_ifs <;> omega
  -- only here the half counts, and the quotient is odd, so a tie goes up
  · rw [Nat.add_mul]
    split_ifs <;> omega
  · have hle : bound * den ≤ quotient * den := Nat.mul_le_mul_right _ (by omega)
    split_ifs <;> omega

/-! ### The largest finite number -/

/-- Halfway between the largest finite number, `(2 ^ 53 - 1) * 2 ^ 971`, and `2 ^ 1024`. -/
def overflowBound : Nat := (2 ^ 54 - 1) * 2 ^ 970

/-- Counted in halves of the last place, of which there are `2 ^ 54` up to `2 ^ 1024`. -/
theorem lt_overflowBound_mul_iff {num den : Nat} :
    num < overflowBound * den ↔
      2 * (num * 2 ^ 1074) + den * 2 ^ 2045 < 2 * (2 ^ 53 * (den * 2 ^ 2045)) := by
  have hscaled : 2 * (num * 2 ^ 1074) = num * 2 ^ 1075 := by
    rw [pow_succ 2 1074, mul_comm 2, mul_assoc]
  have hbound : overflowBound * den * 2 ^ 1075 = (2 ^ 54 - 1) * (den * 2 ^ 2045) := by
    rw [overflowBound, show 2045 = 970 + 1075 from rfl, pow_add, mul_assoc, mul_assoc,
      mul_left_comm (2 ^ 970)]
  rw [← Nat.mul_lt_mul_right (Nat.two_pow_pos 1075), hbound, hscaled]
  omega

/-- Shifting leaves at most 53 bits of a quotient, and at least these when it has so many. -/
theorem lt_two_pow_shift (quotient : Nat) :
    quotient < 2 ^ (53 + (Nat.log2 quotient - 52)) := by
  calc quotient < 2 ^ (Nat.log2 quotient + 1) := Nat.lt_log2_self
    _ ≤ 2 ^ (53 + (Nat.log2 quotient - 52)) := Nat.pow_le_pow_right (by decide) (by omega)

theorem two_pow_shift_le (quotient : Nat) (h : 0 < Nat.log2 quotient - 52) :
    2 ^ (52 + (Nat.log2 quotient - 52)) ≤ quotient := by
  have hlog : 52 + (Nat.log2 quotient - 52) = Nat.log2 quotient := by omega
  have hne : quotient ≠ 0 := by
    rintro rfl
    rw [Nat.log2_zero] at h
    omega
  rw [hlog]
  exact Nat.log2_self_le hne

/-- The ratios that are rounded to a finite number lie below the half behind the largest one. -/
theorem wordOfRatio_lt_infinityWord_iff {num den : Nat} (hden : 0 < den) :
    wordOfRatio num den < infinityWord ↔ num < overflowBound * den := by
  rw [wordOfRatio_def, lt_overflowBound_mul_iff, infinityWord, Nat.pow_eq]
  have hupper := lt_two_pow_shift (num * 2 ^ 1074 / den)
  have hlower := two_pow_shift_le (num * 2 ^ 1074 / den)
  generalize num * 2 ^ 1074 = scaled at hupper hlower ⊢
  generalize Nat.log2 (scaled / den) - 52 = shift at hupper hlower ⊢
  rw [Nat.div_lt_iff_lt_mul hden, pow_add, mul_assoc, mul_comm _ den] at hupper
  rw [Nat.le_div_iff_mul_le hden, pow_add, mul_assoc, mul_comm _ den] at hlower
  rcases Nat.lt_trichotomy shift 2045 with hlt | rfl | hgt
  -- a smaller exponent: the significand is at most the one that carries into the next
  · have hround : roundEven scaled (den * 2 ^ shift) < 2 ^ 53 + 2 :=
      (roundEven_lt_iff (Nat.mul_pos hden (Nat.two_pow_pos _)) (by decide)).2 (by
        rw [Nat.add_mul]
        omega)
    have hmore : 2 * (den * 2 ^ shift) ≤ den * 2 ^ 2045 := by
      rw [mul_left_comm, ← pow_succ']
      exact Nat.mul_le_mul_left _ (Nat.pow_le_pow_right (by decide) hlt)
    have hpos : 0 < den * 2 ^ shift := Nat.mul_pos hden (Nat.two_pow_pos _)
    omega
  -- the largest exponent: the significand has to stay below the carry
  · have hround : roundEven scaled (den * 2 ^ 2045) < 2 ^ 53 ↔ _ :=
      roundEven_lt_iff (Nat.mul_pos hden (Nat.two_pow_pos _)) (by decide)
    rw [← hround]
    omega
  · have hround : 2 ^ 52 ≤ roundEven scaled (den * 2 ^ shift) := by
      refine le_trans ?_ (div_le_roundEven _ _)
      rw [Nat.le_div_iff_mul_le (Nat.mul_pos hden (Nat.two_pow_pos _))]
      exact hlower (by omega)
    have hmore : 2 * (den * 2 ^ 2045) ≤ den * 2 ^ shift := by
      rw [mul_left_comm, ← pow_succ']
      exact Nat.mul_le_mul_left _ (Nat.pow_le_pow_right (by decide) hgt)
    have hfar := hlower (by omega)
    omega

/-- The decimal numerals that are rounded to a finite number. -/
theorem wordOfDecimal_lt_infinityWord_iff {digits : Nat} {exponent : Int} :
    wordOfDecimal digits exponent < infinityWord ↔
      digits * 10 ^ exponent.toNat < overflowBound * 10 ^ (-exponent).toNat := by
  rw [wordOfDecimal_eq_wordOfRatio, wordOfRatio_lt_infinityWord_iff (Nat.pow_pos (by decide))]

theorem wordOfDecimal_le_infinityWord (digits : Nat) (exponent : Int) :
    wordOfDecimal digits exponent ≤ infinityWord := by
  rw [wordOfDecimal_eq_wordOfRatio, wordOfRatio_def]
  exact Nat.min_le_right _ _

theorem magnitudeWord_ofWord (negative : Bool) {word : Nat} (h : word < 2 ^ 63) :
    (ofWord negative word).magnitudeWord = word := by
  cases negative <;>
    simp only [magnitudeWord, ofWord, Nat.pow_eq, UInt64.toNat_ofNat', if_true, if_false,
      Bool.false_eq_true] <;> omega

/-- The words up to that of infinity stand for the finite magnitudes, in order, and infinity. -/
theorem isFinite_ofWord (negative : Bool) {word : Nat} (h : word ≤ infinityWord) :
    (ofWord negative word).isFinite ↔ word < infinityWord := by
  have hinfinity : infinityWord = 2047 * 2 ^ 52 := rfl
  have hsmall : word < 2 ^ 63 := by omega
  have hword := magnitudeWord_ofWord negative hsmall
  simp only [isFinite, exponentField, hword, Nat.pow_eq, bne_iff_ne]
  omega

end Binary64

namespace Decimal

open Binary64

/-! ### Numerals beyond the range -/

/-- Digits of a number at or behind the half beyond the largest finite number. -/
inductive Overflows : List Char → Prop
  | mk {sign text : List Char} {negative : Bool} {n : Nat} {e : Int} (hsign : Sign sign negative)
    (h : DecimalNumeral text n e)
    (hbound : overflowBound * 10 ^ (-e).toNat ≤ n * 10 ^ e.toNat) : Overflows (sign ++ text)

/-- Every name has the letter `n`, which no digits have. -/
theorem n_notMem_of_isNumeralChar {text : List Char} (h : ∀ c ∈ text, IsNumeralChar c) :
    'n' ∉ text.map Char.toLower := by
  intro hmem
  obtain ⟨c, hc, hlower⟩ := List.mem_map.mp hmem
  rcases h c hc with hdigit | hother
  · rw [toLower_of_isDigit hdigit] at hlower
    subst hlower
    cases hdigit
  · have hlist : 'n' ∉ ['+', '-', '.', 'e', 'E'].map Char.toLower := by decide
    exact hlist (List.mem_map.mpr ⟨c, hother, hlower⟩)

/-- A numeral with a point or an exponent has digits, so it has no name. -/
theorem RealNumeral.exists_decimal {text : List Char} {x : Binary64} (h : RealNumeral text x)
    (hmark : text.any isRealMark) : ∃ sign digits negative n e, text = sign ++ digits ∧
      Sign sign negative ∧ DecimalNumeral digits n e ∧ x = ofWord negative (wordOfDecimal n e) := by
  have hchars := h.isNumeralChar hmark
  obtain @⟨sign, digits, negative, word, hsign, hmagnitude⟩ := h
  have hname := n_notMem_of_isNumeralChar (List.forall_mem_append.mp hchars).2
  rcases hmagnitude with hnumeral | (hinf | hinf) | hnan
  · exact ⟨sign, digits, negative, _, _, rfl, hsign, hnumeral, rfl⟩
  · exact absurd (hinf ▸ by decide) hname
  · exact absurd (hinf ▸ by decide) hname
  · exact absurd (hnan ▸ by decide) hname

/-- The numerals that are read as a finite number are those in the range. -/
theorem RealNumeral.isFinite_iff {text : List Char} {x : Binary64} (h : RealNumeral text x)
    (hmark : text.any isRealMark) : x.isFinite ↔ ¬ Overflows text := by
  constructor
  · rintro hx @⟨sign, digits, negative, n, e, hsign, hnumeral, hbound⟩
    -- a text is a numeral of one number only
    have hother := readReal_eq_some_iff.mpr (RealNumeral.mk hsign (.decimal hnumeral))
    rw [readReal_eq_some_iff.mpr h] at hother
    obtain rfl := Option.some.inj hother
    rw [isFinite_ofWord negative (wordOfDecimal_le_infinityWord n e),
      wordOfDecimal_lt_infinityWord_iff] at hx
    omega
  · intro hrange
    obtain ⟨sign, digits, negative, n, e, rfl, hsign, hnumeral, rfl⟩ := h.exists_decimal hmark
    rw [isFinite_ofWord negative (wordOfDecimal_le_infinityWord n e),
      wordOfDecimal_lt_infinityWord_iff]
    exact Nat.lt_of_not_le fun hbound => hrange (.mk hsign hnumeral hbound)

/-- A numeral with a point or an exponent is never read as the non-number. -/
theorem RealNumeral.isNaN_eq_false {text : List Char} {x : Binary64} (h : RealNumeral text x)
    (hmark : text.any isRealMark) : x.isNaN = false := by
  obtain ⟨sign, digits, negative, n, e, rfl, hsign, hnumeral, rfl⟩ := h.exists_decimal hmark
  have hle := wordOfDecimal_le_infinityWord n e
  by_cases hlt : wordOfDecimal n e < infinityWord
  · simp [isNaN, (isFinite_ofWord negative hle).mpr hlt]
  · have hinfinite : wordOfDecimal n e = infinityWord := by omega
    rw [hinfinite]
    cases negative <;> decide

end Decimal

end Discography
