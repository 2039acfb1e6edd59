import Discography.Decimal.Layout
import Discography.Proofs.Decimal.Syntax

/-!
# Real numerals are read back

The digits that are written for a finite number read back to it, wherever the layout of literals
puts the point.

## Main definitions

* `Decimal.Expansion.numeral`: the parts of the numeral that is written for an expansion

## Main results

* `Decimal.reads_shortest`: the shortest expansion reads back
* `Decimal.realNumeral_write`: a literal of a finite number is a numeral of it
* `Decimal.readReal_write`: a literal of a finite number is read as that number
-/

namespace Discography.Decimal

open Binary64

/-! ### Expansions that read back -/

/-- The digits of an expansion read back to a magnitude word. -/
structure Expansion.Reads (e : Expansion) (word : Nat) : Prop where
  digits_ne_nil : e.digits ≠ []
  digits : Digits e.digits
  word_eq : wordOfDecimal (digitsValue 0 e.digits) (e.point - e.digits.length) = word

theorem Expansion.reads_zero : Expansion.zero.Reads 0 where
  digits_ne_nil := by simp [zero]
  digits := by simp [Digits, zero]; rfl
  word_eq := wordOfDecimal_zero _

/-- A text without the zeros at its end, and these zeros. -/
theorem exists_append_zeros (text : List Char) :
    ∃ k, text = (text.reverse.dropWhile (· == '0')).reverse ++ List.replicate k '0' := by
  refine ⟨(text.reverse.takeWhile (· == '0')).length, ?_⟩
  have hzeros : (text.reverse.takeWhile (· == '0')).reverse =
      List.replicate (text.reverse.takeWhile (· == '0')).length '0' := by
    rw [List.eq_replicate_iff]
    refine ⟨List.length_reverse, fun c hc => ?_⟩
    simpa using List.all_eq_true.1 (List.all_takeWhile (p := (· == '0'))) c (List.mem_reverse.1 hc)
  rw [← hzeros, ← List.reverse_append, List.takeWhile_append_dropWhile, List.reverse_reverse]

/-- An expansion of a positive significand reads back to the word nearest to it. -/
theorem Expansion.reads_ofScaled {significand : Nat} (hpos : 0 < significand) (exponent : Int) :
    (Expansion.ofScaled significand exponent).Reads (wordOfDecimal significand exponent) := by
  obtain ⟨k, hk⟩ := exists_append_zeros (writeNat significand)
  generalize hstripped : ((writeNat significand).reverse.dropWhile (· == '0')).reverse = stripped
    at hk
  have hdigits : Digits stripped := fun c hc =>
    digits_writeNat significand c (by rw [hk]; exact List.mem_append_left _ hc)
  -- the zeros that are left out move into the exponent
  have hvalue : significand = digitsValue 0 stripped * 10 ^ k := by
    rw [← digitsValue_append_zeros, ← hk, digitsValue_writeNat]
  have hlength : (writeNat significand).length = stripped.length + k := by
    conv_lhs => rw [hk, List.length_append, List.length_replicate]
  have hofScaled : Expansion.ofScaled significand exponent =
      ⟨stripped, (writeNat significand).length + exponent⟩ := by
    rw [Expansion.ofScaled, hstripped]
  rw [hofScaled]
  refine ⟨?_, hdigits, ?_⟩
  · rintro rfl
    rw [hvalue] at hpos
    simp [digitsValue] at hpos
  · have hexp : ((writeNat significand).length + exponent : Int) - stripped.length =
        exponent + k := by omega
    conv_rhs => rw [hvalue]
    rw [wordOfDecimal_mul_pow]
    exact congrArg _ hexp

theorem Expansion.reads_withDigits? {tie : Tie} {word units count : Nat} {point : Int}
    {e : Expansion} (hword : word ≠ 0) (h : withDigits? tie word units point count = some e) :
    e.Reads word := by
  obtain ⟨significand, hfound, rfl⟩ := Option.map_eq_some_iff.1 h
  have hread : wordOfDecimal significand (point - count) = word := by
    simpa using List.find?_some hfound
  -- zero would be read as the word of zero
  have hpos : 0 < significand := by
    refine Nat.pos_of_ne_zero fun hzero => hword ?_
    rw [← hread, hzero, wordOfDecimal_zero]
  exact hread ▸ Expansion.reads_ofScaled hpos _

theorem units_pos {x : Binary64} (h : x.magnitudeWord ≠ 0) : 0 < x.units := by
  have heq := x.magnitudeWord_eq
  by_cases hzero : x.exponentField = 0
  · rw [units, if_pos hzero]
    omega
  · rw [units, if_neg hzero, Nat.pow_eq, Nat.pow_eq]
    exact Nat.mul_pos (by omega) (Nat.two_pow_pos _)

/-- The shortest expansion of a finite magnitude reads back, also where the search for it fails. -/
theorem reads_shortest (tie : Tie) {x : Binary64} (h : x.isFinite) :
    (shortest tie x).Reads x.magnitudeWord := by
  by_cases hzero : x.magnitudeWord = 0
  · rw [shortest, if_pos hzero, hzero]
    exact Expansion.reads_zero
  · rw [shortest, if_neg hzero]
    cases hsearch : ((List.range 17).map (· + 1)).findSome?
        (withDigits? tie x.magnitudeWord x.units (pointOfUnits x.units)) with
    -- with no digits found, all digits of the exact value are written
    | none =>
      have hpos : 0 < x.units * 5 ^ 1074 := Nat.mul_pos (units_pos hzero) (Nat.pow_pos (by decide))
      simpa only [hsearch, Option.getD_none, Nat.pow_eq, wordOfDecimal_exact h] using
        Expansion.reads_ofScaled hpos (-1074)
    | some e =>
      obtain ⟨count, -, hcount⟩ := List.exists_of_findSome?_eq_some hsearch
      simpa only [hsearch, Option.getD_some] using Expansion.reads_withDigits? hzero hcount

/-! ### The layout of literals -/

namespace Expansion

/-- The parts of the numeral that is written for an expansion. -/
def numeral (e : Expansion) : Numeral :=
  if Layout.literal.isPositional e then
    if e.point ≤ 0 then ⟨['0'], List.replicate (-e.point).toNat '0' ++ e.digits, none⟩
    else if e.digits.length ≤ e.point.toNat then
      ⟨e.digits ++ List.replicate (e.point.toNat - e.digits.length) '0', ['0'], none⟩
    else ⟨e.digits.take e.point.toNat, e.digits.drop e.point.toNat, none⟩
  else ⟨e.digits.take 1, e.digits.drop 1, some (e.point - 1)⟩

/-- The numeral is what the layout of literals writes. -/
theorem text_numeral (e : Expansion) (hne : e.digits ≠ []) :
    e.numeral.text = if Layout.literal.isPositional e then Layout.literal.positional e
      else Layout.literal.scientific e := by
  have hmark : Layout.literal.wholeMark = true := rfl
  have hsign : Layout.literal.plusSign = false := rfl
  by_cases hpos : Layout.literal.isPositional e
  · rw [if_pos hpos, numeral, if_pos hpos]
    by_cases hpoint : e.point ≤ 0
    · simp [Layout.positional, hpoint, Numeral.text, Numeral.fractionAndTail, Numeral.tail, hne]
    · by_cases hlen : e.digits.length ≤ e.point.toNat
      · simp [Layout.positional, hpoint, hlen, hmark, Numeral.text, Numeral.fractionAndTail,
          Numeral.tail]
      · simp [Layout.positional, hpoint, hlen, Numeral.text, Numeral.fractionAndTail, Numeral.tail]
  · rw [if_neg hpos, numeral, if_neg hpos]
    by_cases htail : e.digits.tail = []
    · simp [Layout.scientific, hsign, htail, Numeral.text, Numeral.fractionAndTail, Numeral.tail]
    · simp [Layout.scientific, hsign, htail, Numeral.text, Numeral.fractionAndTail, Numeral.tail]

theorem isReal_numeral (e : Expansion) (hne : e.digits ≠ []) : e.numeral.IsReal := by
  by_cases hpos : Layout.literal.isPositional e
  · refine Or.inl ?_
    rw [numeral, if_pos hpos]
    split
    · simp [hne]
    · split
      · simp
      · rename_i hlen
        simpa [List.drop_eq_nil_iff] using hlen
  · exact Or.inr (by rw [numeral, if_neg hpos]; rfl)

theorem valid_numeral {e : Expansion} (hne : e.digits ≠ []) (hdigits : Digits e.digits) :
    e.numeral.Valid := by
  have htake : ∀ k, Digits (e.digits.take k) := fun k c hc => hdigits c (List.mem_of_mem_take hc)
  have hdrop : ∀ k, Digits (e.digits.drop k) := fun k c hc => hdigits c (List.mem_of_mem_drop hc)
  rw [numeral]
  split
  · split
    · exact ⟨by simp, digits_zeros 1, (digits_zeros _).append hdigits⟩
    · split
      · exact ⟨by simp [hne], hdigits.append (digits_zeros _), digits_zeros 1⟩
      · exact ⟨by simp [hne]; omega, htake _, hdrop _⟩
  · exact ⟨by simp [hne], htake _, hdrop _⟩

/-- Wherever the point stands, the numeral is that of the expansion. -/
theorem word_numeral {e : Expansion} (hne : e.digits ≠ []) :
    e.numeral.word = wordOfDecimal (digitsValue 0 e.digits) (e.point - e.digits.length) := by
  have hlength : 0 < e.digits.length := List.length_pos_iff.2 hne
  rw [numeral]
  split
  · split
    -- the zeros behind the point stand for the distance to the first digit
    · have hexp : (0 : Int) - ((-e.point).toNat + e.digits.length : Nat) =
          e.point - e.digits.length := by omega
      have hdigits : digitsValue 0 (['0'] ++ (List.replicate (-e.point).toNat '0' ++ e.digits)) =
          digitsValue 0 e.digits := by
        rw [← List.append_assoc, ← digitsValue_zeros_append e.digits ((-e.point).toNat + 1),
          List.replicate_succ]
        rfl
      simp only [Numeral.word, hdigits, Option.getD_none, List.length_append,
        List.length_replicate, hexp]
    · split
      · -- the place behind the point is one more zero at the end
        have hdigits : digitsValue 0 (e.digits ++
            List.replicate (e.point.toNat - e.digits.length) '0' ++ ['0']) =
              digitsValue 0 e.digits * 10 ^ (e.point.toNat - e.digits.length + 1) := by
          rw [← digitsValue_append_zeros, List.append_assoc, List.replicate_succ']
        have hexp : (0 : Int) - (1 : Nat) + (e.point.toNat - e.digits.length + 1 : Nat) =
            e.point - e.digits.length := by omega
        simp only [Numeral.word, hdigits, Option.getD_none, List.length_singleton,
          wordOfDecimal_mul_pow, hexp]
      · have hexp : (0 : Int) - (e.digits.length - e.point.toNat : Nat) =
            e.point - e.digits.length := by omega
        simp only [Numeral.word, List.take_append_drop, Option.getD_none, List.length_drop, hexp]
  -- the point stands behind the first digit, and the exponent makes up for it
  · have hexp : e.point - 1 - (e.digits.length - 1 : Nat) = e.point - e.digits.length := by omega
    simp only [Numeral.word, List.take_append_drop, Option.getD_some, List.length_drop, hexp]

end Expansion

/-! ### Reading what was written -/

theorem ofWord_magnitudeWord (x : Binary64) : ofWord x.negative x.magnitudeWord = x := by
  obtain ⟨bits⟩ := x
  have hlt := bits.toNat_lt
  have hword : (if (2 ^ 63 ≤ bits.toNat) then 2 ^ 63 + bits.toNat % 2 ^ 63
      else bits.toNat % 2 ^ 63) = bits.toNat := by
    split <;> omega
  simp only [ofWord, negative, magnitudeWord, Nat.pow_eq, decide_eq_true_eq, hword,
    UInt64.ofNat_toNat]

/-- The numeral of a finite magnitude. -/
def magnitudeNumeral (x : Binary64) : Numeral :=
  (shortest Layout.literal.tie x).numeral

variable {x : Binary64}

theorem text_magnitudeNumeral (h : x.isFinite) :
    (magnitudeNumeral x).text = Layout.literal.magnitude x :=
  Expansion.text_numeral _ (reads_shortest _ h).digits_ne_nil

theorem valid_magnitudeNumeral (h : x.isFinite) : (magnitudeNumeral x).Valid :=
  Expansion.valid_numeral (reads_shortest _ h).digits_ne_nil (reads_shortest _ h).digits

theorem isReal_magnitudeNumeral (h : x.isFinite) : (magnitudeNumeral x).IsReal :=
  Expansion.isReal_numeral _ (reads_shortest _ h).digits_ne_nil

theorem word_magnitudeNumeral (h : x.isFinite) : (magnitudeNumeral x).word = x.magnitudeWord := by
  rw [magnitudeNumeral, Expansion.word_numeral (reads_shortest _ h).digits_ne_nil,
    (reads_shortest _ h).word_eq]

/-- The literal of a finite number is its numeral behind its sign. -/
theorem write_of_isFinite (h : x.isFinite) : Layout.literal.write x =
    if x.negative then '-' :: (magnitudeNumeral x).text else (magnitudeNumeral x).text := by
  have hnan : x.isNaN = false := by simp [Binary64.isNaN, h]
  simp [Layout.write, hnan, h, text_magnitudeNumeral h]

/-- The first character of a numeral is a digit. -/
theorem Numeral.exists_text_eq_cons {n : Numeral} (h : n.Valid) :
    ∃ c rest, isDigit c ∧ n.text = c :: rest := by
  obtain ⟨c, cs, hcs⟩ := List.exists_cons_of_ne_nil h.whole_ne_nil
  exact ⟨c, cs ++ n.fractionAndTail, h.whole_digits c (by simp [hcs]), by simp [Numeral.text, hcs]⟩

theorem Numeral.exponentPart_tail (n : Numeral) : ExponentPart n.tail (n.exponent.getD 0) := by
  cases he : n.exponent with
  | none =>
    rw [tail, he]
    exact .missing
  | some e =>
    rw [tail, he]
    exact .given (.inl rfl) (integerNumeral_writeInt e)

/-- A numeral that is put together from its parts is one of its number. -/
theorem Numeral.Valid.isMagnitudeNumeral {n : Numeral} (h : n.Valid) :
    MagnitudeNumeral n.text n.word := by
  by_cases hplaces : n.places = []
  · have htext : n.text = n.whole ++ n.tail := by simp [text, fractionAndTail, hplaces]
    have hword : n.word = wordOfDecimal (Nat.ofDigitChars 10 n.whole 0) (n.exponent.getD 0) := by
      simp [word, hplaces, digitsValue_eq_ofDigitChars]
    rw [htext, hword]
    exact .decimal (.whole h.whole_ne_nil h.whole_digits n.exponentPart_tail)
  · have htext : n.text = n.whole ++ '.' :: n.places ++ n.tail := by
      simp [text, fractionAndTail, hplaces]
    rw [htext, word, digitsValue_eq_ofDigitChars]
    exact .decimal
      (.point (.inl h.whole_ne_nil) h.whole_digits h.places_digits n.exponentPart_tail)

/-- The literal of a finite number is a numeral of it. -/
theorem realNumeral_write (h : x.isFinite) : RealNumeral (Layout.literal.write x) x := by
  have hmagnitude := (valid_magnitudeNumeral h).isMagnitudeNumeral
  rw [word_magnitudeNumeral h] at hmagnitude
  have hword := ofWord_magnitudeWord x
  rw [write_of_isFinite h]
  cases hsign : x.negative with
  | true =>
    have hminus := RealNumeral.mk .minus hmagnitude
    rwa [← hsign, hword] at hminus
  | false =>
    have hmissing := RealNumeral.mk .missing hmagnitude
    rwa [← hsign, hword] at hmissing

/-- So it is read as that number. -/
theorem readReal_write (h : x.isFinite) : readReal (Layout.literal.write x) = some x :=
  readReal_eq_some_iff.mpr (realNumeral_write h)

/-! ### Marks -/

theorem Numeral.any_isRealMark_text {n : Numeral} (hn : n.IsReal) : n.text.any isRealMark := by
  rw [text, List.any_append, Bool.or_eq_true]
  right
  by_cases hplaces : n.places = []
  · obtain ⟨e, he⟩ := Option.isSome_iff_exists.1 (hn.resolve_left (by simp [hplaces]))
    simp [fractionAndTail, hplaces, tail, he, isRealMark]
  · simp [fractionAndTail, hplaces, isRealMark]

/-- The literal of a real has a point or an exponent, so it is no integer. -/
theorem any_isRealMark_write {x : Binary64} (hx : x.isFinite) :
    (Layout.literal.write x).any isRealMark := by
  have htext := Numeral.any_isRealMark_text (isReal_magnitudeNumeral hx)
  rw [write_of_isFinite hx]
  split
  · rw [List.any_cons, htext, Bool.or_true]
  · exact htext

end Discography.Decimal
