import Discography.Proofs.Decimal.Rounding

/-!
# Numerals and their parts

A real numeral is a text of digits, a point with digits behind it, and an exponent, of which the
last two may be missing. A numeral that is put together from such parts stands for the number of its
digits, scaled by its exponent and the places behind its point.

## Main definitions

* `Decimal.Digits`: texts of digits
* `Decimal.Numeral`: the parts of a numeral
* `Decimal.Numeral.text`, `Decimal.Numeral.word`: the numeral, and what it stands for
-/

namespace Discography

/-! ### Texts up to a boundary -/

section boundary

variable {α : Type} {p : α → Bool} {front rest : List α}

theorem Text.takeWhile_append (h : ∀ c ∈ front, p c) (hrest : ∀ c ∈ rest.head?, p c = false) :
    (front ++ rest).takeWhile p = front := by
  have hnone : rest.takeWhile p = [] := by
    cases rest with
    | nil => rfl
    | cons c rest => exact List.takeWhile_cons_of_neg (by simp [hrest c rfl])
  rw [List.takeWhile_append_of_pos h, hnone, List.append_nil]

theorem Text.dropWhile_append (h : ∀ c ∈ front, p c) (hrest : ∀ c ∈ rest.head?, p c = false) :
    (front ++ rest).dropWhile p = rest := by
  rw [List.dropWhile_append_of_pos h]
  cases rest with
  | nil => rfl
  | cons c rest => exact List.dropWhile_cons_of_neg (by simp [hrest c rfl])

end boundary

namespace Decimal

/-! ### Digits -/

/-- A text that consists of digits. -/
def Digits (text : List Char) : Prop := ∀ c ∈ text, isDigit c

theorem digitsValue_eq_ofDigitChars (total : Nat) (digits : List Char) :
    digitsValue total digits = Nat.ofDigitChars 10 digits total := by
  rw [Nat.ofDigitChars_eq_foldl]; rfl

theorem digits_writeNat (n : Nat) : Digits (writeNat n) := fun _ hc =>
  Nat.isDigit_of_mem_toDigits (by decide) (by decide) hc

@[simp] theorem digitsValue_writeNat (n : Nat) : digitsValue 0 (writeNat n) = n := by
  rw [digitsValue_eq_ofDigitChars, writeNat, Nat.ofDigitChars_ten_toDigits]

theorem digitsValue_append_zeros (digits : List Char) (k : Nat) :
    digitsValue 0 (digits ++ List.replicate k '0') = digitsValue 0 digits * 10 ^ k := by
  simp only [digitsValue_eq_ofDigitChars, Nat.ofDigitChars_append,
    Nat.ofDigitChars_replicate_zero, Nat.mul_comm]

theorem digitsValue_zeros_append (digits : List Char) (k : Nat) :
    digitsValue 0 (List.replicate k '0' ++ digits) = digitsValue 0 digits := by
  simp only [digitsValue_eq_ofDigitChars, Nat.ofDigitChars_append,
    Nat.ofDigitChars_replicate_zero, Nat.mul_zero]

theorem digits_zeros (k : Nat) : Digits (List.replicate k '0') := by
  intro c hc
  rw [List.eq_of_mem_replicate hc]
  rfl

theorem Digits.append {a b : List Char} (ha : Digits a) (hb : Digits b) : Digits (a ++ b) :=
  fun c hc => (List.mem_append.1 hc).elim (ha c) (hb c)

theorem Digits.takeWhile_append {a : List Char} (ha : Digits a) {rest : List Char}
    (hrest : ∀ c ∈ rest.head?, isDigit c = false) : (a ++ rest).takeWhile isDigit = a :=
  Text.takeWhile_append ha hrest

theorem Digits.dropWhile_append {a : List Char} (ha : Digits a) {rest : List Char}
    (hrest : ∀ c ∈ rest.head?, isDigit c = false) : (a ++ rest).dropWhile isDigit = rest :=
  Text.dropWhile_append ha hrest

theorem writeNat_ne_nil (n : Nat) : writeNat n ≠ [] := Nat.toDigits_ne_nil

/-- A digit is no sign, no point and no letter. -/
theorem ne_of_isDigit {c d : Char} (hc : isDigit c) (hd : isDigit d = false) : c ≠ d := by
  rintro rfl
  rw [hc] at hd
  exact Bool.noConfusion hd

@[simp] theorem readNatural?_writeNat (n : Nat) : readNatural? (writeNat n) = some n := by
  have hall : (writeNat n).all isDigit := List.all_eq_true.2 (digits_writeNat n)
  have hne : (writeNat n).isEmpty = false := by simp [writeNat_ne_nil]
  simp [readNatural?, hall, hne]

/-! ### Numerals -/

/-- The parts of a numeral without sign. -/
structure Numeral where
  whole : List Char
  /-- The digits behind the point; without any there is no point. -/
  places : List Char
  exponent : Option Int

namespace Numeral

/-- What follows the significand. -/
def tail (n : Numeral) : List Char := n.exponent.elim [] fun e => 'e' :: writeInt e

/-- What follows the digits before the point. -/
def fractionAndTail (n : Numeral) : List Char :=
  if n.places.isEmpty then n.tail else '.' :: n.places ++ n.tail

/-- The numeral. -/
def text (n : Numeral) : List Char := n.whole ++ n.fractionAndTail

/-- There is a digit before the point, and only digits stand around it. -/
structure Valid (n : Numeral) : Prop where
  whole_ne_nil : n.whole ≠ []
  whole_digits : Digits n.whole
  places_digits : Digits n.places

/-- The magnitude word of the number that the numeral stands for. -/
def word (n : Numeral) : Nat :=
  Binary64.wordOfDecimal (digitsValue 0 (n.whole ++ n.places))
    (n.exponent.getD 0 - n.places.length)

/-- The numeral has a point or an exponent. -/
def IsReal (n : Numeral) : Prop := n.places ≠ [] ∨ n.exponent.isSome

variable {n : Numeral}

theorem not_isDigit_of_mem_head?_tail : ∀ c ∈ n.tail.head?, isDigit c = false := by
  intro c hc
  cases he : n.exponent with
  | none => simp [tail, he] at hc
  | some e =>
    obtain rfl : 'e' = c := by simpa [tail, he] using hc
    rfl

theorem not_isDigit_of_mem_head?_fractionAndTail :
    ∀ c ∈ n.fractionAndTail.head?, isDigit c = false := by
  intro c hc
  by_cases hplaces : n.places.isEmpty
  · rw [fractionAndTail, if_pos hplaces] at hc
    exact not_isDigit_of_mem_head?_tail c hc
  · obtain rfl : '.' = c := by simpa [fractionAndTail, hplaces] using hc
    rfl

end Numeral

end Decimal

end Discography
