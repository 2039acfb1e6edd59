/-!
# Binary64 numbers

Floating-point numbers of the interchange format binary64 as their 64-bit words, with exact
arithmetic on natural numbers where it is needed: a finite magnitude is counted in units of
`2 ^ -1074`, the least positive number, and a ratio is rounded to the nearest number, ties to the
even significand.

Words order magnitudes, so a rounded ratio is written down as one sum: the shift of the significand
in its exponent field plus the significand itself, whose leading bit and whose carry both belong to
that field.

## Main definitions

* `Binary64.units`: the magnitude of a finite number
* `Binary64.ofRatio`: the nearest number to a ratio of natural numbers
* `Binary64.ofDecimal`: the nearest number to `digits * 10 ^ exponent`
-/

namespace Discography

/-- A binary64 number, by its word. -/
structure Binary64 where
  /-- One sign bit, eleven exponent bits and fifty-two fraction bits, from the top. -/
  bits : UInt64
  deriving DecidableEq

namespace Binary64

/-- The sign bit, which zeros and non-numbers have too. -/
def negative (x : Binary64) : Bool := Nat.pow 2 63 ≤ x.bits.toNat

/-- The word without its sign bit. -/
def magnitudeWord (x : Binary64) : Nat := x.bits.toNat % Nat.pow 2 63

/-- The exponent field, from 0 to 2047. -/
def exponentField (x : Binary64) : Nat := x.magnitudeWord / Nat.pow 2 52

/-- The fraction field. -/
def fraction (x : Binary64) : Nat := x.magnitudeWord % Nat.pow 2 52

/-- Neither infinite nor a non-number. -/
def isFinite (x : Binary64) : Bool := x.exponentField != 2047

/-- The word stands for no number. -/
def isNaN (x : Binary64) : Bool := !x.isFinite && x.fraction != 0

/-- The word of positive infinity. -/
def infinityWord : Nat := 2047 * Nat.pow 2 52

/-- The number with the given sign and magnitude word. -/
def ofWord (negative : Bool) (word : Nat) : Binary64 :=
  ⟨UInt64.ofNat (if negative then Nat.pow 2 63 + word else word)⟩

/-- A finite magnitude in units of `2 ^ -1074`. -/
def units (x : Binary64) : Nat :=
  if x.exponentField = 0 then x.fraction
  else (Nat.pow 2 52 + x.fraction) * Nat.pow 2 (x.exponentField - 1)

/-- The natural number nearest to `num / den`; a tie goes to the even neighbour. -/
def roundEven (num den : Nat) : Nat :=
  let quotient := num / den
  let rest := num % den
  if 2 * rest < den then quotient
  else if den < 2 * rest then quotient + 1
  else if quotient % 2 = 0 then quotient else quotient + 1

/-- The magnitude word nearest to `num / den`, infinity when that lies beyond the largest number. -/
def wordOfRatio (num den : Nat) : Nat :=
  let scaled := num * Nat.pow 2 1074
  let shift := Nat.log2 (scaled / den) - 52
  min (shift * Nat.pow 2 52 + roundEven scaled (den * Nat.pow 2 shift)) infinityWord

/-- The number nearest to `num / den`, with the given sign. -/
def ofRatio (negative : Bool) (num den : Nat) : Binary64 :=
  ofWord negative (wordOfRatio num den)

/-- The number nearest to an integer. -/
def ofInt (i : Int) : Binary64 := ofRatio (i < 0) i.natAbs 1

/-- The magnitude word nearest to `digits * 10 ^ exponent`. -/
def wordOfDecimal (digits : Nat) (exponent : Int) : Nat :=
  if 0 ≤ exponent then wordOfRatio (digits * Nat.pow 10 exponent.toNat) 1
  else wordOfRatio digits (Nat.pow 10 (-exponent).toNat)

/-- The number nearest to `digits * 10 ^ exponent`, with the given sign. -/
def ofDecimal (negative : Bool) (digits : Nat) (exponent : Int) : Binary64 :=
  ofWord negative (wordOfDecimal digits exponent)

/-- Positive zero. -/
def zero : Binary64 := ⟨0⟩

example : ofInt 1 = ⟨0x3ff0000000000000⟩ := by decide +kernel

example : ofDecimal true 15 (-1) = ⟨0xbff8000000000000⟩ := by decide +kernel

end Binary64

end Discography
