import Discography.Decimal.Binary64
import Discography.Decimal.Integer

/-!
# Shortest decimal digits

The fewest decimal digits that read back to a given binary64 magnitude, and among those the nearest
to it. For one digit, then two, and so on up to seventeen, the two neighbours of the magnitude on
that decimal grid are read back; the first that succeeds is the answer, the nearer of the two first.
Of two equally near ones a rule decides, which formats choose differently. The exact expansion of
the magnitude, which always reads back, closes the search.

## Main definitions

* `Decimal.Expansion`: a number by its digits and the position of its decimal point
* `Decimal.Tie`: which of two equally near expansions is taken
* `Decimal.shortest`: the shortest expansion of a finite binary64 magnitude
-/

namespace Discography.Decimal

/-- The number `0.d₁d₂… * 10 ^ point`, by its decimal digits and the position of the point. -/
structure Expansion where
  digits : List Char
  point : Int
  deriving DecidableEq

/-- The expansion of `significand * 10 ^ exponent`, without trailing zeros. -/
def Expansion.ofScaled (significand : Nat) (exponent : Int) : Expansion :=
  let digits := writeNat significand
  { digits := (digits.reverse.dropWhile (· == '0')).reverse
    point := digits.length + exponent }

/-- Zero is written with one digit, before the point. -/
def Expansion.zero : Expansion := ⟨['0'], 1⟩

/-- The position of the decimal point in a positive magnitude of `units * 2 ^ -1074`: the least
`p` with `units * 2 ^ -1074 < 10 ^ p`. Multiplied by `10 ^ 350` every magnitude exceeds one. -/
def pointOfUnits (units : Nat) : Int :=
  (writeNat (units * Nat.pow 10 350 / Nat.pow 2 1074)).length - 350

/-- Which of two neighbours at the same distance comes first. -/
inductive Tie where
  /-- The even one. -/
  | even
  /-- The greater one. -/
  | up
  deriving DecidableEq

/-- Whether the neighbour `below`, which is as near as the one above, comes first. -/
def Tie.isBelow : Tie → Nat → Bool
  | even, below => below % 2 = 0
  | up, _ => false

/-- The neighbours of `num / den` among the natural numbers, the nearer one first. -/
def neighbours (tie : Tie) (num den : Nat) : List Nat :=
  let below := num / den
  let twice := 2 * (num % den)
  if twice < den || twice = den && tie.isBelow below then [below, below + 1]
  else [below + 1, below]

/-- The neighbours of a magnitude among the multiples of `10 ^ exponent`, the nearer one first. -/
def neighboursAt (tie : Tie) (units : Nat) (exponent : Int) : List Nat :=
  if 0 ≤ exponent then neighbours tie units (Nat.pow 2 1074 * Nat.pow 10 exponent.toNat)
  else neighbours tie (units * Nat.pow 10 (-exponent).toNat) (Nat.pow 2 1074)

/-- The expansion with `count` digits that reads back to the word, if one does. -/
def withDigits? (tie : Tie) (word units : Nat) (point : Int) (count : Nat) : Option Expansion :=
  let exponent := point - count
  ((neighboursAt tie units exponent).find? (Binary64.wordOfDecimal · exponent == word)).map
    (Expansion.ofScaled · exponent)

/-- The shortest expansion that reads back to the magnitude of a finite number. -/
def shortest (tie : Tie) (x : Binary64) : Expansion :=
  if x.magnitudeWord = 0 then .zero
  else
    let point := pointOfUnits x.units
    (((List.range 17).map (· + 1)).findSome? (withDigits? tie x.magnitudeWord x.units point)).getD
      (.ofScaled (x.units * Nat.pow 5 1074) (-1074))

end Discography.Decimal
