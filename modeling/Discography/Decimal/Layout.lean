import Discography.Decimal.Shortest

/-!
# Layouts of decimal numbers

How the shortest digits of a binary64 number are laid out as text. The formats of this library
differ in five decisions only, which are the fields of `Layout`.

## Main definitions

* `Layout.literal`: numbers in SQL and in messages
* `Layout.json`: numbers in JSON documents
* `Layout.plain`: numbers in log fields
* `Layout.write`: the text of a number
-/

namespace Discography.Decimal

/-- The decisions of a number format. A number below `10 ^ p` and not below `10 ^ (p - 1)` is
written positionally when `p` lies between the bounds given, and with an exponent otherwise. -/
structure Layout where
  /-- The least position of the point in positional notation; absent when there is no bound. -/
  least : Option Int
  /-- The greatest position of the point in positional notation. -/
  greatest : Option Int
  /-- Whether a whole number in positional notation ends in `.0`. -/
  wholeMark : Bool
  /-- Whether an exponent that is not negative has a plus sign. -/
  plusSign : Bool
  /-- Which of two equally near expansions is written. -/
  tie : Tie

namespace Layout

/-- SQL literals and messages: positional from `1e-4` up to below `1e16`. -/
def literal : Layout := ⟨some (-3), some 16, true, false, .up⟩

/-- JSON numbers: positional from `1e-5` up to below `1e16`, and signed exponents. -/
def json : Layout := ⟨some (-4), some 16, true, true, .even⟩

/-- Log fields: always positional, and whole numbers without a point. -/
def plain : Layout := ⟨none, none, false, false, .up⟩

/-- Positional notation with at least one digit before the point. -/
def positional (l : Layout) (e : Expansion) : List Char :=
  let mark := if l.wholeMark then ['.', '0'] else []
  if e.point ≤ 0 then ['0', '.'] ++ List.replicate (-e.point).toNat '0' ++ e.digits
  else
    let whole := e.point.toNat
    if e.digits.length ≤ whole then
      e.digits ++ List.replicate (whole - e.digits.length) '0' ++ mark
    else e.digits.take whole ++ ['.'] ++ e.digits.drop whole

/-- Notation with one digit before the point and an exponent. -/
def scientific (l : Layout) (e : Expansion) : List Char :=
  let exponent := e.point - 1
  let sign := if l.plusSign && decide (0 ≤ exponent) then ['+'] else []
  let tail := e.digits.drop 1
  e.digits.take 1 ++ (if tail.isEmpty then [] else '.' :: tail) ++ ['e'] ++ sign ++
    writeInt exponent

/-- Whether the format writes an expansion positionally. -/
def isPositional (l : Layout) (e : Expansion) : Bool :=
  l.least.all (· ≤ e.point) && l.greatest.all (e.point ≤ ·)

/-- The text of a finite magnitude. -/
def magnitude (l : Layout) (x : Binary64) : List Char :=
  let e := shortest l.tie x
  if l.isPositional e then l.positional e else l.scientific e

/-- The text of a number; words without a finite value have names. -/
def write (l : Layout) (x : Binary64) : List Char :=
  if x.isNaN then ['N', 'a', 'N']
  else
    let digits := if x.isFinite then l.magnitude x else ['i', 'n', 'f']
    if x.negative then '-' :: digits else digits

/-- The halfway case `2 ^ -25`, which lies between two numerals with seventeen digits. -/
example : String.ofList (literal.write ⟨0x3e60000000000000⟩) = "2.9802322387695313e-8" := by
  decide +kernel

example : String.ofList (json.write ⟨0x3e60000000000000⟩) = "2.9802322387695312e-8" := by
  decide +kernel

end Layout

end Discography.Decimal
