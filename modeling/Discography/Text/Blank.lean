/-!
# Blank characters

The Unicode property `White_Space`, and the two operations every reader of this library performs
with it: skipping a blank prefix and trimming both ends of a text.

## Main definitions

* `Text.isBlank`: membership in `White_Space`
* `Text.trim`: a text without its blank prefix and suffix
-/

namespace Discography.Text

/-- The ranges of code points with the property `White_Space`, ends included. -/
def blankRanges : List (Nat × Nat) :=
  [(0x9, 0xD), (0x20, 0x20), (0x85, 0x85), (0xA0, 0xA0), (0x1680, 0x1680), (0x2000, 0x200A),
    (0x2028, 0x2029), (0x202F, 0x202F), (0x205F, 0x205F), (0x3000, 0x3000)]

/-- Membership in the Unicode property `White_Space`. -/
def isBlank (c : Char) : Bool :=
  blankRanges.any fun (low, high) => low ≤ c.toNat && c.toNat ≤ high

/-- The text without its longest blank prefix. -/
def skipBlank (text : List Char) : List Char := text.dropWhile isBlank

/-- The text without its longest suffix of characters that satisfy `p`. -/
def dropEndWhile (p : Char → Bool) (text : List Char) : List Char :=
  (text.reverse.dropWhile p).reverse

/-- The text without its longest blank prefix and suffix. -/
def trim (text : List Char) : List Char := dropEndWhile isBlank (skipBlank text)

/-- A text is blank when trimming leaves nothing of it. -/
def isBlankText (text : String) : Bool := (trim text.toList).isEmpty

@[simp] theorem skipBlank_nil : skipBlank [] = [] := rfl

@[simp] theorem trim_nil : trim [] = [] := rfl

theorem skipBlank_cons_of_blank {c : Char} (text : List Char) (h : isBlank c = true) :
    skipBlank (c :: text) = skipBlank text := by
  simp [skipBlank, h]

theorem skipBlank_cons_of_not_blank {c : Char} (text : List Char) (h : isBlank c = false) :
    skipBlank (c :: text) = c :: text := by
  simp [skipBlank, h]

end Discography.Text
