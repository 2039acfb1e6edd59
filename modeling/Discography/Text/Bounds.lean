/-!
# Classes of characters

A class of characters is stored as the ascending list of the code points at which it alternately
begins and ends.

## Main definitions

* `Text.within`: membership in a class
-/

namespace Discography.Text

/-- Whether a character belongs to a class: an odd number of its bounds lies at or below it. -/
def within (bounds : List Nat) (c : Char) : Bool :=
  (bounds.takeWhile (· ≤ c.toNat)).length % 2 = 1

example : within [48, 58] '0' = true ∧ within [48, 58] '9' = true := by decide

example : within [48, 58] '/' = false ∧ within [48, 58] ':' = false := by decide

end Discography.Text
