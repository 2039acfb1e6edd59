/-!
# Texts within texts

## Main definitions

* `Text.occursIn`: whether a text has another one inside
-/

namespace Discography.Text

/-- Whether `pattern` stands somewhere in a text. -/
def occursIn (pattern : List Char) : List Char → Bool
  | [] => pattern.isEmpty
  | c :: rest => pattern.isPrefixOf (c :: rest) || occursIn pattern rest

end Discography.Text
