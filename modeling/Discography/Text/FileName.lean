/-!
# File names

Slashes separate the components of a path on some systems and backslashes on others, and a path may
have both.

## Main definitions

* `Text.lastPiece`: what follows the last of the separators in a text
* `Text.fileName`: the last component of a path
-/

namespace Discography.Text

/-- The last of the pieces into which a separator splits a text. -/
def lastPiece (separator : Char) (text : List Char) : List Char :=
  (text.splitOn separator).getLast?.getD text

/-- The last component of a path: the last piece between slashes is split again, at backslashes. -/
def fileName (path : String) : String :=
  String.ofList (lastPiece '\\' (lastPiece '/' path.toList))

end Discography.Text
