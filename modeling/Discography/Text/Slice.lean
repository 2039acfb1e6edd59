import Discography.Text.Quoted

/-!
# Parts of texts

A part of a text is named by the positions of its first byte and of the byte after its last one. A
position inside a character names no part.

## Main definitions

* `Text.byteLength`: how many bytes a text has
* `Text.slice`, `Text.sliceFrom`: the part between two positions, and from a position on
* `Text.SplitError`: a position lies inside a character
-/

namespace Discography.Text

/-- An end of a part. -/
inductive Edge where
  | first
  | last
  deriving DecidableEq

/-- The name of an end. -/
def Edge.name : Edge → String
  | first => "start"
  | last => "end"

/-- A position lies inside a character. -/
structure SplitError where
  edge : Edge
  position : Nat
  char : Char
  /-- The position at which the character begins. -/
  begins : Nat
  deriving DecidableEq

/-- The wording of the error. -/
def SplitError.message (e : SplitError) : String :=
  e.edge.name ++ " byte index " ++ toString e.position ++
    " is not a char boundary; it is inside " ++ quoteChar e.char ++ " (bytes " ++
    toString e.begins ++ ".." ++ toString (e.begins + e.char.utf8Size) ++ " of string)"

/-- How many bytes a text has. -/
def byteLength (text : List Char) : Nat := text.foldl (fun n c => n + c.utf8Size) 0

/-- The characters of a text that begin before a position. -/
def takeBytes : Nat → List Char → List Char
  | _, [] => []
  | n, c :: rest => if n = 0 then [] else c :: takeBytes (n - c.utf8Size) rest

/-- The characters of a text that begin at a position or after it. -/
def dropBytes : Nat → List Char → List Char
  | _, [] => []
  | n, c :: rest => if n = 0 then c :: rest else dropBytes (n - c.utf8Size) rest

/-- Refuses a position inside a character of a text whose first byte is at `begins`. -/
def checkEdge (edge : Edge) (position begins : Nat) : List Char → Except SplitError Unit
  | [] => .ok ()
  | c :: rest =>
    if position ≤ begins then .ok ()
    else if position < begins + c.utf8Size then .error ⟨edge, position, c, begins⟩
    else checkEdge edge position (begins + c.utf8Size) rest

/-- The part of a text between two positions. -/
def slice (text : List Char) (first last : Nat) : Except SplitError (List Char) := do
  checkEdge .first first 0 text
  checkEdge .last last 0 text
  return dropBytes first (takeBytes last text)

/-- The part of a text from a position on. -/
def sliceFrom (text : List Char) (first : Nat) : Except SplitError (List Char) := do
  checkEdge .first first 0 text
  return dropBytes first text

example : slice ['a', 'é', 'b'] 1 3 = .ok ['é'] := by rfl

example : slice ['a', 'é', 'b'] 1 2 = .error ⟨.last, 2, 'é', 1⟩ := by rfl

example : sliceFrom ['é', 'b'] 1 = .error ⟨.first, 1, 'é', 0⟩ := by rfl

end Discography.Text
