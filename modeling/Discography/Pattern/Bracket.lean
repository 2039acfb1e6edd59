import Discography.Pattern.Atom

/-!
# Bracketed classes

A class in brackets lists characters, ranges, named classes and further brackets. Two doubled marks
or signs between such lists intersect or subtract them. Brackets count as nested by their depth: one
level for a pair of brackets, one for a list of several entries, and one for an operation.

## Main definitions

* `Pattern.Bracket.read?`: the depth of a class in brackets, and the text after it
-/

namespace Discography.Pattern.Bracket

/-- The entries of a list so far: their number, and the depth of the deepest. -/
structure Entries where
  count : Nat := 0
  depth : Nat := 0

/-- The list with one more entry. -/
def Entries.push (e : Entries) (depth : Nat := 0) : Entries := ⟨e.count + 1, max e.depth depth⟩

/-- The depth of a list. -/
def Entries.nested (e : Entries) : Nat := if e.count ≤ 1 then e.depth else e.depth + 1

/-- A pair of brackets that is still open: the list that is being read, and the depth of what stands
to the left of the operation before it. -/
structure Scope where
  entries : Entries := {}
  left : Option Nat := none

/-- The scope with one more entry. -/
def Scope.push (s : Scope) (depth : Nat := 0) : Scope :=
  { s with entries := s.entries.push depth }

/-- The depth of what is between the brackets. -/
def Scope.nested (s : Scope) : Nat :=
  s.left.elim s.entries.nested fun left => max left s.entries.nested + 1

/-- The names of classes. -/
def names : List String :=
  ["alnum", "alpha", "ascii", "blank", "cntrl", "digit", "graph", "lower", "print", "punct",
    "space", "upper", "word", "xdigit"]

/-- A named class after its opening bracket: whether it is negated, and the text after it. -/
def named? : List Char → Option (Bool × List Char)
  | ':' :: text =>
    let (negated, text) := match text with
      | '^' :: rest => (true, rest)
      | text => (false, text)
    match text.dropWhile (· != ':') with
    | ':' :: ']' :: rest =>
      if names.contains (String.ofList (text.takeWhile (· != ':'))) then some (negated, rest)
      else none
    | _ => none
  | _ => none

/-- Whether plain characters may be listed. -/
def allowsPlain (flags : Flags) : Bool := (Atom.literal 'a' false).isBuildable flags true

/-- Reads the minus signs at the beginning of a list, each of which stands for itself. -/
def leadingSigns (flags : Flags) (entries : Entries) : List Char → Entries × List Char
  | '-' :: rest => leadingSigns flags entries.push (flags.skip rest)
  | text => (entries, text)
termination_by text => text.length
decreasing_by
  have := flags.length_skip_le rest
  simp only [List.length_cons]
  omega

/-- Reads a minus sign or a closing bracket at the beginning of a list, which stand for
themselves. -/
def leading (flags : Flags) (text : List Char) : Entries × List Char :=
  match leadingSigns flags {} text with
  | (⟨0, _⟩, ']' :: rest) => ({ count := 1 }, rest)
  | found => found

/-- Opens a pair of brackets: the list so far and the text after it. -/
def open? (flags : Flags) (text : List Char) : Option (Scope × List Char) :=
  let (negated, text) := match flags.skip text with
    | '^' :: rest => (true, flags.skip rest)
    | text => (false, text)
  let (entries, rest) := leading flags text
  if (flags.unicode || !negated) && (entries.count == 0 || allowsPlain flags) then
    some ({ entries }, rest)
  else none

/-- One entry that may begin or end a range, and the text after it. -/
def entry? (flags : Flags) (text : List Char) : Option (Atom × List Char) := do
  let (atom, rest) ← match text with
    | [] => none
    | '\\' :: rest => Atom.escaped? flags rest
    | c :: rest => some (.literal c false, rest)
  if atom.isBuildable flags true then some (atom, rest) else none

/-- Whether a minus sign before a text stands for itself, and does not make a range of what is on
both sides of it: another minus sign or a closing bracket follows. Where the flags allow blanks and
comments, blanks and one number sign are passed over first, but not the text of the comment, so
that its first character decides. -/
def endsRange (flags : Flags) (text : List Char) : Bool :=
  let next := if flags.spaced then
      match text.dropWhile Text.isBlank with
      | '#' :: comment => comment.dropWhile Text.isBlank
      | text => text
    else text
  next.head?.any [']', '-'].contains

/-- Whether a range may reach from one part to another. -/
def isRange : Atom → Atom → Bool
  | .literal low _, .literal high _ => low ≤ high
  | _, _ => false

/-- The text after a character or a range of characters. -/
def range? (flags : Flags) (text : List Char) : Option (List Char) := do
  let (low, rest) ← entry? flags text
  match flags.skip rest with
  | '-' :: after =>
    if endsRange flags after then some ('-' :: after)
    else
      let (high, rest) ← entry? flags (flags.skip after)
      if isRange low high then some rest else none
  | rest => some rest

/-- Reads on inside brackets, of which `outer` are the enclosing ones; every round takes a character
off the text. -/
def readFrom? (flags : Flags) :
    Nat → Scope → List Scope → List Char → Option (Nat × List Char)
  | 0, _, _, _ => none
  | rounds + 1, scope, outer, text =>
    match flags.skip text with
    | '[' :: rest =>
      match named? rest with
      | some (negated, rest) =>
        if allowsPlain flags && (flags.unicode || !negated) then
          readFrom? flags rounds scope.push outer rest
        else none
      | none => do
        let (inner, rest) ← open? flags rest
        readFrom? flags rounds inner (scope :: outer) rest
    | ']' :: rest =>
      match outer with
      | [] => some (scope.nested + 1, rest)
      | enclosing :: outer =>
        readFrom? flags rounds (enclosing.push (scope.nested + 1)) outer rest
    | '&' :: '&' :: rest | '-' :: '-' :: rest | '~' :: '~' :: rest =>
      readFrom? flags rounds { left := some scope.nested } outer rest
    | text => do readFrom? flags rounds scope.push outer (← range? flags text)

/-- The depth of a class in brackets whose opening bracket has been read, and the text after it. -/
def read? (flags : Flags) (text : List Char) : Option (Nat × List Char) := do
  let (scope, rest) ← open? flags text
  readFrom? flags (text.length + 1) scope [] rest

example : endsRange { spaced := true } [' ', '#', ']', '\n', 'z'] = true := by rfl

example : endsRange { spaced := true } ['#', 'x', '\n', ']'] = false := by rfl

end Discography.Pattern.Bracket
