import Discography.Pattern.Bracket
import Discography.Text.Alphanumeric

/-!
# Patterns

Which texts are patterns. A pattern is a sequence of parts that may be repeated, alternatives of
such sequences, and groups of alternatives, which may have a name and may set flags. Nothing is
matched here: what counts is whether a machine can be built from the text. Counted repetitions
have no place in these patterns, since they need a closing brace, which ends the text of a pattern.

Groups, brackets, repetitions, sequences and alternatives may be nested up to a limit. A machine
cannot look for the edge of a word of Unicode characters.

## Main definitions

* `Pattern.check`: why no machine can be built from a text
-/

namespace Discography

/-- Why no machine can be built from a text. -/
inductive PatternError where
  | malformed
  /-- The pattern asks for the edge of a word. -/
  | wordEdge
  deriving DecidableEq

/-- The wording of the error. -/
def PatternError.message : PatternError → String
  | malformed => "error building NFA"
  | wordEdge => "unsupported regex feature for DFAs: cannot build DFAs for regexes with Unicode " ++
      "word boundaries; switch to ASCII word boundaries, or heuristically enable Unicode word " ++
      "boundaries or use a different regex engine"

namespace Pattern

/-- The parts of a sequence so far. -/
structure Sequence where
  count : Nat := 0
  /-- The depth of the deepest part. -/
  depth : Nat := 0
  /-- The depth of the last part, if it can be repeated. -/
  last : Option Nat := none

/-- The sequence with one more part. -/
def Sequence.push (s : Sequence) (depth : Nat := 0) : Sequence :=
  ⟨s.count + 1, max s.depth depth, some depth⟩

/-- The sequence with a change of flags, which cannot be repeated. -/
def Sequence.pushFlags (s : Sequence) : Sequence := ⟨s.count + 1, s.depth, none⟩

/-- The sequence with its last part repeated. -/
def Sequence.repeatLast? (s : Sequence) : Option Sequence :=
  s.last.map fun depth => ⟨s.count, max s.depth (depth + 1), some (depth + 1)⟩

/-- The depth of a sequence. -/
def Sequence.nested (s : Sequence) : Nat := if s.count ≤ 1 then s.depth else s.depth + 1

/-- The alternatives of a group so far: the flags to return to after it, the sequence that is being
read, and the depth of the alternatives before it. -/
structure Scope where
  flags : Flags := {}
  sequence : Sequence := {}
  before : Option Nat := none

/-- The depth of the alternatives. -/
def Scope.nested (s : Scope) : Nat :=
  s.before.elim s.sequence.nested fun before => max before s.sequence.nested + 1

/-- The scope after a bar. -/
def Scope.alternative (s : Scope) : Scope :=
  { s with sequence := {}, before := some (max (s.before.getD 0) s.sequence.nested) }

/-- What is known at a place of a pattern. -/
structure Reading where
  flags : Flags := {}
  scope : Scope := {}
  /-- The enclosing groups, the innermost first. -/
  outer : List Scope := []
  /-- The names of the groups. -/
  names : List (List Char) := []
  /-- Whether the edge of a word of Unicode characters is asked for. -/
  wordEdge : Bool := false

namespace Reading

/-- The reading after another part. -/
def push (r : Reading) (depth : Nat := 0) : Reading :=
  { r with scope.sequence := r.scope.sequence.push depth }

/-- The reading inside a group with its own flags. -/
def enter (r : Reading) (flags : Flags) : Reading :=
  { r with flags, scope := { flags := r.flags }, outer := r.scope :: r.outer }

/-- The reading after the end of a group. -/
def leave? (r : Reading) : Option Reading :=
  match r.outer with
  | [] => none
  | scope :: outer =>
    some ({ r with flags := r.scope.flags, scope, outer }.push (r.scope.nested + 1))

/-- The reading after a character, a class or a look. -/
def pushAtom? (r : Reading) (atom : Atom) : Option Reading :=
  if atom.isBuildable r.flags false then
    some { r.push with wordEdge := r.wordEdge || (atom == .look true && r.flags.unicode) }
  else none

/-- The reading after a name is given to a group. -/
def name? (r : Reading) (name : List Char) : Option Reading :=
  match name with
  | [] => none
  | c :: rest =>
    if (c = '_' || Text.isAlphabetic c) &&
        rest.all (fun c => ['_', '.', '[', ']'].contains c || Text.isAlphanumeric c) &&
        !r.names.contains name then
      some { r with names := name :: r.names }
    else none

end Reading

/-- The flags with one of them set or unset. -/
def Flags.set? (flags : Flags) (on : Bool) (c : Char) : Option Flags :=
  match c with
  | 'i' => some { flags with ignoreCase := on }
  | 'u' => some { flags with unicode := on }
  | 'x' => some { flags with spaced := on }
  | c => if ['m', 's', 'U', 'R'].contains c then some flags else none

/-- Reads the flags of a group up to the mark that ends them: the flags then in force, the letters
and signs that were read, the mark, and the text after it. A minus sign unsets the flags after it;
no letter and no sign is written twice. -/
def readFlags? (flags : Flags) (seen : List Char) :
    List Char → Option (Flags × List Char × Char × List Char)
  | [] => none
  | c :: rest =>
    if c = ':' || c = ')' then
      if seen.head? = some '-' then none else some (flags, seen, c, rest)
    else if seen.contains c then none
    else if c = '-' then readFlags? flags (c :: seen) rest
    else do readFlags? (← flags.set? (!seen.contains '-') c) (c :: seen) rest

/-- The reading after the opening parenthesis of a group, and the text after what belongs to it. -/
def group? (r : Reading) (text : List Char) : Option (Reading × List Char) :=
  let named (text : List Char) : Option (Reading × List Char) :=
    match text.dropWhile (· != '>') with
    | [] => none
    | _ :: rest => do return ((← r.name? (text.takeWhile (· != '>'))).enter r.flags, rest)
  match r.flags.skip text with
  | '?' :: '<' :: '=' :: _ | '?' :: '<' :: '!' :: _ => none
  | '?' :: 'P' :: '<' :: rest | '?' :: '<' :: rest => named rest
  | '?' :: rest => do
    let (flags, seen, mark, rest) ← readFlags? r.flags [] rest
    if mark = ':' then some (r.enter flags, rest)
    else if seen.isEmpty then none
    else some ({ r with flags, scope.sequence := r.scope.sequence.pushFlags }, rest)
  | rest => some (r.enter r.flags, rest)

/-- Reads one part of a pattern that begins with a character. -/
def readPart? (r : Reading) (c : Char) (rest : List Char) : Option (Reading × List Char) :=
  match c with
  | '(' => group? r rest
  | ')' => do return (← r.leave?, rest)
  | '|' => some ({ r with scope := r.scope.alternative }, rest)
  | '[' => do
    let (depth, rest) ← Bracket.read? r.flags rest
    return (r.push depth, rest)
  | '?' | '*' | '+' => do
    let sequence ← r.scope.sequence.repeatLast?
    let rest := match rest with
      | '?' :: rest => rest
      | rest => rest
    return ({ r with scope.sequence := sequence }, rest)
  | '{' => none
  | '\\' => do
    let (atom, rest) ← Atom.escaped? r.flags rest
    return (← r.pushAtom? atom, rest)
  | '.' => if r.flags.unicode then some (r.push, rest) else none
  | '^' | '$' => do return (← r.pushAtom? (.look false), rest)
  | c => do return (← r.pushAtom? (.literal c false), rest)

/-- Reads the parts of a pattern; every round takes a character off the text. -/
def readAll? : Nat → Reading → List Char → Option Reading
  | 0, _, _ => none
  | rounds + 1, r, text =>
    match r.flags.skip text with
    | [] => if r.outer.isEmpty then some r else none
    | c :: rest => do
      let (r, rest) ← readPart? r c rest
      readAll? rounds r rest

/-- How deep the parts of a pattern may be nested. -/
def depthLimit : Nat := 250

/-- Refuses a text from which no machine can be built. -/
def check (text : List Char) : Except PatternError Unit :=
  match readAll? (text.length + 1) {} text with
  | none => .error .malformed
  | some r =>
    if depthLimit < r.scope.nested then .error .malformed
    else if r.wordEdge then .error .wordEdge
    else .ok ()

example : check ['(', 'a', '|', ')', '*'] = .ok () := by rfl

example : check ['*'] = .error .malformed := by rfl

example : check ['\\', 'b'] = .error .wordEdge := by rfl

end Pattern

end Discography
