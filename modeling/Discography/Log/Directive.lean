import Discography.Decimal.Real
import Discography.Log.Entry
import Discography.Pattern.Syntax
import Discography.Text.Slice

/-!
# Directives of log filters

A directive is a threshold for the targets that begin with a text. It may be restricted to the
inside of a span, to events that have a field, or to spans with a field whose value fits a pattern.

Its text is `target[span{field=pattern}]=level`, each part of which may be missing: without a
level all levels pass, and a level alone applies to all targets.

## Main definitions

* `Log.Directive`: the type
* `Log.Directive.parse`: the directive that a text stands for
* `Log.FilterError`: why a text is no directive
-/

namespace Discography.Log

/-- What a directive asks of a field. -/
structure FieldTest where
  name : String
  /-- What the value has to fit. -/
  pattern : Option String := none
  deriving DecidableEq

/-- A threshold for the targets that begin with a text. -/
structure Directive where
  target : String
  /-- The name of the spans to which the directive is restricted. -/
  span : Option String := none
  /-- The field that is asked for. -/
  field : Option FieldTest := none
  threshold : Threshold
  deriving DecidableEq

/-- Why a text is no filter. -/
inductive FilterError where
  /-- A directive names a threshold that does not exist. -/
  | unknownLevel
  /-- A directive is not put together as it should be. -/
  | malformed
  /-- The value of a field is described by a text that is no pattern. -/
  | pattern (cause : PatternError)
  /-- A part of a directive would begin or end inside a character. -/
  | split (cause : Text.SplitError)
  deriving DecidableEq

/-- The wording of the error. -/
def FilterError.message : FilterError → String
  | unknownLevel => "error parsing level filter: expected one of \"off\", \"error\", \"warn\", " ++
      "\"info\", \"debug\", \"trace\", or a number 0-5"
  | malformed => "invalid filter directive"
  | pattern cause => "invalid field filter: " ++ cause.message
  | split cause => cause.message

namespace Threshold

/-- The thresholds, the strictest first. -/
def all : List Threshold := [none, some .error, some .warn, some .info, some .debug, some .trace]

/-- The name of a threshold. -/
def name (t : Threshold) : String := t.elim "off" Level.lowerName

/-- The threshold whose position a numeral states; the numeral may have a plus sign and leading
zeros. -/
def ofNumeral? (text : List Char) : Option Threshold :=
  let digits := match text with
    | '+' :: digits => digits
    | digits => digits
  match Decimal.readMagnitude all.length .tooLarge digits with
  | .ok n => all[n]?
  | .error _ => none

/-- The threshold of a name, in any case. -/
def ofName? (text : List Char) : Option Threshold :=
  let lower := String.ofList (text.map Char.toLower)
  all.find? (·.name == lower)

/-- The threshold that a text names or numbers. -/
def parse? (text : List Char) : Option Threshold := (ofNumeral? text).or (ofName? text)

end Threshold

namespace FieldTest

/-- The test that a text stands for, a name alone or `name=value`; a value that is no number is a
pattern, and what follows a second equals sign is ignored. -/
def parse (text : List Char) : Except FilterError FieldTest := do
  let name := String.ofList (text.takeWhile (· != '='))
  match text.dropWhile (· != '=') with
  | [] => if text.isEmpty then throw .malformed else return ⟨name, none⟩
  | _ :: rest =>
    let value := rest.takeWhile (· != '=')
    if (Decimal.readReal value).isNone then (Pattern.check value).mapError .pattern
    return ⟨name, some (String.ofList value)⟩

end FieldTest

namespace Directive

/-- A place in a text: how many bytes are before it, and the text from there on. -/
structure Place where
  position : Nat
  rest : List Char

/-- The first of some marks from a place on, the position of the mark, and the place after it. -/
def Place.find? (p : Place) (marks : List Char) : Option (Char × Nat × Place) :=
  let position := p.position + Text.byteLength (p.rest.takeWhile (!marks.contains ·))
  match p.rest.dropWhile (!marks.contains ·) with
  | [] => none
  | mark :: rest => some (mark, position, ⟨position + mark.utf8Size, rest⟩)

/-- Whether a target may begin with a character. -/
def beginsTarget (c : Char) : Bool :=
  c == '-' || c == ':' || c == '_' || Text.isAlphanumeric c

/-- The part of a text between two positions. -/
def part (text : List Char) (first last : Nat) : Except FilterError (List Char) :=
  (Text.slice text first last).mapError .split

/-- The threshold named by what follows a position of a text; all levels pass if nothing does. -/
def thresholdFrom (text : List Char) (position : Nat) : Except FilterError Threshold := do
  match ← (Text.sliceFrom text position).mapError .split with
  | [] => return some .trace
  | level => (Threshold.parse? level).elim (.error .unknownLevel) .ok

/-- The threshold after the closing bracket of a span. -/
def thresholdAfter (text : List Char) (p : Place) : Except FilterError Threshold :=
  match p.rest with
  | [] => .ok (some .trace)
  | '=' :: _ => thresholdFrom text (p.position + 1)
  | _ => .error .malformed

/-- The span and the field that are named between brackets, and the place after them. -/
def bracketed (text : List Char) (inside : Place) :
    Except FilterError (Option String × Option FieldTest × Place) := do
  match inside.find? [']', '\x7b'] with
  | none => throw .malformed
  | some (mark, stop, after) =>
    let span := String.ofList (← part text inside.position stop)
    if mark = ']' then return (some span, none, after)
    match after.find? ['\x7d'] with
    | none => throw .malformed
    | some (_, stop, closing) =>
      let field ← FieldTest.parse (← part text after.position stop)
      match closing.rest with
      | ']' :: rest =>
        return (if span.isEmpty then none else some span, some field, ⟨closing.position + 1, rest⟩)
      | _ => throw .malformed

/-- The directive that a text stands for. The marks between its parts are looked for in the text
without the blanks around it, and their positions are then taken as positions of the whole text, so
that blanks in front spoil every directive with more than one part. -/
def parse (text : List Char) : Except FilterError Directive := do
  let said := Text.trim text
  unless said.head?.any (fun c => c == '[' || beginsTarget c) do throw .malformed
  match Place.find? ⟨0, said⟩ ['=', '['] with
  | none =>
    match Threshold.parse? text with
    | some threshold => return { target := "", threshold }
    | none => return { target := String.ofList text, threshold := some .trace }
  | some (mark, stop, after) =>
    let target := String.ofList (← part text 0 stop)
    if mark = '=' then return { target, threshold := ← thresholdFrom text after.position }
    let (span, field, after) ← bracketed text after
    return { target, span, field, threshold := ← thresholdAfter text after }

example : parse ['a', '=', '+', '0', '5'] = .ok { target := "a", threshold := some .trace } := by
  rfl

example : parse [' ', 'a', '=', '5'] = .error .unknownLevel := by rfl

example : parse [' ', 'é', '=', '5'] = .error (.split ⟨.last, 2, 'é', 1⟩) := by rfl

example : parse ['=', '5'] = .error .malformed := by rfl

end Directive

end Discography.Log
