import Discography.Text.Blank
import Discography.Text.Hex

/-!
# Parts of patterns

A pattern is a regular expression. Its smallest parts are characters, which may be escaped, classes
of characters, and looks at the place that was reached. Which of them may be used depends on the
flags in force: without tables of letters, a class of Unicode characters cannot be built and the
case of a Unicode character cannot be ignored; and what is read by bytes must keep the text whole.

## Main definitions

* `Pattern.Flags`: the flags in force
* `Pattern.Atom`: the smallest parts
* `Pattern.Atom.escaped?`: the part after a backslash
* `Pattern.Atom.isBuildable`: whether a part may be used
-/

namespace Discography.Pattern

/-- The flags in force at a place of a pattern. -/
structure Flags where
  /-- Upper and lower case count as the same. -/
  ignoreCase : Bool := false
  /-- Characters are matched, and no bytes. -/
  unicode : Bool := true
  /-- Blanks and comments between the parts are ignored. -/
  spaced : Bool := false
  deriving DecidableEq

/-- Skips blanks and comments, which reach from a number sign to the end of the line. -/
def skipSpaced (inComment : Bool) : List Char → List Char
  | [] => []
  | c :: rest =>
    if inComment then skipSpaced (c != '\n') rest
    else if c = '#' then skipSpaced true rest
    else if Text.isBlank c then skipSpaced false rest
    else c :: rest

/-- Skips what the flags allow between two parts. -/
def Flags.skip (flags : Flags) (text : List Char) : List Char :=
  if flags.spaced then skipSpaced false text else text

theorem length_skipSpaced_le (inComment : Bool) (text : List Char) :
    (skipSpaced inComment text).length ≤ text.length := by
  induction text generalizing inComment with
  | nil => simp [skipSpaced]
  | cons c rest ih =>
    simp only [skipSpaced]
    split
    · exact Nat.le_succ_of_le (ih _)
    · split
      · exact Nat.le_succ_of_le (ih _)
      · split
        · exact Nat.le_succ_of_le (ih _)
        · exact Nat.le_refl _

theorem Flags.length_skip_le (flags : Flags) (text : List Char) :
    (flags.skip text).length ≤ text.length := by
  unfold Flags.skip
  split
  · exact length_skipSpaced_le false text
  · exact Nat.le_refl _

/-- The smallest parts of patterns. -/
inductive Atom where
  /-- A character; `byByte` if it was written as a byte. -/
  | literal (c : Char) (byByte : Bool)
  /-- The digits, the blanks or the characters of words, or all but those. -/
  | kind (negated : Bool)
  /-- A look at the place that was reached; `atWord` if it asks for the edge of a word. -/
  | look (atWord : Bool)
  deriving DecidableEq

namespace Atom

/-- The value of a hexadecimal digit. -/
def digitValue? (c : Char) : Option Nat :=
  if c.toNat < 128 then Hex.digitValue? (UInt8.ofNat c.toNat) else none

/-- Continues the number `value` by so many hexadecimal digits. -/
def readDigits? (flags : Flags) : Nat → Nat → List Char → Option (Nat × List Char)
  | 0, value, text => some (value, text)
  | n + 1, value, text =>
    match flags.skip text with
    | [] => none
    | c :: rest => do readDigits? flags n (16 * value + (← digitValue? c)) rest

/-- The character that a number of hexadecimal digits stands for. -/
def numbered? (flags : Flags) (digits : Nat) (text : List Char) : Option (Atom × List Char) := do
  let (value, rest) ← readDigits? flags digits 0 text
  if value.isValidChar then some (literal (Char.ofNat value) (digits == 2), rest) else none

/-- The characters that a letter after a backslash stands for. -/
def controls : List (Char × Char) :=
  [('a', '\x07'), ('f', '\x0C'), ('t', '\t'), ('n', '\n'), ('r', '\r'), ('v', '\x0B')]

/-- The part that a letter after a backslash stands for. -/
def lettered? (c : Char) : Option Atom :=
  if ['d', 's', 'w'].contains c then some (kind false)
  else if ['D', 'S', 'W'].contains c then some (kind true)
  else if ['A', 'z'].contains c then some (look false)
  else if ['b', 'B', '<', '>'].contains c then some (look true)
  else (controls.lookup c).map (literal · false)

/-- The part after a backslash, and the text after it. A mark of ASCII stands for itself; there is
no escape for digits and for properties of characters. -/
def escaped? (flags : Flags) : List Char → Option (Atom × List Char)
  | [] => none
  | 'x' :: rest => numbered? flags 2 rest
  | 'u' :: rest => numbered? flags 4 rest
  | 'U' :: rest => numbered? flags 8 rest
  | c :: rest =>
    match lettered? c with
    | some atom => some (atom, rest)
    | none => if c.toNat < 128 && !c.isAlphanum then some (literal c false, rest) else none

/-- Whether a part may be used under the flags, outside of brackets or inside them. -/
def isBuildable (flags : Flags) (inBrackets : Bool) : Atom → Bool
  | literal c byByte =>
    if flags.unicode then !flags.ignoreCase else c.toNat < 128 || !(inBrackets || byByte)
  | kind negated => !flags.unicode && !negated
  | look _ => !inBrackets

example : escaped? {} ['x', '4', '1', 'z'] = some (literal 'A' true, ['z']) := by decide

example : escaped? {} ['u', 'd', '8', '0', '0'] = none := by decide

example : escaped? {} ['.', 'b'] = some (literal '.' false, ['b']) := by decide

end Atom

end Discography.Pattern
