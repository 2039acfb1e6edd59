import Discography.Decimal.Integer
import Discography.Decimal.Real
import Discography.Sql.Lexeme
import Discography.Text.Blank
import Discography.Text.Quoted
import Discography.Value

/-!
# Reading literals

The reader of literals accepts the keywords `NULL`, `TRUE` and `FALSE`, integer and real numerals,
texts in a given style, bytes in hexadecimal, and parenthesized lists of literals. Blank space may
surround every literal and every item of a list.

A reader takes the text from its position on and returns the value together with the rest of the
text. Every literal has at least one character, so the length of the text bounds the nesting.

## Main definitions

* `Literal.readValue`: reads one literal at the front of a text
* `Literal.read`: reads a text that consists of one literal
-/

namespace Discography.Literal

/-- Why a text is no literal. -/
inductive ReadError where
  | missingQuote
  | empty
  | unterminatedText
  | danglingBackslash
  | unterminatedBlob
  | badBlob (digits : String) (cause : Hex.DecodeError)
  | badSeparator (found : Option Char)
  | badInteger (token : String) (cause : Decimal.IntegerError)
  | badReal (token : String)
  | trailing (found : Char) (text : String)
  deriving DecidableEq

/-- The wording of the error. -/
def ReadError.message : ReadError → String
  | missingQuote => "expected ' after X"
  | empty => "empty literal"
  | unterminatedText => "unterminated string"
  | danglingBackslash => "dangling backslash"
  | unterminatedBlob => "unterminated blob"
  | badBlob digits cause => "invalid blob literal X'" ++ digits ++ "': " ++ cause.message
  | badSeparator (some c) =>
    "expected ',' or ')' in list, found Some(" ++ Text.quoteChar c ++ ")"
  | badSeparator none => "expected ',' or ')' in list, found None"
  | badInteger token cause => Text.quote token ++ ": " ++ cause.message
  | badReal token => Text.quote token ++ ": " ++ Decimal.badRealMessage token.toList
  | trailing c text => "unexpected " ++ Text.quoteChar c ++ " after literal in " ++ Text.quote text

/-- What a reader returns: a result and the text after it. -/
abbrev Reading (α : Type) := Except ReadError (α × List Char)

/-- The character that stands after a backslash as `c`. -/
def unescape (c : Char) : Char :=
  if c = '0' then '\x00'
  else if c = 'n' then '\n'
  else if c = 'r' then '\r'
  else if c = 'Z' then '\x1a'
  else c

/-- Puts a character in front of a text that was read. -/
def Reading.push (c : Char) (r : Reading (List Char)) : Reading (List Char) :=
  r.map fun (text, rest) => (c :: text, rest)

/-- Reads the rest of a text literal in which an apostrophe is written twice. -/
def readDoubled : List Char → Reading (List Char)
  | '\'' :: '\'' :: rest => (readDoubled rest).push '\''
  | '\'' :: rest => .ok ([], rest)
  | c :: rest => (readDoubled rest).push c
  | [] => .error .unterminatedText

/-- Reads the rest of a text literal in which backslashes escape. -/
def readBackslash : List Char → Reading (List Char)
  | '\\' :: c :: rest => (readBackslash rest).push (unescape c)
  | ['\\'] => .error .danglingBackslash
  | '\'' :: rest => .ok ([], rest)
  | c :: rest => (readBackslash rest).push c
  | [] => .error .unterminatedText

/-- Reads the rest of a text literal after its opening apostrophe. -/
def readText : TextStyle → List Char → Reading (List Char)
  | .doubled => readDoubled
  | .backslash => readBackslash

/-- Reads the rest of a literal of bytes after its opening apostrophe. -/
def readBlob (text : List Char) : Reading Value :=
  let digits := text.takeWhile (· != '\'')
  match text.dropWhile (· != '\'') with
  | [] => .error .unterminatedBlob
  | _ :: rest =>
    match Hex.decode digits with
    | .ok bytes => .ok (.blob bytes, rest)
    | .error cause => .error (.badBlob (String.ofList digits) cause)

/-- The characters of a keyword or numeral: blanks, commas and closing parentheses end it. -/
def isBare (c : Char) : Bool := !Text.isBlank c && c != ',' && c != ')'

/-- The value of a keyword or numeral. A numeral with a point or an exponent is real. -/
def bareValue (token : List Char) : Except ReadError Value :=
  if token = ['N', 'U', 'L', 'L'] then .ok .null
  else if token = ['T', 'R', 'U', 'E'] then .ok (.boolean true)
  else if token = ['F', 'A', 'L', 'S', 'E'] then .ok (.boolean false)
  else if token.any fun c => c == '.' || c == 'e' || c == 'E' then
    match Decimal.readReal token with
    | some x => .ok (.real x)
    | none => .error (.badReal (String.ofList token))
  else
    match Decimal.readInt64 token with
    | .ok i => .ok (.integer i)
    | .error cause => .error (.badInteger (String.ofList token) cause)

/-- Reads a keyword or numeral. -/
def readBare (text : List Char) : Reading Value :=
  (bareValue (text.takeWhile isBare)).map fun v => (v, text.dropWhile isBare)

mutual

/-- Reads one literal at the front of a text, in which at most `depth` literals begin. -/
def readValue (style : TextStyle) : Nat → List Char → Reading Value
  | 0, _ => .error .empty
  | depth + 1, text =>
    match Text.skipBlank text with
    | [] => .error .empty
    | '\'' :: rest => (readText style rest).map fun (s, rest) => (.text (String.ofList s), rest)
    | '(' :: rest =>
      match Text.skipBlank rest with
      | ')' :: rest => .ok (.list [], rest)
      | rest => (readItems style depth rest).map fun (items, rest) => (.list items, rest)
    | 'X' :: '\'' :: rest => readBlob rest
    | 'x' :: '\'' :: rest => readBlob rest
    | 'X' :: _ => .error .missingQuote
    | 'x' :: _ => .error .missingQuote
    | text => readBare text

/-- Reads the items of a list up to the closing parenthesis. -/
def readItems (style : TextStyle) : Nat → List Char → Reading (List Value)
  | 0, _ => .error .empty
  | depth + 1, text =>
    (readValue style depth text).bind fun (v, rest) =>
      match Text.skipBlank rest with
      | ',' :: rest => (readItems style depth rest).map fun (items, rest) => (v :: items, rest)
      | ')' :: rest => .ok ([v], rest)
      | rest => .error (.badSeparator rest.head?)

end

/-- The value of a text that consists of one literal and blanks around it. -/
def read (style : TextStyle) (text : String) : Except ReadError Value :=
  let body := Text.trim text.toList
  (readValue style (2 * body.length + 2) body).bind fun (v, rest) =>
    match Text.skipBlank rest with
    | [] => .ok v
    | c :: _ => .error (.trailing c text)

end Discography.Literal
