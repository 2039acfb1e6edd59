import Discography.Sql.Literal.Reader

/-!
# A lexer of SQL

How a database splits a statement into tokens: quoted names with doubled marks, texts in the style
of the dialect, bytes in hexadecimal, numbers with an optional minus sign, words and punctuation.
The words `NULL`, `TRUE` and `FALSE` are literals. Blanks separate tokens and are dropped. A
character that begins no token, such as that of a comment, is refused.

## Main definitions

* `Token`: what a database reads
* `Lexer.readToken`: the token at the front of a text
* `Lexer.lex`: the tokens of a text
* `Sql.tokens`: the tokens that lexemes are to be read as
-/

namespace Discography

/-- A token of a statement. -/
inductive Token where
  | keyword (w : String)
  | punctuation (s : String)
  | name (n : String)
  | null
  | boolean (b : Bool)
  | integer (i : Int)
  | real (x : Binary64)
  | text (s : String)
  | blob (bytes : List UInt8)
  deriving DecidableEq

/-- The token of a word: a literal, or else a keyword. -/
def Token.ofWord (w : List Char) : Token :=
  if w = ['N', 'U', 'L', 'L'] then null
  else if w = ['T', 'R', 'U', 'E'] then boolean true
  else if w = ['F', 'A', 'L', 'S', 'E'] then boolean false
  else keyword (String.ofList w)

namespace Lexer

/-- A token and the text behind it. -/
abbrev Reading := Option (Token × List Char)

/-- The characters of a word. -/
def isWordChar (c : Char) : Bool := c.isAlphanum || c = '_'

/-- The characters that are tokens of punctuation by themselves. -/
def marks : List Char := ['(', ')', ',', '.', '*', '=']

/-- Reads the rest of a quoted name after its opening mark; a mark inside it is doubled. -/
def readName : List Char → Option (List Char × List Char)
  | '\x60' :: '\x60' :: rest => (readName rest).map fun (n, rest) => ('\x60' :: n, rest)
  | '\x60' :: rest => some ([], rest)
  | c :: rest => (readName rest).map fun (n, rest) => (c :: n, rest)
  | [] => none

/-- Reads the rest of a literal of bytes after its opening apostrophe. -/
def readBlob (text : List Char) : Reading :=
  match text.dropWhile (· != '\''), Hex.decode (text.takeWhile (· != '\'')) with
  | _ :: rest, .ok bytes => some (.blob bytes, rest)
  | _, _ => none

/-- The exponent at the front of a text, and the text behind it. -/
def splitExponent : List Char → List Char × List Char
  | [] => ([], [])
  | c :: rest =>
    if c = 'e' || c = 'E' then
      match rest with
      | [] => ([c], [])
      | d :: more =>
        if d = '-' || d = '+' then
          (c :: d :: more.takeWhile Decimal.isDigit, more.dropWhile Decimal.isDigit)
        else (c :: rest.takeWhile Decimal.isDigit, rest.dropWhile Decimal.isDigit)
    else ([], c :: rest)

/-- The point, places and exponent at the front of a text, and the text behind them. -/
def splitFraction (text : List Char) : List Char × List Char :=
  match text with
  | '.' :: rest =>
    let (exponent, rest') := splitExponent (rest.dropWhile Decimal.isDigit)
    ('.' :: rest.takeWhile Decimal.isDigit ++ exponent, rest')
  | text => splitExponent text

/-- Reads a number after its sign. -/
def readNumber (negative : Bool) (text : List Char) : Reading :=
  let whole := text.takeWhile Decimal.isDigit
  let (fraction, rest) := splitFraction (text.dropWhile Decimal.isDigit)
  if fraction.isEmpty then
    (Decimal.readNatural? whole).map fun n => (.integer (if negative then -n else n), rest)
  else
    let numeral := whole ++ fraction
    (Decimal.readReal (if negative then '-' :: numeral else numeral)).map fun x => (.real x, rest)

/-- Reads the token that begins with the character `c`. -/
def readToken (style : TextStyle) (c : Char) (rest : List Char) : Reading :=
  if c = Name.mark then (readName rest).map fun (n, rest) => (.name (String.ofList n), rest)
  else if c = '\'' then
    (Literal.readText style rest).toOption.map fun (s, rest) => (.text (String.ofList s), rest)
  else if (c = 'X' || c = 'x') && rest.head? = some '\'' then readBlob rest.tail
  else if c = '-' then readNumber true rest
  else if Decimal.isDigit c then readNumber false (c :: rest)
  else if isWordChar c then
    some (.ofWord ((c :: rest).takeWhile isWordChar), (c :: rest).dropWhile isWordChar)
  else if c = '<' && rest.head? = some '>' then some (.punctuation "<>", rest.tail)
  else if c ∈ marks then some (.punctuation (String.ofList [c]), rest)
  else none

/-- Reads at most `count` tokens and blanks, which have to be all of the text. -/
def lexFrom (style : TextStyle) : Nat → List Char → Option (List Token)
  | _, [] => some []
  | 0, _ :: _ => none
  | count + 1, c :: rest =>
    if c.isWhitespace then lexFrom style count rest
    else (readToken style c rest).bind fun (t, rest) => (lexFrom style count rest).map (t :: ·)

/-- The tokens of a text. Every token has a character, so the length bounds their number. -/
def lex (style : TextStyle) (text : String) : Option (List Token) :=
  lexFrom style text.toList.length text.toList

end Lexer

/-- The token that a lexeme is to be read as; space is none. -/
def Lexeme.token? : Lexeme → Option Token
  | space => none
  | word w => some (.ofWord w.toList)
  | symbol s => some (.punctuation s)
  | name n => some (.name n)
  | integer i => some (.integer i)
  | real x => some (.real x)
  | text _ s => some (.text s)
  | blob bytes => some (.blob bytes)

/-- The tokens that a piece of SQL is to be read as. -/
def Sql.tokens (sql : Sql) : List Token := sql.filterMap Lexeme.token?

@[simp] theorem Sql.tokens_nil : Sql.tokens [] = [] := rfl

@[simp] theorem Sql.tokens_cons (l : Lexeme) (sql : Sql) :
    Sql.tokens (l :: sql) = l.token?.toList ++ Sql.tokens sql := by
  cases h : l.token? <;> simp [Sql.tokens, h]

@[simp] theorem Sql.tokens_append (a b : Sql) :
    Sql.tokens (a ++ b) = Sql.tokens a ++ Sql.tokens b :=
  List.filterMap_append

example : Lexer.lex .doubled "SELECT `a``b`, -1.5 <> 'it''s' AND X'0aff'" =
    some [.keyword "SELECT", .name "a\x60b", .punctuation ",", .real ⟨0xbff8000000000000⟩,
      .punctuation "<>", .text "it's", .keyword "AND", .blob [10, 255]] := by
  decide +kernel

end Discography
