import Discography.Decimal.Layout
import Discography.Decimal.Integer
import Discography.Text.Hex

/-!
# SQL as a sequence of lexemes

Statements are built as lists of lexemes and written as text at the very end. A lexeme carries what
it stands for, a name or a literal, and its written form is computed from that; so no name and no
literal can change the lexical structure of the statement that it is put into.

Names stand between backticks, with the backticks inside doubled. Texts stand between apostrophes,
in one of two styles.

## Main definitions

* `Lexeme`: words, symbols, names, literals and the space between them
* `Sql`: a list of lexemes
* `Sql.text`: the text of a statement
-/

namespace Discography

/-- How a text literal keeps the apostrophes inside it from ending it. -/
inductive TextStyle where
  /-- An apostrophe is written twice. -/
  | doubled
  /-- Apostrophes, backslashes and four controls are written with a backslash. -/
  | backslash
  deriving DecidableEq

namespace TextStyle

/-- The written form of one character of a text literal. -/
def encodeChar : TextStyle → Char → List Char
  | doubled, c => if c = '\'' then ['\'', '\''] else [c]
  | backslash, c =>
    if c = '\\' then ['\\', '\\']
    else if c = '\'' then ['\\', '\'']
    else if c = '\x00' then ['\\', '0']
    else if c = '\n' then ['\\', 'n']
    else if c = '\r' then ['\\', 'r']
    else if c = '\x1a' then ['\\', 'Z']
    else [c]

/-- The written form of a text, without the apostrophes around it. -/
def encode (style : TextStyle) (text : List Char) : List Char := text.flatMap style.encodeChar

@[simp] theorem encode_nil (style : TextStyle) : style.encode [] = [] := rfl

@[simp] theorem encode_cons (style : TextStyle) (c : Char) (text : List Char) :
    style.encode (c :: text) = style.encodeChar c ++ style.encode text := rfl

end TextStyle

namespace Name

/-- The character around a quoted name. -/
def mark : Char := '\x60'

/-- The name with every mark written twice. -/
def double (name : List Char) : List Char := name.flatMap fun c => if c = mark then [c, c] else [c]

/-- The quoted name. -/
def encode (name : List Char) : List Char := mark :: double name ++ [mark]

/-- The text with every pair of marks, from the left, replaced by one. -/
def undouble : List Char → List Char
  | a :: b :: rest =>
    if a = mark ∧ b = mark then mark :: undouble rest else a :: undouble (b :: rest)
  | rest => rest

/-- The name that a quoted text stands for; none when the text is not between marks. -/
def decode? : List Char → Option (List Char)
  | [] => none
  | c :: rest =>
    if c = mark ∧ rest.getLast? = some mark then some (undouble rest.dropLast) else none

end Name

/-- A lexeme of SQL. -/
inductive Lexeme where
  /-- The space between lexemes. -/
  | space
  /-- A keyword. -/
  | word (w : String)
  /-- A mark of punctuation or an operator. -/
  | symbol (s : String)
  /-- A quoted name. -/
  | name (n : String)
  /-- An integer literal. -/
  | integer (i : Int)
  /-- A real literal. -/
  | real (x : Binary64)
  /-- A text literal. -/
  | text (style : TextStyle) (s : String)
  /-- A literal of bytes. -/
  | blob (bytes : List UInt8)
  deriving DecidableEq

/-- The written form of a lexeme. -/
def Lexeme.chars : Lexeme → List Char
  | space => [' ']
  | word w => w.toList
  | symbol s => s.toList
  | name n => Name.encode n.toList
  | integer i => Decimal.writeInt i
  | real x => Decimal.Layout.literal.write x
  | text style s => '\'' :: style.encode s.toList ++ ['\'']
  | blob bytes => 'X' :: '\'' :: Hex.upper bytes ++ ['\'']

/-- A piece of SQL. -/
abbrev Sql := List Lexeme

namespace Sql

/-- The characters of a piece of SQL. -/
def chars (sql : Sql) : List Char := sql.flatMap Lexeme.chars

/-- The text of a piece of SQL. -/
def text (sql : Sql) : String := String.ofList sql.chars

@[simp] theorem chars_nil : chars [] = [] := rfl

@[simp] theorem chars_cons (l : Lexeme) (sql : Sql) : chars (l :: sql) = l.chars ++ chars sql := rfl

@[simp] theorem chars_append (a b : Sql) : chars (a ++ b) = chars a ++ chars b := by
  simp [chars]

/-- Keywords with spaces between them. -/
def words (ws : List String) : Sql := (ws.map Lexeme.word).intersperse .space

/-- A clause of a statement: a space, keywords, a space and the operand. -/
def clause (ws : List String) (operand : Sql) : Sql := .space :: words ws ++ .space :: operand

/-- Pieces with a comma and a space between them. -/
def commas (pieces : List Sql) : Sql := List.intercalate [.symbol ",", .space] pieces

/-- A piece in parentheses. -/
def parens (sql : Sql) : Sql := .symbol "(" :: sql ++ [.symbol ")"]

/-- Names with dots between them. -/
def path (names : List String) : Sql := (names.map Lexeme.name).intersperse (.symbol ".")

end Sql

end Discography
