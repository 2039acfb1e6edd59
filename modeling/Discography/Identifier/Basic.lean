import Discography.Text.Quoted

/-!
# Time-ordered identifiers

Sixteen bytes that lead with a millisecond timestamp, so that the byte order of identifiers is the
order of their creation. The text form is 32 hexadecimal digits in groups of 8, 4, 4, 4 and 12.

| bytes | content |
|---|---|
| 0 to 5 | the timestamp in milliseconds, the most significant byte first |
| 6 | the version tag `0100` in the upper half |
| 8 | the variant tag `10` in the upper two bits |
| 9 to 15 | a counter within one millisecond |

## Main definitions

* `Identifier`: the type, ordered by bytes
* `Identifier.text`, `Identifier.parse`: the text form
* `Identifier.ofBytes`: the stored form
* `Identifier.timestamp`: the leading 48 bits
-/

namespace Discography

/-- A 16-byte identifier. -/
structure Identifier where
  bytes : List UInt8
  length_bytes : bytes.length = 16
  deriving DecidableEq

namespace Identifier

/-- Why something is no identifier. -/
inductive ParseError where
  /-- The text has none of the accepted forms. -/
  | badText (text : String)
  /-- The stored form has `count` bytes instead of 16. -/
  | badLength (count : Nat)
  deriving DecidableEq

/-- The wording of the error. -/
def ParseError.message : ParseError → String
  | .badText text => Text.quote text ++ ": failed to parse a UUID"
  | .badLength count => "expected 16 bytes, got " ++ toString count

/-- The identifier stored as `bytes`. -/
def ofBytes (bytes : List UInt8) : Except ParseError Identifier :=
  if h : bytes.length = 16 then .ok ⟨bytes, h⟩ else .error (.badLength bytes.length)

/-- The sizes of the groups of the text form. -/
def groups : List Nat := [8, 4, 4, 4, 12]

/-- The digits in groups of the given sizes with hyphens between them. -/
def hyphenate : List Nat → List Char → List Char
  | size :: next :: sizes, digits =>
    digits.take size ++ '-' :: hyphenate (next :: sizes) (digits.drop size)
  | _, digits => digits

/-- The digits of a text in groups of the given sizes with hyphens between them. -/
def unhyphenate? : List Nat → List Char → Option (List Char)
  | size :: next :: sizes, text =>
    match text.drop size with
    | '-' :: rest =>
      if (text.take size).length = size then
        (unhyphenate? (next :: sizes) rest).map (text.take size ++ ·)
      else none
    | _ => none
  | [size], text => if text.length = size then some text else none
  | [], _ => none

/-- The text form: lower-case digits in groups. -/
def chars (id : Identifier) : List Char := hyphenate groups (Hex.lower id.bytes)

/-- The text form as a string. -/
def text (id : Identifier) : String := String.ofList id.chars

/-- What precedes the grouped digits in the form of a resource name. -/
def resourcePrefix : List Char := ['u', 'r', 'n', ':', 'u', 'u', 'i', 'd', ':']

/-- The 32 digits of a text in one of the accepted forms: plain, grouped, grouped in braces, or
grouped as a resource name. The length tells the form. -/
def digits? (text : List Char) : Option (List Char) :=
  match text.length with
  | 32 => some text
  | 36 => unhyphenate? groups text
  | 38 =>
    if text.head? = some '\x7b' && text.getLast? = some '\x7d' then
      unhyphenate? groups (text.drop 1).dropLast
    else none
  | 45 =>
    if (text.take 9).map Char.toLower = resourcePrefix then unhyphenate? groups (text.drop 9)
    else none
  | _ => none

/-- The identifier that a text in one of the accepted forms stands for. -/
def parse (text : String) : Except ParseError Identifier :=
  match digits? text.toList with
  | none => .error (.badText text)
  | some digits =>
    match Hex.decode digits with
    | .ok bytes =>
      if h : bytes.length = 16 then .ok ⟨bytes, h⟩ else .error (.badText text)
    | .error _ => .error (.badText text)

/-- The number that bytes stand for, the most significant first. -/
def bigEndian (bytes : List UInt8) : Nat := bytes.foldl (fun n b => 256 * n + b.toNat) 0

/-- The lowest bytes of a number, the most significant first. -/
def bytesOf (width n : Nat) : List UInt8 :=
  (List.range width).map fun i => UInt8.ofNat (n / Nat.pow 256 (width - 1 - i))

/-- The timestamp of creation in milliseconds. -/
def timestamp (id : Identifier) : Nat := bigEndian (id.bytes.take 6)

/-- The form that diagnostic output shows. -/
def describe (id : Identifier) : String := "Identifier(" ++ id.text ++ ")"

/-- Byte order, which is the order of creation. -/
def le (a b : Identifier) : Bool := decide (a.bytes ≤ b.bytes)

end Identifier

end Discography
