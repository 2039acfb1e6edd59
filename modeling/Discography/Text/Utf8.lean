/-!
# Text in bytes

Bytes are read as UTF-8, one piece after the other. A piece is a character, or a longest run of
bytes that begins like a character and does not end as one. A strict reader stops at the first
broken piece; a lenient one shows U+FFFD for each.

## Main definitions

* `Utf8.pieces`: the pieces of a list of bytes
* `Utf8.decode`: the text, or the first broken piece
* `Utf8.decodeLenient`: the text with a replacement for each broken piece
-/

namespace Discography.Utf8

/-- What a list of bytes is made of. -/
inductive Piece where
  | character (c : Char)
  /-- So many bytes begin a character and are not continued; `atEnd` if no byte follows them. -/
  | broken (length : Nat) (atEnd : Bool)
  deriving DecidableEq

/-- The range of a byte that continues a character, both ends included. -/
def continuation : UInt8 × UInt8 := (0x80, 0xBF)

/-- The ranges of the bytes that have to follow a first byte. The second byte is held to the
characters that need so many bytes and are no surrogates; a byte that begins no character has no
ranges. -/
def followers? (b : UInt8) : Option (List (UInt8 × UInt8)) :=
  if b ≤ 0x7F then some []
  else if b ≤ 0xC1 then none
  else if b ≤ 0xDF then some [continuation]
  else if b = 0xE0 then some [(0xA0, 0xBF), continuation]
  else if b = 0xED then some [(0x80, 0x9F), continuation]
  else if b ≤ 0xEF then some [continuation, continuation]
  else if b = 0xF0 then some [(0x90, 0xBF), continuation, continuation]
  else if b ≤ 0xF3 then some [continuation, continuation, continuation]
  else if b = 0xF4 then some [(0x80, 0x8F), continuation, continuation]
  else none

/-- The longest run of bytes at the front of a list that fall into the ranges in turn. -/
def matching : List (UInt8 × UInt8) → List UInt8 → List UInt8
  | (low, high) :: ranges, b :: rest =>
    if low ≤ b && b ≤ high then b :: matching ranges rest else []
  | _, _ => []

/-- The character of a first byte and the bytes that follow it: the bits of the first byte that do
not count the bytes, and six bits of each other byte. -/
def compose (b : UInt8) (rest : List UInt8) : Char :=
  let bits := if rest.isEmpty then 128 else Nat.pow 2 (6 - rest.length)
  Char.ofNat (rest.foldl (fun code tail => 64 * code + tail.toNat % 64) (b.toNat % bits))

/-- The first piece of a list of bytes that begins with `b`, and how many bytes of the rest belong
to it. -/
def firstPiece (b : UInt8) (rest : List UInt8) : Piece × Nat :=
  match followers? b with
  | none => (.broken 1 false, 0)
  | some ranges =>
    let found := matching ranges rest
    if found.length = ranges.length then (.character (compose b found), found.length)
    else (.broken (1 + found.length) (found.length == rest.length), found.length)

/-- The pieces of a list of bytes. -/
def pieces : List UInt8 → List Piece
  | [] => []
  | b :: rest =>
    let (piece, used) := firstPiece b rest
    piece :: pieces (rest.drop used)
termination_by bytes => bytes.length
decreasing_by
  simp only [List.length_drop, List.length_cons]
  omega

/-- Bytes that are no text: where the first broken piece begins, and what it is. -/
structure DecodeError where
  position : Nat
  length : Nat
  atEnd : Bool
  deriving DecidableEq

/-- The wording of the error. -/
def DecodeError.message (e : DecodeError) : String :=
  if e.atEnd then "incomplete utf-8 byte sequence from index " ++ toString e.position
  else "invalid utf-8 sequence of " ++ toString e.length ++ " bytes from index " ++
    toString e.position

/-- The text of pieces, the first of which begins at `position`. -/
def join (position : Nat) : List Piece → Except DecodeError (List Char)
  | [] => .ok []
  | .character c :: rest => (join (position + c.utf8Size) rest).map (c :: ·)
  | .broken length atEnd :: _ => .error ⟨position, length, atEnd⟩

/-- The text that a list of bytes stands for. -/
def decode (bytes : List UInt8) : Except DecodeError (List Char) := join 0 (pieces bytes)

/-- The text that a list of bytes stands for, with U+FFFD in place of each broken piece. -/
def decodeLenient (bytes : List UInt8) : List Char :=
  (pieces bytes).map fun
    | .character c => c
    | .broken _ _ => '\uFFFD'

example : firstPiece 0xC3 [0xA9, 0x61] = (.character 'é', 1) := by decide

example : firstPiece 0xED [0xA0, 0x80] = (.broken 1 false, 0) := by decide

example : firstPiece 0xF0 [0x9F, 0x8E] = (.broken 3 true, 2) := by decide

end Discography.Utf8
