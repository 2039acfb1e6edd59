/-!
# Hexadecimal text of bytes

Two digits per byte, the high half first. Writing is available in both cases; reading takes either
case, works on the UTF-8 bytes of the text and reports the first byte that is no digit.

## Main definitions

* `Hex.lower`, `Hex.upper`: the digits of a list of bytes
* `Hex.decode`: the bytes that a text of digits stands for
-/

namespace Discography.Hex

/-- The lower-case digit of a number below 16. -/
def lowerDigit (n : Nat) : Char :=
  if n < 10 then Char.ofNat (n + 48) else Char.ofNat (n + 87)

/-- The upper-case digit of a number below 16. -/
def upperDigit (n : Nat) : Char :=
  if n < 10 then Char.ofNat (n + 48) else Char.ofNat (n + 55)

/-- The digits of `bytes` in lower case. -/
def lower (bytes : List UInt8) : List Char :=
  bytes.flatMap fun b => [lowerDigit (b.toNat / 16), lowerDigit (b.toNat % 16)]

/-- The digits of `bytes` in upper case. -/
def upper (bytes : List UInt8) : List Char :=
  bytes.flatMap fun b => [upperDigit (b.toNat / 16), upperDigit (b.toNat % 16)]

/-- The number that an ASCII digit of either case stands for. -/
def digitValue? (b : UInt8) : Option Nat :=
  let n := b.toNat
  if 48 ≤ n && n ≤ 57 then some (n - 48)
  else if 65 ≤ n && n ≤ 70 then some (n - 55)
  else if 97 ≤ n && n ≤ 102 then some (n - 87)
  else none

/-- Why a text is no sequence of digit pairs. -/
inductive DecodeError where
  /-- The text has an odd number of bytes. -/
  | oddLength
  /-- The byte `byte` at `position` is no digit. -/
  | badDigit (byte : UInt8) (position : Nat)
  deriving DecidableEq

/-- The digit at `position`, or the error that it is none. -/
def readDigit (position : Nat) (b : UInt8) : Except DecodeError Nat :=
  match digitValue? b with
  | some n => .ok n
  | none => .error (.badDigit b position)

/-- Reads digit pairs, the first of which stands at `position`. -/
def decodePairs (position : Nat) : List UInt8 → Except DecodeError (List UInt8)
  | high :: low :: rest => do
    let h ← readDigit position high
    let l ← readDigit (position + 1) low
    let bytes ← decodePairs (position + 2) rest
    return UInt8.ofNat (16 * h + l) :: bytes
  | _ => .ok []

/-- The bytes of a text of hexadecimal digits; an odd length is reported before a bad digit. -/
def decode (text : List Char) : Except DecodeError (List UInt8) :=
  let bytes := text.flatMap String.utf8EncodeChar
  if bytes.length % 2 = 0 then decodePairs 0 bytes else .error .oddLength

example : lower [0, 171, 255] = ['0', '0', 'a', 'b', 'f', 'f'] := by decide

example : decode ['0', 'A', 'f', 'F'] = .ok [10, 255] := by rfl

end Discography.Hex
