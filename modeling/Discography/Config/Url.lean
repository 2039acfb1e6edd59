import Discography.Text.Hex
import Discography.Text.Quoted
import Discography.Text.Utf8

/-!
# URLs of databases

A URL names a database file after its scheme. After a question mark come parameters, `name=value`,
separated by ampersands. A byte can be written as a percent sign and two hexadecimal digits, and in
a parameter a plus sign stands for a space.

## Main definitions

* `DatabaseUrl`: the path and the parameters of a URL
* `DatabaseUrl.parse`: the URL that a text stands for
* `DatabaseUrl.check`: whether all parameters are known
-/

namespace Discography

/-- A URL taken apart. -/
structure DatabaseUrl where
  path : String
  /-- The parameters by name, in order. -/
  parameters : List (String × String)
  deriving DecidableEq

/-- Why no database can be named by a text. -/
inductive UrlError where
  /-- The path is no text. -/
  | path (cause : Utf8.DecodeError)
  | unknownParameter (name : String)
  /-- A known parameter has a value that it cannot have. -/
  | unknownValue (name value : String)
  deriving DecidableEq

/-- The wording of the error. -/
def UrlError.message : UrlError → String
  | path cause => cause.message
  | unknownParameter name =>
    "unknown query parameter \x60" ++ name ++ "\x60 while parsing connection URL"
  | unknownValue name value => "unknown value " ++ Text.quote value ++ " for \x60" ++ name ++ "\x60"

namespace DatabaseUrl

/-- Replaces percent signs that two hexadecimal digits follow by the byte that they stand for. -/
def unescape : List UInt8 → List UInt8
  | 0x25 :: high :: low :: rest =>
    match Hex.digitValue? high, Hex.digitValue? low with
    | some h, some l => UInt8.ofNat (16 * h + l) :: unescape rest
    | _, _ => 0x25 :: unescape (high :: low :: rest)
  | b :: rest => b :: unescape rest
  | [] => []

/-- The bytes of a text with escaped bytes in it. -/
def unescapedBytes (text : List Char) : List UInt8 :=
  unescape (text.flatMap String.utf8EncodeChar)

/-- The text that a name or a value of a parameter stands for. -/
def unescapedPart (text : List Char) : String :=
  let spaced := text.map fun c => if c = '+' then ' ' else c
  String.ofList (Utf8.decodeLenient (unescapedBytes spaced))

/-- The parameter that a text stands for; without an equals sign its value is empty. -/
def parameter (text : List Char) : String × String :=
  (unescapedPart (text.takeWhile (· != '=')),
    unescapedPart ((text.dropWhile (· != '=')).drop 1))

/-- The parameters that a text stands for; empty parts between ampersands are ignored. -/
def parseParameters (text : List Char) : List (String × String) :=
  ((text.splitOn '&').filter (!·.isEmpty)).map parameter

/-- A text without the schemes at its front, in the longer spelling and then in the shorter one. -/
def withoutScheme (text : List Char) : List Char :=
  let dropAll (scheme : String) (text : List Char) : List Char :=
    text.length.repeat
      (fun rest =>
        if scheme.toList.isPrefixOf rest then rest.drop scheme.length else rest) text
  dropAll "sqlite:" (dropAll "sqlite://" text)

/-- The URL that a text stands for. -/
def parse (text : String) : Except UrlError DatabaseUrl := do
  let named := withoutScheme text.toList
  let path ← (Utf8.decode (unescapedBytes (named.takeWhile (· != '?')))).mapError .path
  return ⟨String.ofList path, parseParameters ((named.dropWhile (· != '?')).drop 1)⟩

/-- The parameters that a URL may have, with the values that each of them may have; a parameter
without a list may have any. -/
def knownParameters : List (String × Option (List String)) :=
  [("mode", some ["ro", "rw", "rwc", "memory"]), ("cache", some ["private", "shared"]),
    ("immutable", some ["true", "1", "false", "0"]), ("vfs", none)]

/-- Refuses a parameter that is not known or has no value of its own. -/
def checkParameter (name value : String) : Except UrlError Unit :=
  match knownParameters.lookup name with
  | none => .error (.unknownParameter name)
  | some values =>
    if values.all (·.contains value) then .ok () else .error (.unknownValue name value)

/-- Refuses a URL for its first parameter that cannot be used. -/
def check (url : DatabaseUrl) : Except UrlError Unit :=
  url.parameters.forM fun (name, value) => checkParameter name value

example : unescape [0x25, 0x36, 0x65, 0x25, 0x7A] = [0x6E, 0x25, 0x7A] := by decide

end DatabaseUrl

end Discography
