import Discography.Catalogue.Model
import Discography.Error
import Discography.Text.Blank

/-!
# Drafts of entities

What a caller tells of an album or a track that is to be added. The catalogue checks it, and then
gives it an identifier.

## Main definitions

* `NewAlbum`, `NewTrack`: the drafts
* `NewAlbum.validate`, `NewTrack.validate`: the checks
-/

namespace Discography

/-- Refuses a text that is blank. -/
def requireText (field text : String) : Result Unit :=
  if Text.isBlankText text then .error (.invalidInput (.blank field)) else .ok ()

/-- An album that is to be added. -/
structure NewAlbum where
  title : String
  year : Option Int64 := none
  deriving DecidableEq

namespace NewAlbum

/-- An album has a title; the year of its release, if known, lies between 1900 and 2100. -/
def validate (a : NewAlbum) : Result Unit := do
  requireText "title" a.title
  match a.year with
  | none => return
  | some year =>
    if 1900 ≤ year.toInt ∧ year.toInt ≤ 2100 then return
    else .error (.invalidInput (.yearOutOfRange year))

/-- The album under an identifier. -/
def withId (a : NewAlbum) (id artistId : Identifier) : Album := ⟨id, artistId, a.title, a.year⟩

end NewAlbum

/-- A track that is to be added. -/
structure NewTrack where
  title : String
  trackNumber : Int64
  durationMs : Option Int64 := none
  explicit : Bool := false
  deriving DecidableEq

namespace NewTrack

/-- A track has a title and a positive number, and its duration is not negative. -/
def validate (t : NewTrack) : Result Unit := do
  requireText "title" t.title
  if t.trackNumber.toInt < 1 then .error (.invalidInput .trackNumber)
  else if t.durationMs.any (·.toInt < 0) then .error (.invalidInput .negativeDuration)
  else return

/-- The track under an identifier. -/
def withId (t : NewTrack) (id albumId : Identifier) : Track :=
  ⟨id, albumId, t.title, t.trackNumber, t.durationMs, t.explicit⟩

end NewTrack

end Discography
