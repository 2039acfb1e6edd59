import Discography.Text.FileName
import Mathlib.Data.List.Basic

/-!
# Names behind the last separator

A path is split twice, at slashes and then at backslashes, and each time only the last piece is
kept. Whatever the order in which the two separators stand, this leaves the longest suffix of the
path in which neither of them occurs. For one separator the last piece is the longest suffix without
it. A longest suffix of a longest suffix is one for both of their separators, because a suffix that
avoids both avoids the first and so does not begin in front of the first piece.

## Main definitions

* `Text.IsLastPart`: the longest suffix of a text in which none of some separators occurs
* `Text.pathSeparators`: what separates the components of a path

## Main results

* `Text.isLastPart_lastPiece`, `Text.IsLastPart.trans`: one split, and one split after another
* `Text.eq_fileName_iff`: the file name is the last part of the path
* `Text.fileName_eq_self_iff`: the paths that are file names
-/

namespace Discography.Text

/-- The longest suffix of a text in which none of the separators occurs. -/
structure IsLastPart (separators part text : List Char) : Prop where
  suffix : part <:+ text
  avoids : separators.Disjoint part
  longest : ∀ other, other <:+ text → separators.Disjoint other → other.length ≤ part.length

namespace IsLastPart

variable {separators others part part' name text behind : List Char} {separator : Char}

/-- Of two suffixes of a text the shorter one ends the other. -/
theorem unique (h : IsLastPart separators part text) (h' : IsLastPart separators part' text) :
    part = part' := by
  have hle := h'.longest part h.suffix h.avoids
  have hge := h.longest part' h'.suffix h'.avoids
  exact (List.suffix_of_suffix_length_le h.suffix h'.suffix hle).eq_of_length_le hge

/-- A text without separators is its own last part. -/
theorem self (h : separators.Disjoint text) : IsLastPart separators text text :=
  ⟨List.suffix_rfl, h, fun _ hother _ => hother.length_le⟩

/-- What stands in front of a separator does not matter. -/
theorem append_cons (h : IsLastPart separators part behind) (hmem : separator ∈ separators)
    (before : List Char) : IsLastPart separators part (before ++ separator :: behind) where
  suffix := (h.suffix.trans (List.suffix_cons _ _)).trans (List.suffix_append _ _)
  avoids := h.avoids
  longest := by
    intro other hother havoids
    have hrest : separator :: behind <:+ before ++ separator :: behind := List.suffix_append _ _
    -- a suffix that begins in front of the separator has it
    obtain hlong | hshort := List.suffix_or_suffix_of_suffix hrest hother
    · exact absurd (hlong.mem List.mem_cons_self) (havoids hmem)
    obtain rfl | hbehind := List.suffix_cons_iff.mp hshort
    · exact absurd List.mem_cons_self (havoids hmem)
    · exact h.longest other hbehind havoids

/-- The last part of a last part is one for the separators of both. -/
theorem trans (h : IsLastPart separators part text) (h' : IsLastPart others name part) :
    IsLastPart (separators ++ others) name text where
  suffix := h'.suffix.trans h.suffix
  avoids := by
    have hpart : separators.Disjoint name := fun c hc hmem => h.avoids hc (h'.suffix.mem hmem)
    exact List.disjoint_append_left.mpr ⟨hpart, h'.avoids⟩
  longest := by
    intro other hother havoids
    obtain ⟨hfirst, hsecond⟩ := List.disjoint_append_left.mp havoids
    have hle : other.length ≤ part.length := h.longest other hother hfirst
    exact h'.longest other (List.suffix_of_suffix_length_le hother h.suffix hle) hsecond

end IsLastPart

/-! ### Splits -/

theorem lastPiece_of_notMem {separator : Char} {text : List Char} (h : separator ∉ text) :
    lastPiece separator text = text := by
  rw [lastPiece, List.splitOn_eq_singleton h]
  rfl

theorem lastPiece_append_cons (separator : Char) (before behind : List Char) :
    lastPiece separator (before ++ separator :: behind) = lastPiece separator behind := by
  have hpieces : behind.splitOn separator ≠ [] := List.splitOn_ne_nil separator behind
  rw [lastPiece, lastPiece, List.splitOn_append_cons_self, List.getLast?_append,
    List.getLast?_eq_some_getLast hpieces]
  rfl

/-- A split leaves the longest suffix without the separator. -/
theorem isLastPart_lastPiece (separator : Char) (text : List Char) :
    IsLastPart [separator] (lastPiece separator text) text := by
  by_cases hmem : separator ∈ text
  · -- the last piece lies behind every occurrence, so the text can be cut at any of them
    obtain ⟨before, behind, htext⟩ := List.append_of_mem hmem
    have hshorter : behind.length < text.length := by
      rw [htext, List.length_append, List.length_cons]
      omega
    have hbehind := isLastPart_lastPiece separator behind
    rw [htext, lastPiece_append_cons]
    exact hbehind.append_cons List.mem_cons_self before
  · rw [lastPiece_of_notMem hmem]
    exact .self (List.singleton_disjoint.mpr hmem)
termination_by text.length

/-! ### File names -/

/-- What separates the components of a path. -/
def pathSeparators : List Char := ['/', '\\']

variable {name path : String}

theorem isLastPart_fileName (path : String) :
    IsLastPart pathSeparators (fileName path).toList path.toList := by
  rw [fileName, String.toList_ofList]
  exact (isLastPart_lastPiece '/' path.toList).trans (isLastPart_lastPiece '\\' _)

/-- The file name is the longest suffix of the path without separators, and nothing else is. -/
theorem eq_fileName_iff :
    name = fileName path ↔ IsLastPart pathSeparators name.toList path.toList := by
  constructor
  · rintro rfl
    exact isLastPart_fileName path
  · intro h
    exact String.toList_inj.mp (h.unique (isLastPart_fileName path))

/-- The paths that are file names are those without separators. -/
theorem fileName_eq_self_iff : fileName path = path ↔ pathSeparators.Disjoint path.toList := by
  rw [eq_comm, eq_fileName_iff]
  exact ⟨IsLastPart.avoids, IsLastPart.self⟩

theorem fileName_fileName (path : String) : fileName (fileName path) = fileName path :=
  fileName_eq_self_iff.mpr (isLastPart_fileName path).avoids

end Discography.Text
