import Discography.Sql.Lexeme

/-!
# The text of pieces of SQL

A piece of SQL is written by writing its parts one after the other.

## Main results

* `Sql.text_append`, `Sql.text_commas`: the text of several pieces
-/

namespace Discography.Sql

theorem text_append (a b : Sql) : (a ++ b).text = a.text ++ b.text := by
  rw [text, chars_append, String.ofList_append]
  rfl

theorem toList_text (sql : Sql) : sql.text.toList = sql.chars := String.toList_ofList

theorem chars_commas (pieces : List Sql) :
    (commas pieces).chars = [',', ' '].intercalate (pieces.map chars) := by
  induction pieces with
  | nil => rfl
  | cons piece pieces ih =>
    cases pieces with
    | nil => simp [commas]
    | cons next pieces =>
      rw [commas] at ih ⊢
      rw [List.intercalate_cons_cons, chars_append, chars_append, ih]
      simp only [List.map_cons, List.intercalate_cons_cons]
      rfl

/-- Pieces are written with a comma and a space between them. -/
theorem text_commas (pieces : List Sql) :
    (commas pieces).text = ", ".intercalate (pieces.map text) := by
  have hpieces : (pieces.map text).map String.toList = pieces.map chars := by
    rw [List.map_map]
    exact List.map_congr_left fun piece _ => piece.toList_text
  rw [← String.toList_inj, String.toList_intercalate, hpieces, toList_text, chars_commas]
  rfl

end Discography.Sql
