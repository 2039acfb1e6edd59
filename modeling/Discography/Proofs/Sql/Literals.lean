import Discography.Proofs.Decimal.RoundTrip
import Discography.Proofs.Sql.LiteralGrammar
import Discography.Proofs.Sql.Quoted
import Discography.Proofs.Sql.Reals

/-!
# Literals are read back

The literal of a value is read as this value, to any depth and in either style of texts, and nothing
behind it is touched, as long as the text behind begins with a blank, a comma or a closing
parenthesis. Every value has a literal but those that hold a real without a finite value.

## Main definitions

* `Value.IsFinite`: every real in the value is finite

## Main results

* `Value.exists_sql_iff`: values that have a literal
* `Literal.derives_sql`: the literal of a value in the grammar
* `Literal.readValue_sql`: a literal is read up to its end
* `Dialect.literal_selfDelimiting`: so is the text of a literal, which reading gives back
-/

namespace Discography

/-! ### Values with a literal -/

namespace Value

mutual

/-- Every real in the value is finite, at any depth. -/
def IsFinite : Value → Prop
  | .real x => x.isFinite
  | .list items => ItemsFinite items
  | _ => True

/-- Every real in the values of a list is finite. -/
def ItemsFinite : List Value → Prop
  | [] => True
  | v :: rest => v.IsFinite ∧ ItemsFinite rest

end

mutual

theorem isFinite_iff_reals : ∀ v : Value, v.IsFinite ↔ ∀ x ∈ v.reals, x.isFinite
  | .null | .boolean _ | .integer _ | .text _ | .blob _ => by simp [IsFinite, reals]
  | .real x => by simp [IsFinite, reals]
  | .list items => itemsFinite_iff_reals items

theorem itemsFinite_iff_reals : ∀ items : List Value,
    ItemsFinite items ↔ ∀ x ∈ itemsReals items, x.isFinite
  | [] => by simp [ItemsFinite, itemsReals]
  | v :: rest => by
    rw [ItemsFinite, itemsReals, isFinite_iff_reals v, itemsFinite_iff_reals rest,
      List.forall_mem_append]

end

/-- The values that have a literal are the finite ones, in every style. -/
theorem exists_sql_iff {style : TextStyle} {v : Value} :
    (∃ sql, v.sql style = .ok sql) ↔ v.IsFinite := by
  rw [(v.decidedBy_sql style).exists_ok_iff, isFinite_iff_reals]

theorem exists_sql (style : TextStyle) (v : Value) (h : v.IsFinite) :
    ∃ sql, v.sql style = .ok sql :=
  exists_sql_iff.mpr h

theorem isFinite_of_sql {style : TextStyle} (v : Value) {sql : Sql} (h : v.sql style = .ok sql) :
    v.IsFinite :=
  exists_sql_iff.mp ⟨sql, h⟩

/-- What a value without literal is blamed on is one of its reals. -/
theorem mem_reals_of_sql_error {style : TextStyle} {cause : NoLiteral} (v : Value)
    (h : v.sql style = .error cause) : cause.value ∈ v.reals ∧ cause.value.isFinite = false := by
  have hdecided := v.decidedBy_sql style
  rwa [h] at hdecided

end Value

namespace Literal

open Decimal

variable {style : TextStyle} {rest : List Char}

mutual

/-- The literal of a value is a literal of this value. -/
theorem derives_sql : ∀ (v : Value) ⦃sql : Sql⦄, v.sql style = .ok sql → Derives style sql.chars v
  | .null, _, h => by
    obtain rfl := Except.ok.inj h
    exact .word .null
  | .boolean b, _, h => by
    obtain rfl := Except.ok.inj h
    cases b with
    | true => exact .word .true
    | false => exact .word .false
  | .integer i, _, h => by
    obtain rfl := Except.ok.inj h
    simpa [Lexeme.chars] using Derives.word (Word.integer (integerNumeral_writeInt i.toInt))
  | .real x, _, h => by
    rw [Value.sql] at h
    split at h
    · rename_i hx
      obtain rfl := Except.ok.inj h
      have hword := Word.real (realNumeral_write hx) (any_isRealMark_write hx)
      simpa [Lexeme.chars] using Derives.word hword
    · cases h
  | .text s, _, h => by
    obtain rfl := Except.ok.inj h
    simpa [Lexeme.chars] using Derives.text (textBody_encode style s.toList)
  | .blob bytes, _, h => by
    obtain rfl := Except.ok.inj h
    simpa [Lexeme.chars] using Derives.blob (.inl rfl) (Hex.hexPairs_upper bytes)
  | .list items, _, h => by
    simp only [Value.sql, Outcome.bind_eq_ok, Outcome.pure_eq_ok] at h
    obtain ⟨pieces, hpieces, rfl⟩ := h
    have hchars : (Sql.parens (Sql.commas pieces)).chars =
        '(' :: (Sql.commas pieces).chars ++ [')'] := by
      simp [Sql.parens, Lexeme.chars]
    rw [hchars]
    cases items with
    | nil =>
      obtain rfl := Except.ok.inj hpieces
      exact .emptyList nofun
    | cons v items =>
      exact .list (derivesItems_itemsSql (v :: items) (List.cons_ne_nil _ _) hpieces)

theorem derivesItems_itemsSql : ∀ (items : List Value) ⦃pieces : List Sql⦄, items ≠ [] →
    Value.itemsSql style items = .ok pieces → DerivesItems style (Sql.commas pieces).chars items
  | [], _, hne, _ => absurd rfl hne
  | v :: items, _, _, h => by
    rw [Value.itemsSql] at h
    simp only [Outcome.bind_eq_ok, Outcome.pure_eq_ok] at h
    obtain ⟨first, hfirst, others, hothers, rfl⟩ := h
    have hitem := (derives_sql v hfirst).padded
    cases items with
    | nil =>
      obtain rfl := Except.ok.inj hothers
      simpa [Sql.commas, List.intercalate] using DerivesItems.last hitem
    | cons w items =>
      have hrest := derivesItems_itemsSql (w :: items) (List.cons_ne_nil _ _) hothers
      have hchars : (Sql.commas (first :: others)).chars =
          first.chars ++ ',' :: ([' '] ++ (Sql.commas others).chars) := by
        simp only [Value.itemsSql, Outcome.bind_eq_ok, Outcome.pure_eq_ok] at hothers
        obtain ⟨second, -, others, -, rfl⟩ := hothers
        simp [Sql.commas, List.intercalate, List.intersperse, Lexeme.chars]
      rw [hchars]
      exact .cons hitem (hrest.blanks_append (by simp [Blanks, Text.isBlank, Text.blankRanges]))

end

/-- A literal is read up to its end. -/
theorem readValue_sql (v : Value) {sql : Sql} {depth : Nat} (h : v.sql style = .ok sql)
    (hrest : Ends rest) (hdepth : sql.chars.length ≤ depth) :
    readValue style depth (sql.chars ++ rest) = .ok (v, rest) :=
  (derives_sql v h).readValue depth hrest hdepth

end Literal

namespace Dialect

open Literal

theorem readLiteral_text (d : Dialect) {v : Value} {sql : Sql} (h : v.sql d.style = .ok sql) :
    d.readLiteral sql.text = .ok v := by
  rw [readLiteral_eq_ok_iff, Sql.text, String.toList_ofList]
  exact (derives_sql v h).padded

/-- **Literals end themselves.** The literal of a value is read as this value, and what stands
behind it is left as it is. The number of characters of the literal bounds the nesting. -/
theorem literal_selfDelimiting (d : Dialect) {v : Value} (hv : v.IsFinite) :
    ∃ text, d.literal v = .ok text ∧
      (∀ rest, Ends rest → ∀ depth, text.toList.length ≤ depth →
        readValue d.style depth (text.toList ++ rest) = .ok (v, rest)) ∧
      d.readLiteral text = .ok v := by
  obtain ⟨sql, hsql⟩ := Value.exists_sql d.style v hv
  refine ⟨sql.text, by rw [literal, hsql], ?_, d.readLiteral_text hsql⟩
  intro rest hrest depth hdepth
  rw [Sql.text, String.toList_ofList] at hdepth ⊢
  exact readValue_sql v hsql hrest hdepth

/-- A list in a list, with a text that has each of the characters that end or escape something. -/
theorem literal_selfDelimiting_nested :
    let v : Value := .list [.text "it's (a\\b), \n", .list [.real ⟨0xbff8000000000000⟩, .list []],
      .blob [10, 255], .integer Int64.minValue]
    let text := "('it\\'s (a\\\\b), \\n', (-1.5, ()), X'0AFF', -9223372036854775808)"
    mysql.literal v = .ok text ∧
      readValue .backslash 80 (text.toList ++ [',', ' ', '1']) = .ok (v, [',', ' ', '1']) ∧
      mysql.readLiteral text = .ok v := by
  intro v text
  have hv : v.IsFinite :=
    ⟨trivial, ⟨(by decide : Binary64.isFinite ⟨0xbff8000000000000⟩), trivial, trivial⟩, trivial,
      trivial, trivial⟩
  obtain ⟨written, hwritten, hread, hback⟩ := literal_selfDelimiting mysql hv
  have htext : mysql.literal v = .ok text :=
    Outcome.toOption_eq_some.1 (by decide +kernel : (mysql.literal v).toOption = some text)
  obtain rfl : written = text := Except.ok.inj (hwritten.symm.trans htext)
  exact ⟨htext, hread _ (ends_cons_iff.2 (.inr (.inl rfl))) 80 (by decide), hback⟩

end Dialect

end Discography
