import Discography.Proofs.Decimal.Overflow
import Discography.Proofs.Sql.Literals

/-!
# Accepted literals that cannot be written

The reader accepts more texts than the writer writes. Integers beyond 64 bits it refuses, and a
value that it returns is written as another spelling of the same value, with one exception: the
numeral of a real may have any magnitude, and beyond the range it stands for an infinity, for which
there is no literal.

## Main results

* `Literal.Derives.exists_numerals`: every real of a value has its numeral in the text
* `Dialect.rewritable_iff_of_readLiteral`: the texts that are read as a value with a literal
-/

namespace Discography

namespace Literal

open Decimal

/-- The numerals of reals in a part of a text, for the reals that they are read as. -/
def NumeralsOf (text : List Char) (numerals : List (List Char)) (reals : List Binary64) : Prop :=
  (∀ numeral ∈ numerals, numeral <:+: text ∧ numeral.any isRealMark) ∧
    List.Forall₂ RealNumeral numerals reals

variable {style : TextStyle} {text part : List Char}

theorem numeralsOf_nil (text : List Char) : NumeralsOf text [] [] := ⟨nofun, .nil⟩

/-- A longer text has the numerals of its parts. -/
theorem NumeralsOf.mono {numerals : List (List Char)} {reals : List Binary64}
    (h : NumeralsOf part numerals reals) (hpart : part <:+: text) :
    NumeralsOf text numerals reals :=
  ⟨fun numeral hmem => ⟨(h.1 numeral hmem).1.trans hpart, (h.1 numeral hmem).2⟩, h.2⟩

theorem NumeralsOf.append {first second : List (List Char)} {reals others : List Binary64}
    (hfirst : NumeralsOf text first reals) (hsecond : NumeralsOf text second others) :
    NumeralsOf text (first ++ second) (reals ++ others) :=
  ⟨List.forall_mem_append.mpr ⟨hfirst.1, hsecond.1⟩, List.rel_append hfirst.2 hsecond.2⟩

theorem Word.exists_numerals {v : Value} (h : Word text v) :
    ∃ numerals, NumeralsOf text numerals v.reals := by
  cases h with
  | null | true | false | integer => exact ⟨[], numeralsOf_nil _⟩
  | real h hmark => exact ⟨[text], by simpa using hmark, .cons h .nil⟩

mutual

/-- Every real of a value has its numeral in the literal. -/
theorem Derives.exists_numerals : ∀ {text : List Char} {v : Value}, Derives style text v →
    ∃ numerals, NumeralsOf text numerals v.reals
  | _, _, .word h => h.exists_numerals
  | _, _, .text _ | _, _, .blob _ _ | _, _, .emptyList _ => ⟨[], numeralsOf_nil _⟩
  | _, _, @Derives.list _ inside items h => by
    obtain ⟨numerals, hnumerals⟩ := h.exists_numerals
    exact ⟨numerals, hnumerals.mono ⟨['('], [')'], rfl⟩⟩

theorem DerivesPadded.exists_numerals : ∀ {text : List Char} {v : Value},
    DerivesPadded style text v → ∃ numerals, NumeralsOf text numerals v.reals
  | _, _, @DerivesPadded.mk _ before literal after _ _ h _ => by
    obtain ⟨numerals, hnumerals⟩ := h.exists_numerals
    exact ⟨numerals, hnumerals.mono ⟨before, after, rfl⟩⟩

theorem DerivesItems.exists_numerals : ∀ {text : List Char} {items : List Value},
    DerivesItems style text items → ∃ numerals, NumeralsOf text numerals (Value.itemsReals items)
  | _, _, .last h => by
    obtain ⟨numerals, hnumerals⟩ := h.exists_numerals
    exact ⟨numerals, by simpa [Value.itemsReals] using hnumerals⟩
  | _, _, @DerivesItems.cons _ item rest _ _ h hrest => by
    obtain ⟨first, hfirst⟩ := h.exists_numerals
    obtain ⟨others, hothers⟩ := hrest.exists_numerals
    -- both parts stand in the text, so their numerals do
    have hitem : item <:+: item ++ ',' :: rest := (List.prefix_append _ _).isInfix
    have hbehind : rest <:+: item ++ ',' :: rest :=
      ((List.suffix_cons ',' rest).trans (List.suffix_append _ _)).isInfix
    exact ⟨first ++ others, (hfirst.mono hitem).append (hothers.mono hbehind)⟩

end

/-- The reals are finite if no numeral is beyond the range. -/
theorem NumeralsOf.forall_isFinite_iff {numerals : List (List Char)} {reals : List Binary64}
    (h : NumeralsOf text numerals reals) :
    (∀ x ∈ reals, x.isFinite) ↔ ∀ numeral ∈ numerals, ¬ Overflows numeral := by
  obtain ⟨hmarks, hall⟩ := h
  induction hall with
  | nil => simp
  | cons hnumeral _ ih =>
    obtain ⟨hfirst, hrest⟩ := List.forall_mem_cons.mp hmarks
    rw [List.forall_mem_cons, List.forall_mem_cons, ih hrest, hnumeral.isFinite_iff hfirst.2]

/-- No numeral of these is read as the non-number. -/
theorem NumeralsOf.isNaN_eq_false {numerals : List (List Char)} {reals : List Binary64}
    (h : NumeralsOf text numerals reals) {x : Binary64} (hx : x ∈ reals) : x.isNaN = false := by
  obtain ⟨numeral, hmem, hnumeral⟩ := Outcome.exists_mem_of_forall₂ h.2.flip hx
  exact RealNumeral.isNaN_eq_false hnumeral (h.1 numeral hmem).2

end Literal

namespace Dialect

open Decimal Literal

theorem literal_eq_ok_iff {d : Dialect} {v : Value} {written : String} :
    d.literal v = .ok written ↔ ∃ sql, v.sql d.style = .ok sql ∧ sql.text = written := by
  rw [literal]
  split
  · rename_i sql hsql
    simp [hsql]
  · rename_i cause hcause
    simp [hcause]

/-- **Accepted literals can be written again unless a numeral is beyond the range.** A text that is
read has a numeral for each real of its value. The value has a literal if they all are in the range,
and the literal is read as the same value. If one is not, an infinity is blamed. -/
theorem rewritable_iff_of_readLiteral (d : Dialect) {text : String} {v : Value}
    (h : d.readLiteral text = .ok v) :
    ∃ numerals, NumeralsOf text.toList numerals v.reals ∧
      ((∃ written, d.literal v = .ok written) ↔ ∀ numeral ∈ numerals, ¬ Overflows numeral) ∧
      (∀ written, d.literal v = .ok written → d.readLiteral written = .ok v) ∧
      ∀ cause, d.literal v = .error cause →
        ∃ x ∈ v.reals, x.isFinite = false ∧ x.isNaN = false ∧ cause = .noLiteral ⟨x⟩ := by
  obtain ⟨numerals, hnumerals⟩ := (readLiteral_eq_ok_iff.mp h).exists_numerals
  refine ⟨numerals, hnumerals, ?_, ?_, ?_⟩
  · rw [← hnumerals.forall_isFinite_iff, ← v.isFinite_iff_reals]
    constructor
    · rintro ⟨written, hwritten⟩
      obtain ⟨sql, hsql, -⟩ := literal_eq_ok_iff.mp hwritten
      exact Value.isFinite_of_sql v hsql
    · intro hfinite
      obtain ⟨sql, hsql⟩ := Value.exists_sql d.style v hfinite
      exact ⟨sql.text, literal_eq_ok_iff.mpr ⟨sql, hsql, rfl⟩⟩
  · intro written hwritten
    obtain ⟨sql, hsql, rfl⟩ := literal_eq_ok_iff.mp hwritten
    exact d.readLiteral_text hsql
  · intro cause hcause
    rw [literal] at hcause
    split at hcause
    · cases hcause
    · rename_i blamed hblamed
      obtain rfl := Except.error.inj hcause
      obtain ⟨hmem, hinfinite⟩ := Value.mem_reals_of_sql_error v hblamed
      exact ⟨_, hmem, hinfinite, hnumerals.isNaN_eq_false hmem, rfl⟩

/-- Two numerals around the half behind the largest number, one digit apart: the lower one is
written as the largest number, the upper one is read as an infinity. -/
theorem rewritable_iff_of_readLiteral_around_half :
    let below := "( -9223372036854775808, +1.797693134862315807E308 ,x'0a')"
    let beyond := "( -9223372036854775808, -1.797693134862315808E308 ,x'0a')"
    let written := "(-9223372036854775808, 1.7976931348623157e308, X'0A')"
    (∃ v, sqlite.readLiteral below = .ok v ∧ sqlite.literal v = .ok written ∧
      sqlite.readLiteral written = .ok v) ∧
      ∃ v x, sqlite.readLiteral beyond = .ok v ∧ sqlite.literal v = .error (.noLiteral ⟨x⟩) ∧
        x.isFinite = false ∧ x.isNaN = false ∧
          ∃ numerals, NumeralsOf beyond.toList numerals v.reals ∧
            ∃ numeral ∈ numerals, Overflows numeral := by
  intro below beyond written
  constructor
  · obtain ⟨v, hread, hliteral⟩ := Option.map_eq_some_iff.mp
      (by decide +kernel : (sqlite.readLiteral below).toOption.map
        (fun v => (sqlite.literal v).toOption) = some (some written))
    rw [Outcome.toOption_eq_some] at hread hliteral
    obtain ⟨numerals, -, -, hback, -⟩ := rewritable_iff_of_readLiteral sqlite hread
    exact ⟨v, hread, hliteral, hback written hliteral⟩
  · obtain ⟨v, hread, hrefused⟩ := Option.map_eq_some_iff.mp
      (by decide +kernel : (sqlite.readLiteral beyond).toOption.map
        (fun v => (sqlite.literal v).toOption) = some none)
    rw [Outcome.toOption_eq_some] at hread
    obtain ⟨numerals, hnumerals, hiff, -, hblamed⟩ := rewritable_iff_of_readLiteral sqlite hread
    cases hliteral : sqlite.literal v with
    | ok text =>
      rw [hliteral] at hrefused
      cases hrefused
    | error cause =>
      obtain ⟨x, -, hinfinite, hnumber, rfl⟩ := hblamed cause hliteral
      refine ⟨v, x, hread, hliteral, hinfinite, hnumber, numerals, hnumerals, ?_⟩
      by_contra hnone
      push Not at hnone
      obtain ⟨text, htext⟩ := hiff.mpr hnone
      rw [hliteral] at htext
      cases htext

/-- A numeral beyond the range is read as an infinity, which has no literal. An integer beyond its
range is refused. -/
theorem infinity_of_readLiteral :
    sqlite.readLiteral "1e400" = .ok (.real ⟨0x7ff0000000000000⟩) ∧
      (∀ written, sqlite.literal (.real ⟨0x7ff0000000000000⟩) ≠ .ok written) ∧
      ∀ v, sqlite.readLiteral "9223372036854775808" ≠ .ok v := by
  refine ⟨?_, ?_, ?_⟩
  · have hnumeral : RealNumeral "1e400".toList ⟨0x7ff0000000000000⟩ :=
      readReal_eq_some_iff.mp (by decide +kernel)
    exact readLiteral_eq_ok_iff.mpr (Derives.word (.real hnumeral (by decide))).padded
  · intro written hwritten
    cases hwritten
  · intro v hread
    have hrefused : (sqlite.readLiteral "9223372036854775808").toOption = none := by decide +kernel
    rw [hread] at hrefused
    cases hrefused

end Dialect

end Discography
