import Discography.Proofs.Sql.Lexer
import Discography.Proofs.Sql.LiteralBodies

/-!
# Names, texts and bytes are read back

What stands between marks or apostrophes is read up to the closing one, whatever characters it has,
provided that the text behind does not go on with the same character.

## Main results

* `Lexer.readName_double`: names
* `Literal.textBody_encode`, `Literal.readText_encode`: texts, in either style
* `Hex.hexPairs_of_hexDigit`, `Hex.decode_upper`: bytes
-/

namespace Discography

namespace Lexer

/-- A name is read up to its closing mark. -/
theorem readName_double (name : List Char) {rest : List Char} (h : rest.head? ≠ some '\x60') :
    readName (Name.double name ++ '\x60' :: rest) = some (name, rest) := by
  induction name with
  | nil =>
    -- another mark behind the closing one would make it a part of the name
    cases rest with
    | nil => rfl
    | cons d rest =>
      have hd : d ≠ '\x60' := by simpa using h
      simp [Name.double, readName, hd]
  | cons c name ih =>
    have hdouble : Name.double (c :: name) =
        (if c = Name.mark then [c, c] else [c]) ++ Name.double name := rfl
    by_cases hc : c = '\x60'
    -- a mark in the name is there twice, and two of them are read as one
    · subst hc
      simp [hdouble, Name.mark, readName, ih]
    · simp [hdouble, Name.mark, hc, readName, ih]

end Lexer

namespace Literal

/-- A character is written with a backslash, or it is neither a backslash nor an apostrophe. -/
theorem encodeChar_backslash (c : Char) :
    (∃ e, TextStyle.backslash.encodeChar c = ['\\', e] ∧ unescape e = c) ∨
      (TextStyle.backslash.encodeChar c = [c] ∧ c ≠ '\\' ∧ c ≠ '\'') := by
  simp only [TextStyle.encodeChar]
  split
  · exact .inl ⟨_, rfl, by subst c; rfl⟩
  split
  · exact .inl ⟨_, rfl, by subst c; rfl⟩
  split
  · exact .inl ⟨_, rfl, by subst c; rfl⟩
  split
  · exact .inl ⟨_, rfl, by subst c; rfl⟩
  split
  · exact .inl ⟨_, rfl, by subst c; rfl⟩
  split
  · exact .inl ⟨_, rfl, by subst c; rfl⟩
  · exact .inr ⟨rfl, ‹_›, ‹_›⟩

/-- The written form of a text is a body of it, in either style. -/
theorem textBody_encode (style : TextStyle) (s : List Char) :
    TextBody style (style.encode s) s := by
  induction s with
  | nil => exact .nil
  | cons c s ih =>
    rw [TextStyle.encode_cons]
    cases style with
    | doubled =>
      by_cases hc : c = '\''
      · subst hc
        exact .doubled ih
      · have hplain : TextStyle.doubled.encodeChar c = [c] := if_neg hc
        rw [hplain]
        exact .plain hc nofun ih
    | backslash =>
      rcases encodeChar_backslash c with ⟨e, hencode, hunescape⟩ | ⟨hencode, hback, hquote⟩
      · rw [hencode]
        exact .escaped (escape_iff.mpr hunescape) ih
      · rw [hencode]
        exact .plain hquote (fun _ => hback) ih

/-- A text is read up to its closing apostrophe. -/
theorem readText_encode (style : TextStyle) (s : List Char) {rest : List Char}
    (h : rest.head? ≠ some '\'') :
    readText style (style.encode s ++ '\'' :: rest) = .ok (s, rest) :=
  (textBody_encode style s).readText fun _ => h

end Literal

namespace Hex

theorem hexDigit_upperDigit {n : Nat} (h : n < 16) : HexDigit (upperDigit n) n := by
  have hdigit : ∀ n < 16, (48 ≤ (upperDigit n).toNat ∧ (upperDigit n).toNat ≤ 57 ∧
      (upperDigit n).toNat - 48 = n) ∨ (65 ≤ (upperDigit n).toNat ∧ (upperDigit n).toNat ≤ 70 ∧
        (upperDigit n).toNat - 55 = n) := by decide
  exact hexDigit_iff.mpr ((hdigit n h).imp_right .inl)

/-- Two digits for each byte are pairs of digits, in either case. -/
theorem hexPairs_of_hexDigit {digit : Nat → Char} (hdigit : ∀ n < 16, HexDigit (digit n) n)
    (bytes : List UInt8) :
    HexPairs (bytes.flatMap fun b => [digit (b.toNat / 16), digit (b.toNat % 16)]) bytes := by
  induction bytes with
  | nil => exact .nil
  | cons b bytes ih =>
    have hhigh : b.toNat / 16 < 16 := by
      have := b.toNat_lt
      omega
    have hlow : b.toNat % 16 < 16 := Nat.mod_lt _ (by decide)
    have hpairs := HexPairs.cons (hdigit _ hhigh) (hdigit _ hlow) ih
    rwa [Nat.div_add_mod, UInt8.ofNat_toNat] at hpairs

theorem hexPairs_upper (bytes : List UInt8) : HexPairs (upper bytes) bytes :=
  hexPairs_of_hexDigit (fun _ => hexDigit_upperDigit) bytes

/-- Bytes are read back from their digits. -/
theorem decode_upper (bytes : List UInt8) : decode (upper bytes) = .ok bytes :=
  decode_eq_ok_iff.mpr (hexPairs_upper bytes)

theorem ne_apostrophe_of_mem_upper {bytes : List UInt8} : ∀ c ∈ upper bytes, c ≠ '\'' :=
  (hexPairs_upper bytes).ne_apostrophe

/-! Digits need no quoting, so the first apostrophe closes. -/

theorem takeWhile_upper (bytes : List UInt8) (rest : List Char) :
    (upper bytes ++ '\'' :: rest).takeWhile (· != '\'') = upper bytes := by
  rw [List.takeWhile_append_of_pos fun c hc => by simpa using ne_apostrophe_of_mem_upper c hc]
  simp

theorem dropWhile_upper (bytes : List UInt8) (rest : List Char) :
    (upper bytes ++ '\'' :: rest).dropWhile (· != '\'') = '\'' :: rest := by
  rw [List.dropWhile_append_of_pos fun c hc => by simpa using ne_apostrophe_of_mem_upper c hc]
  simp

end Hex

end Discography
