import Discography.Proofs.Decimal.Syntax
import Discography.Proofs.Sql.LiteralBodies
import Discography.Quotation

/-!
# The grammar of literals

Which texts are literals, and of which value, apart from how they are read: keywords and numerals,
texts and bytes in apostrophes, and lists in parentheses, in which every item may have blanks around
it. The reader looks one character ahead and never back, and it accepts the texts of this grammar
and no others.

## Main definitions

* `Literal.Word`: keywords and numerals
* `Literal.Derives`, `Literal.DerivesPadded`, `Literal.DerivesItems`: the grammar
* `Literal.Ends`: what may stand behind a literal

## Main results

* `Literal.derives_of_readValue`: what is read is a literal
* `Literal.Derives.readValue`: a literal is read up to its end
* `Literal.readValue_eq_of_lt`: the depth does not matter once it is large enough
* `Literal.read_eq_ok_iff`: the texts that are read
* `Dialect.readLiteral_accepts_grammar`: the grammar of a dialect
-/

namespace Discography.Literal

open Decimal

/-! ### Keywords and numerals -/

/-- A keyword or a numeral, and its value. The numerals of integers have no point and no exponent,
those of reals have one. -/
inductive Word : List Char → Value → Prop
  | null : Word ['N', 'U', 'L', 'L'] .null
  | true : Word ['T', 'R', 'U', 'E'] (.boolean true)
  | false : Word ['F', 'A', 'L', 'S', 'E'] (.boolean false)
  | integer {numeral : List Char} {i : Int64} (h : IntegerNumeral numeral i.toInt) :
    Word numeral (.integer i)
  | real {numeral : List Char} {x : Binary64} (h : RealNumeral numeral x)
    (hmark : numeral.any isRealMark) : Word numeral (.real x)

/-- No numeral is a keyword. -/
theorem ne_keyword_of_isNumeralChar {token keyword : List Char} (h : ∀ c ∈ token, IsNumeralChar c)
    (hkeyword : keyword ∈ [['N', 'U', 'L', 'L'], ['T', 'R', 'U', 'E'], ['F', 'A', 'L', 'S', 'E']]) :
    token ≠ keyword := by
  rintro rfl
  simp only [List.mem_cons, List.not_mem_nil, or_false] at hkeyword
  rcases hkeyword with rfl | rfl | rfl
  · exact absurd (h 'N' (by decide)) (by simp [IsNumeralChar, isDigit])
  · exact absurd (h 'T' (by decide)) (by simp [IsNumeralChar, isDigit])
  · exact absurd (h 'F' (by decide)) (by simp [IsNumeralChar, isDigit])

theorem bareValue_of_isNumeralChar {token : List Char} (h : ∀ c ∈ token, IsNumeralChar c) :
    bareValue token =
      if token.any isRealMark then
        match readReal token with
        | some x => .ok (.real x)
        | none => .error (.badReal (String.ofList token))
      else
        match readInt64 token with
        | .ok i => .ok (.integer i)
        | .error cause => .error (.badInteger (String.ofList token) cause) := by
  rw [bareValue, if_neg (ne_keyword_of_isNumeralChar h (by decide)),
    if_neg (ne_keyword_of_isNumeralChar h (by decide)),
    if_neg (ne_keyword_of_isNumeralChar h (by decide))]
  rfl

theorem bareValue_eq_ok_iff {token : List Char} {v : Value} :
    bareValue token = .ok v ↔ Word token v := by
  constructor
  · intro h
    rw [bareValue] at h
    split_ifs at h with hnull htrue hfalse hmark
    · obtain rfl := Except.ok.inj h
      exact hnull ▸ .null
    · obtain rfl := Except.ok.inj h
      exact htrue ▸ .true
    · obtain rfl := Except.ok.inj h
      exact hfalse ▸ .false
    · split at h
      · rename_i x hread
        obtain rfl := Except.ok.inj h
        exact .real (readReal_eq_some_iff.mp hread) hmark
      · cases h
    · split at h
      · rename_i i hread
        obtain rfl := Except.ok.inj h
        exact .integer (readInt64_eq_ok_iff.mp hread)
      · cases h
  · intro h
    cases h with
    | null | true | false => rfl
    | integer h =>
      rw [bareValue_of_isNumeralChar h.isNumeralChar, if_neg (by simp [h.any_isRealMark]),
        readInt64_eq_ok_iff.mpr h]
    | real h hmark =>
      rw [bareValue_of_isNumeralChar (h.isNumeralChar hmark), if_pos hmark,
        readReal_eq_some_iff.mpr h]

/-! ### Tokens -/

/-- Printed ASCII characters are no blanks. -/
theorem isBlank_eq_false {c : Char} (hlow : 0x20 < c.toNat) (hhigh : c.toNat < 0x85) :
    Text.isBlank c = false := by
  simp only [Text.isBlank, Text.blankRanges, List.any_cons, List.any_nil, Bool.or_false,
    Bool.or_eq_false_iff, Bool.and_eq_false_iff, decide_eq_false_iff_not]
  omega

theorem not_isBlank_of_isBare {c : Char} (h : isBare c) : Text.isBlank c = false := by
  simp [isBare] at h
  exact h.1.1

theorem isBare_of_isDigit {c : Char} (hc : isDigit c) : isBare c := by
  have hrange : '0' ≤ c ∧ c ≤ '9' := by simpa [isDigit] using hc
  have hlow : 48 ≤ c.toNat := hrange.1
  have hhigh : c.toNat ≤ 57 := hrange.2
  simp [isBare, isBlank_eq_false (c := c) (by omega) (by omega), ne_of_isDigit hc (d := ',') rfl,
    ne_of_isDigit hc (d := ')') rfl]

/-- A keyword or numeral: it has bare characters only, and it does not begin like a text, a list or
a literal of bytes. -/
structure IsToken (token : List Char) : Prop where
  bare : ∀ c ∈ token, isBare c
  head : ∃ c ∈ token.head?, c ∉ ['\'', '(', 'X', 'x']

theorem IsToken.ne_nil {token : List Char} (h : IsToken token) : token ≠ [] := by
  rintro rfl
  obtain ⟨c, hc, -⟩ := h.head
  cases hc

theorem isToken_keyword {token : List Char} (hbare : token.all isBare = true) (c : Char)
    (hc : token.head? = some c) (hhead : c ∉ ['\'', '(', 'X', 'x']) : IsToken token :=
  ⟨List.all_eq_true.1 hbare, c, hc, hhead⟩

theorem isToken_of_isNumeralChar {token : List Char} (hne : token ≠ [])
    (h : ∀ c ∈ token, IsNumeralChar c) : IsToken token := by
  have hbare : ['+', '-', '.', 'e', 'E'].all isBare = true := rfl
  have hhead : ∀ c ∈ ['+', '-', '.', 'e', 'E'], c ∉ ['\'', '(', 'X', 'x'] := by simp
  refine ⟨fun c hc => ?_, ?_⟩
  · exact (h c hc).elim isBare_of_isDigit (List.all_eq_true.1 hbare c)
  · obtain ⟨c, cs, rfl⟩ := List.exists_cons_of_ne_nil hne
    refine ⟨c, rfl, ?_⟩
    rcases h c List.mem_cons_self with hdigit | hc
    · simp [ne_of_isDigit hdigit (d := '\'') rfl, ne_of_isDigit hdigit (d := '(') rfl,
        ne_of_isDigit hdigit (d := 'X') rfl, ne_of_isDigit hdigit (d := 'x') rfl]
    · exact hhead c hc

theorem Word.isToken {word : List Char} {v : Value} (h : Word word v) : IsToken word := by
  cases h with
  | null => exact isToken_keyword rfl 'N' rfl (by simp)
  | true => exact isToken_keyword rfl 'T' rfl (by simp)
  | false => exact isToken_keyword rfl 'F' rfl (by simp)
  | integer h => exact isToken_of_isNumeralChar h.ne_nil h.isNumeralChar
  | real h hmark =>
    refine isToken_of_isNumeralChar ?_ (h.isNumeralChar hmark)
    rintro rfl
    cases hmark

/-- What may stand behind a literal: nothing, a blank, a comma or a closing parenthesis. -/
def Ends (rest : List Char) : Prop := ∀ c ∈ rest.head?, Text.isBlank c ∨ c = ',' ∨ c = ')'

theorem ends_nil : Ends [] := by rintro c ⟨⟩

theorem ends_cons_iff {c : Char} {rest : List Char} :
    Ends (c :: rest) ↔ Text.isBlank c ∨ c = ',' ∨ c = ')' := by
  simp [Ends]

theorem Ends.isBare_eq_false {rest : List Char} (h : Ends rest) {c : Char} (hc : c ∈ rest.head?) :
    isBare c = false := by
  rcases h c hc with hblank | rfl | rfl
  · simp [isBare, hblank]
  · decide
  · decide

theorem Ends.head?_ne_apostrophe {rest : List Char} (h : Ends rest) : rest.head? ≠ some '\'' := by
  intro heq
  cases h.isBare_eq_false heq

/-- A keyword or numeral is read up to its end. -/
theorem readValue_token {style : TextStyle} {token rest : List Char} (h : IsToken token)
    (hrest : Ends rest) (depth : Nat) :
    readValue style (depth + 1) (token ++ rest) = (bareValue token).map fun v => (v, rest) := by
  obtain ⟨c, hc, hhead⟩ := h.head
  obtain ⟨cs, rfl⟩ := List.head?_eq_some_iff.1 hc
  have htake := Text.takeWhile_append h.bare fun c hc => hrest.isBare_eq_false hc
  have hdrop := Text.dropWhile_append h.bare fun c hc => hrest.isBare_eq_false hc
  have hskip : Text.skipBlank (c :: cs ++ rest) = c :: cs ++ rest :=
    Text.skipBlank_cons_of_not_blank _ (not_isBlank_of_isBare (h.bare c List.mem_cons_self))
  simp only [List.mem_cons, List.not_mem_nil, or_false, not_or] at hhead
  have hbare : readValue style (depth + 1) (c :: cs ++ rest) = readBare (c :: cs ++ rest) := by
    rw [readValue, hskip]
    simp only [List.cons_append]
    split
    all_goals simp_all
  rw [hbare, readBare, htake, hdrop]

/-! ### The grammar -/

/-- The text consists of blanks. -/
def Blanks (text : List Char) : Prop := ∀ c ∈ text, Text.isBlank c

mutual

/-- A literal and its value, with texts in the given style. -/
inductive Derives (style : TextStyle) : List Char → Value → Prop
  | word {word : List Char} {v : Value} (h : Word word v) : Derives style word v
  | text {body s : List Char} (h : TextBody style body s) :
    Derives style ('\'' :: body ++ ['\'']) (.text (String.ofList s))
  | blob {mark : Char} {digits : List Char} {bytes : List UInt8} (hmark : mark = 'X' ∨ mark = 'x')
    (h : Hex.HexPairs digits bytes) :
    Derives style (mark :: '\'' :: digits ++ ['\'']) (.blob bytes)
  | emptyList {blanks : List Char} (h : Blanks blanks) :
    Derives style ('(' :: blanks ++ [')']) (.list [])
  | list {inside : List Char} {items : List Value} (h : DerivesItems style inside items) :
    Derives style ('(' :: inside ++ [')']) (.list items)

/-- A literal with blanks around it, or without. -/
inductive DerivesPadded (style : TextStyle) : List Char → Value → Prop
  | mk {before literal after : List Char} {v : Value} (hbefore : Blanks before)
    (h : Derives style literal v) (hafter : Blanks after) :
    DerivesPadded style (before ++ literal ++ after) v

/-- The items of a list, with commas between them. -/
inductive DerivesItems (style : TextStyle) : List Char → List Value → Prop
  | last {item : List Char} {v : Value} (h : DerivesPadded style item v) :
    DerivesItems style item [v]
  | cons {item rest : List Char} {v : Value} {items : List Value} (h : DerivesPadded style item v)
    (hrest : DerivesItems style rest items) : DerivesItems style (item ++ ',' :: rest) (v :: items)

end

theorem isBlank_comma : Text.isBlank ',' = false := by decide

theorem isBlank_close : Text.isBlank ')' = false := by decide

variable {style : TextStyle} {text rest : List Char} {v : Value}

theorem Derives.padded {literal : List Char} (h : Derives style literal v) :
    DerivesPadded style literal v := by
  have hnone : Blanks [] := nofun
  simpa using DerivesPadded.mk hnone h hnone

/-- A literal begins with a character that is neither a blank nor a closing parenthesis. -/
theorem Derives.head {literal : List Char} (h : Derives style literal v) :
    ∃ c ∈ literal.head?, Text.isBlank c = false ∧ c ≠ ')' := by
  cases h with
  | word h =>
    obtain ⟨c, hc, -⟩ := h.isToken.head
    have hbare := h.isToken.bare c (List.mem_of_mem_head? hc)
    refine ⟨c, hc, not_isBlank_of_isBare hbare, ?_⟩
    rintro rfl
    cases hbare
  | text => exact ⟨'\'', rfl, by decide, by decide⟩
  | blob hmark => rcases hmark with rfl | rfl <;> exact ⟨_, rfl, by decide, by decide⟩
  | emptyList | list => exact ⟨'(', rfl, by decide, by decide⟩

/-- A literal ends with a character that is no blank. -/
theorem Derives.last {literal : List Char} (h : Derives style literal v) :
    ∃ c ∈ literal.getLast?, Text.isBlank c = false := by
  cases h with
  | word h =>
    have hne := h.isToken.ne_nil
    exact ⟨_, List.getLast?_eq_some_getLast hne,
      not_isBlank_of_isBare (h.isToken.bare _ (List.getLast_mem hne))⟩
  | text | blob => exact ⟨'\'', by simp [List.getLast?_cons], by decide⟩
  | emptyList | list => exact ⟨')', by simp [List.getLast?_cons], by decide⟩

theorem Derives.ne_nil {literal : List Char} (h : Derives style literal v) : literal ≠ [] := by
  obtain ⟨c, hc, -⟩ := h.head
  exact List.ne_nil_of_mem (List.mem_of_mem_head? hc)

theorem Blanks.append {before after : List Char} (hbefore : Blanks before) (hafter : Blanks after) :
    Blanks (before ++ after) := List.forall_mem_append.mpr ⟨hbefore, hafter⟩

theorem Blanks.skipBlank_append {blanks : List Char} (h : Blanks blanks) (text : List Char) :
    Text.skipBlank (blanks ++ text) = Text.skipBlank text := List.dropWhile_append_of_pos h

/-- Skipping blanks takes them off the front of a text. -/
theorem exists_blanks_append_skipBlank (text : List Char) :
    ∃ blanks, Blanks blanks ∧ text = blanks ++ Text.skipBlank text :=
  ⟨text.takeWhile Text.isBlank, List.all_eq_true.mp List.all_takeWhile,
    List.takeWhile_append_dropWhile.symm⟩

/-- Further blanks may stand in front of the first item of a list. -/
theorem DerivesItems.blanks_append {blanks inside : List Char} {items : List Value}
    (hblanks : Blanks blanks) (h : DerivesItems style inside items) :
    DerivesItems style (blanks ++ inside) items := by
  have hpadded : ∀ {item : List Char} {v : Value}, DerivesPadded style item v →
      DerivesPadded style (blanks ++ item) v := by
    rintro _ v ⟨hbefore, h, hafter⟩
    simpa using DerivesPadded.mk (hblanks.append hbefore) h hafter
  cases h with
  | last h => exact .last (hpadded h)
  | cons h hrest => simpa using DerivesItems.cons (hpadded h) hrest

/-! ### What is read is a literal -/

theorem word_of_readBare (h : readBare text = .ok (v, rest)) :
    ∃ word, Word word v ∧ text = word ++ rest := by
  rw [readBare, Outcome.map_eq_ok] at h
  obtain ⟨v, hword, heq⟩ := h
  obtain ⟨rfl, rfl⟩ := Prod.mk.inj heq
  exact ⟨_, bareValue_eq_ok_iff.mp hword, List.takeWhile_append_dropWhile.symm⟩

mutual

/-- What is read is a literal behind blanks. -/
theorem derives_of_readValue : ∀ (depth : Nat) ⦃text rest : List Char⦄ ⦃v : Value⦄,
    readValue style depth text = .ok (v, rest) →
      ∃ blanks literal, Blanks blanks ∧ Derives style literal v ∧ text = blanks ++ literal ++ rest
  | 0 => nofun
  | depth + 1 => by
    intro text rest v h
    obtain ⟨blanks, hblanks, htext⟩ := exists_blanks_append_skipBlank text
    -- one character behind the blanks tells which kind of literal is read
    suffices hliteral : ∃ literal, Derives style literal v ∧
        Text.skipBlank text = literal ++ rest by
      obtain ⟨literal, hderives, hskip⟩ := hliteral
      exact ⟨blanks, literal, hblanks, hderives, by rw [List.append_assoc, ← hskip, ← htext]⟩
    rw [readValue] at h
    split at h
    · cases h
    · rename_i more hskip
      simp only [Outcome.map_eq_ok] at h
      obtain ⟨⟨s, _⟩, hread, ⟨⟩⟩ := h
      obtain ⟨body, rfl, hbody, -⟩ := readText_eq_ok_iff.mp hread
      exact ⟨_, .text hbody, by simp [hskip]⟩
    · rename_i more hskip
      -- blanks behind the parenthesis stand in an empty list or in front of the first item
      obtain ⟨inner, hinner, hmore⟩ := exists_blanks_append_skipBlank more
      split at h
      · rename_i behind hclose
        obtain ⟨rfl, rfl⟩ := Prod.mk.inj (Except.ok.inj h)
        refine ⟨_, .emptyList hinner, ?_⟩
        rw [hskip, hmore, hclose]
        simp
      · simp only [Outcome.map_eq_ok] at h
        obtain ⟨⟨items, _⟩, hread, ⟨⟩⟩ := h
        obtain ⟨inside, hitems, hinside⟩ := derives_of_readItems depth hread
        refine ⟨_, .list (hitems.blanks_append hinner), ?_⟩
        rw [hskip, hmore, hinside]
        simp
    · rename_i more hskip
      obtain ⟨digits, bytes, rfl, hdigits, rfl⟩ := readBlob_eq_ok_iff.mp h
      exact ⟨_, .blob (.inl rfl) hdigits, by simp [hskip]⟩
    · rename_i more hskip
      obtain ⟨digits, bytes, rfl, hdigits, rfl⟩ := readBlob_eq_ok_iff.mp h
      exact ⟨_, .blob (.inr rfl) hdigits, by simp [hskip]⟩
    · cases h
    · cases h
    · obtain ⟨word, hword, heq⟩ := word_of_readBare h
      exact ⟨word, .word hword, heq⟩

theorem derives_of_readItems : ∀ (depth : Nat) ⦃text rest : List Char⦄ ⦃items : List Value⦄,
    readItems style depth text = .ok (items, rest) →
      ∃ inside, DerivesItems style inside items ∧ text = inside ++ ')' :: rest
  | 0 => nofun
  | depth + 1 => by
    intro text rest items h
    rw [readItems] at h
    obtain ⟨⟨v, behind⟩, hread, hmore⟩ := Outcome.bind_eq_ok.mp h
    obtain ⟨before, literal, hbefore, hderives, rfl⟩ := derives_of_readValue depth hread
    obtain ⟨after, hafter, hbehind⟩ := exists_blanks_append_skipBlank behind
    have hitem := DerivesPadded.mk hbefore hderives hafter
    simp only at hmore
    split at hmore
    · rename_i more hcomma
      simp only [Outcome.map_eq_ok] at hmore
      obtain ⟨⟨items, _⟩, hread, ⟨⟩⟩ := hmore
      obtain ⟨inside, hitems, rfl⟩ := derives_of_readItems depth hread
      refine ⟨_, .cons hitem hitems, ?_⟩
      rw [hbehind, hcomma]
      simp
    · rename_i more hclose
      obtain ⟨rfl, rfl⟩ := Prod.mk.inj (Except.ok.inj hmore)
      refine ⟨_, .last hitem, ?_⟩
      rw [hbehind, hclose]
      simp
    · cases hmore

end

/-- Reading takes something off a text. -/
theorem length_lt_of_readValue {depth : Nat} (h : readValue style depth text = .ok (v, rest)) :
    rest.length < text.length := by
  obtain ⟨blanks, literal, -, hderives, rfl⟩ := derives_of_readValue depth h
  have hpos := List.length_pos_iff.mpr hderives.ne_nil
  simp only [List.length_append]
  omega

/-! ### A literal is read -/

theorem Blanks.ends_append {blanks : List Char} (h : Blanks blanks) (hrest : Ends rest) :
    Ends (blanks ++ rest) := by
  cases blanks with
  | nil => exact hrest
  | cons c blanks => exact ends_cons_iff.mpr (.inl (h c List.mem_cons_self))

theorem Blanks.readValue_append {blanks : List Char} (h : Blanks blanks) (depth : Nat) :
    readValue style depth (blanks ++ text) = readValue style depth text := by
  cases depth with
  | zero => rfl
  | succ depth => rw [readValue, readValue, h.skipBlank_append]

theorem readItems_skipBlank (depth : Nat) :
    readItems style depth (Text.skipBlank text) = readItems style depth text := by
  obtain ⟨blanks, hblanks, htext⟩ := exists_blanks_append_skipBlank text
  cases depth with
  | zero => rfl
  | succ depth => rw [readItems, readItems, ← hblanks.readValue_append depth, ← htext]

/-- The first item of a list is not taken for its end. -/
theorem DerivesItems.skipBlank_append_ne {inside : List Char} {items : List Value}
    (h : DerivesItems style inside items) (behind more : List Char) :
    Text.skipBlank (inside ++ behind) ≠ ')' :: more := by
  have hpadded : ∀ {item : List Char} {v : Value}, DerivesPadded style item v →
      ∀ behind, Text.skipBlank (item ++ behind) ≠ ')' :: more := by
    rintro _ v ⟨hbefore, hliteral, -⟩ behind
    obtain ⟨c, hc, hblank, hclose⟩ := hliteral.head
    obtain ⟨cs, rfl⟩ := List.head?_eq_some_iff.mp hc
    rw [List.append_assoc, List.append_assoc, hbefore.skipBlank_append, List.cons_append,
      Text.skipBlank_cons_of_not_blank _ hblank]
    exact fun heq => hclose (List.cons.inj heq).1
  cases h with
  | last h => exact hpadded h behind
  | cons h =>
    rw [List.append_assoc]
    exact hpadded h _

theorem enclosed_append (first last : Char) (inside rest : List Char) :
    first :: inside ++ [last] ++ rest = first :: (inside ++ last :: rest) := by
  simp

mutual

/-- A literal is read up to its end. Every literal inside it has a character in front of it, so the
number of characters bounds the nesting. -/
theorem Derives.readValue : ∀ (depth : Nat) ⦃literal rest : List Char⦄ ⦃v : Value⦄,
    Derives style literal v → Ends rest → literal.length ≤ depth →
      Literal.readValue style depth (literal ++ rest) = .ok (v, rest)
  | 0 => by
    intro literal rest v h _ hdepth
    exact absurd (List.length_eq_zero_iff.mp (Nat.le_zero.mp hdepth)) h.ne_nil
  | depth + 1 => by
    intro literal rest v h hrest hdepth
    cases h with
    | word h =>
      rw [readValue_token h.isToken hrest, bareValue_eq_ok_iff.mpr h]
      rfl
    | @text body s h =>
      have hread := h.readText fun _ => hrest.head?_ne_apostrophe
      rw [enclosed_append, Literal.readValue, Text.skipBlank_cons_of_not_blank _ (by decide)]
      simp only [hread, Except.map]
    | @blob mark digits bytes hmark h =>
      have hread : readBlob (digits ++ '\'' :: rest) = .ok (.blob bytes, rest) :=
        readBlob_eq_ok_iff.mpr ⟨digits, bytes, rfl, h, rfl⟩
      rw [List.cons_append, List.cons_append, enclosed_append]
      rcases hmark with rfl | rfl
      · rw [Literal.readValue, Text.skipBlank_cons_of_not_blank _ (by decide)]
        exact hread
      · rw [Literal.readValue, Text.skipBlank_cons_of_not_blank _ (by decide)]
        exact hread
    | @emptyList blanks h =>
      rw [enclosed_append, Literal.readValue, Text.skipBlank_cons_of_not_blank _ (by decide)]
      simp only [h.skipBlank_append, Text.skipBlank_cons_of_not_blank _ isBlank_close]
    | @list inside items h =>
      simp only [List.length_append, List.length_cons] at hdepth
      have hread : Literal.readItems style depth (inside ++ ')' :: rest) = .ok (items, rest) :=
        h.readItems depth (by omega)
      rw [enclosed_append, Literal.readValue, Text.skipBlank_cons_of_not_blank _ (by decide)]
      simp only
      split
      · rename_i more hclose
        exact absurd hclose (h.skipBlank_append_ne _ more)
      · rw [readItems_skipBlank, hread]
        rfl

theorem DerivesItems.readItems : ∀ (depth : Nat) ⦃inside rest : List Char⦄ ⦃items : List Value⦄,
    DerivesItems style inside items → inside.length < depth →
      Literal.readItems style depth (inside ++ ')' :: rest) = .ok (items, rest)
  | 0 => by
    intro _ _ _ _ hdepth
    exact absurd hdepth (Nat.not_lt_zero _)
  | depth + 1 => by
    intro inside rest items h hdepth
    cases h with
    | last h =>
      obtain @⟨before, literal, after, v, hbefore, hliteral, hafter⟩ := h
      rw [List.length_append, List.length_append] at hdepth
      have hends : Ends (after ++ ')' :: rest) :=
        hafter.ends_append (ends_cons_iff.mpr (.inr (.inr rfl)))
      have hread := hliteral.readValue depth hends (by omega)
      rw [List.append_assoc, List.append_assoc, Literal.readItems, hbefore.readValue_append, hread]
      simp only [Except.bind, hafter.skipBlank_append,
        Text.skipBlank_cons_of_not_blank _ isBlank_close]
    | @cons item more v items h hmore =>
      obtain @⟨before, literal, after, v, hbefore, hliteral, hafter⟩ := h
      simp only [List.length_append, List.length_cons] at hdepth
      have hends : Ends (after ++ ',' :: (more ++ ')' :: rest)) :=
        hafter.ends_append (ends_cons_iff.mpr (.inr (.inl rfl)))
      have hread := hliteral.readValue depth hends (by omega)
      have hitems : Literal.readItems style depth (more ++ ')' :: rest) = .ok (items, rest) :=
        hmore.readItems depth (by omega)
      rw [List.append_assoc, List.append_assoc, List.append_assoc, List.cons_append,
        Literal.readItems, hbefore.readValue_append, hread]
      simp only [Except.bind, hafter.skipBlank_append,
        Text.skipBlank_cons_of_not_blank _ isBlank_comma, hitems, Except.map]

end

/-! ### Reading ends -/

theorem length_skipBlank_le (text : List Char) : (Text.skipBlank text).length ≤ text.length :=
  (List.dropWhile_suffix _).length_le

mutual

/-- The depth does not matter once it is more than twice the length of the text. -/
theorem readValue_eq_of_lt : ∀ (depth depth' : Nat) ⦃text : List Char⦄,
    2 * text.length < depth → 2 * text.length < depth' →
      readValue style depth text = readValue style depth' text
  | 0, _ => by
    intro _ hdepth
    exact absurd hdepth (Nat.not_lt_zero _)
  | _, 0 => by
    intro _ _ hdepth
    exact absurd hdepth (Nat.not_lt_zero _)
  | depth + 1, depth' + 1 => by
    intro text hdepth hdepth'
    have hskip := length_skipBlank_le text
    have hitems : ∀ more, Text.skipBlank text = '(' :: more →
        readItems style depth (Text.skipBlank more) =
          readItems style depth' (Text.skipBlank more) := by
      intro more hmore
      have hinner := length_skipBlank_le more
      rw [hmore, List.length_cons] at hskip
      exact readItems_eq_of_lt depth depth' (by omega) (by omega)
    rw [readValue, readValue]
    -- nothing but the items of a list is read with the depth that is left
    split
    case h_3 more hmore =>
      split
      · rfl
      · rw [hitems more hmore]
    all_goals rfl

theorem readItems_eq_of_lt : ∀ (depth depth' : Nat) ⦃text : List Char⦄,
    2 * text.length + 1 < depth → 2 * text.length + 1 < depth' →
      readItems style depth text = readItems style depth' text
  | 0, _ => by
    intro _ hdepth
    exact absurd hdepth (Nat.not_lt_zero _)
  | _, 0 => by
    intro _ _ hdepth
    exact absurd hdepth (Nat.not_lt_zero _)
  | depth + 1, depth' + 1 => by
    intro text hdepth hdepth'
    rw [readItems, readItems, readValue_eq_of_lt depth depth' (by omega) (by omega)]
    cases hread : readValue style depth' text with
    | error e => rfl
    | ok p =>
      obtain ⟨v, rest⟩ := p
      -- the item and the comma behind it make what is left shorter by two characters
      have hrest := length_lt_of_readValue hread
      have hskip := length_skipBlank_le rest
      simp only [Except.bind]
      split
      case h_1 more hmore =>
        rw [hmore, List.length_cons] at hskip
        rw [readItems_eq_of_lt depth depth' (by omega) (by omega)]
      all_goals rfl

end

/-! ### Texts -/

/-- Trimming takes blanks off both ends of a text. -/
theorem exists_blanks_append_trim (text : List Char) :
    ∃ before after, Blanks before ∧ Blanks after ∧ text = before ++ Text.trim text ++ after := by
  obtain ⟨before, hbefore, htext⟩ := exists_blanks_append_skipBlank text
  obtain ⟨after, hafter, hskip⟩ := exists_blanks_append_skipBlank (Text.skipBlank text).reverse
  refine ⟨before, after.reverse, hbefore, fun c hc => hafter c (List.mem_reverse.mp hc), ?_⟩
  have hback : Text.skipBlank text = Text.trim text ++ after.reverse := by
    rw [← List.reverse_reverse (Text.skipBlank text), hskip, List.reverse_append]
    rfl
  rw [List.append_assoc, ← hback, ← htext]

/-- Trimming takes nothing off a literal. -/
theorem Derives.trim_append {before literal after : List Char} (hbefore : Blanks before)
    (h : Derives style literal v) (hafter : Blanks after) :
    Text.trim (before ++ literal ++ after) = literal := by
  have hfront : Text.skipBlank (before ++ literal ++ after) = literal ++ after := by
    obtain ⟨c, hc, hblank, -⟩ := h.head
    obtain ⟨cs, rfl⟩ := List.head?_eq_some_iff.mp hc
    rw [List.append_assoc, hbefore.skipBlank_append, List.cons_append,
      Text.skipBlank_cons_of_not_blank _ hblank]
  have hback : (literal ++ after).reverse.dropWhile Text.isBlank = literal.reverse := by
    obtain ⟨c, hc, hblank⟩ := h.last
    obtain ⟨cs, rfl⟩ := List.getLast?_eq_some_iff.mp hc
    rw [List.reverse_append,
      List.dropWhile_append_of_pos fun c hc => hafter c (List.mem_reverse.mp hc),
      List.reverse_append, List.reverse_singleton, List.singleton_append,
      List.dropWhile_cons_of_neg (by simp [hblank])]
  rw [Text.trim, hfront, Text.dropEndWhile, hback, List.reverse_reverse]

/-- The texts that are read are literals with blanks around them, or without. -/
theorem read_eq_ok_iff {text : String} :
    Literal.read style text = .ok v ↔ DerivesPadded style text.toList v := by
  constructor
  · intro h
    obtain ⟨⟨v, rest⟩, hread, hmore⟩ := Outcome.bind_eq_ok.mp h
    simp only at hmore
    split at hmore
    · rename_i hrest
      obtain rfl := Except.ok.inj hmore
      obtain ⟨before, after, hbefore, hafter, htext⟩ := exists_blanks_append_trim text.toList
      obtain ⟨blanks, literal, hblanks, hliteral, hbody⟩ := derives_of_readValue _ hread
      -- nothing but blanks is left behind the literal
      obtain ⟨behind, hbehind, hall⟩ := exists_blanks_append_skipBlank rest
      rw [hrest, List.append_nil] at hall
      rw [htext, hbody, hall]
      simpa using DerivesPadded.mk (hbefore.append hblanks) hliteral (hbehind.append hafter)
    · cases hmore
  · intro h
    generalize hchars : text.toList = chars at h
    obtain @⟨before, literal, after, v, hbefore, hliteral, hafter⟩ := h
    -- trimming leaves the literal, with nothing behind it
    have hread := hliteral.readValue (2 * literal.length + 2) ends_nil (by omega)
    rw [List.append_nil] at hread
    simp only [Literal.read, hchars, hliteral.trim_append hbefore hafter, hread]
    rfl

end Discography.Literal

namespace Discography.Dialect

open Literal

theorem readLiteral_eq_ok_iff {d : Dialect} {text : String} {v : Value} :
    d.readLiteral text = .ok v ↔ DerivesPadded d.style text.toList v := by
  rw [readLiteral, Outcome.mapError_eq_ok, read_eq_ok_iff]

/-- **The reader accepts its grammar.** A text is read with a value if it is a literal of this
value, with blanks around it or without. It is a literal of one value at most, and reading it ends:
to read deeper than the length of the text allows changes nothing. -/
theorem readLiteral_accepts_grammar (d : Dialect) (text : String) :
    (∀ v, d.readLiteral text = .ok v ↔ DerivesPadded d.style text.toList v) ∧
      (∀ v w, DerivesPadded d.style text.toList v → DerivesPadded d.style text.toList w → v = w) ∧
      ∀ depth, 2 * (Text.trim text.toList).length < depth →
        readValue d.style depth (Text.trim text.toList) =
          readValue d.style (2 * (Text.trim text.toList).length + 2) (Text.trim text.toList) := by
  refine ⟨fun v => readLiteral_eq_ok_iff, fun v w hv hw => ?_, fun depth hdepth => ?_⟩
  · rw [← readLiteral_eq_ok_iff] at hv hw
    exact Except.ok.inj (hv.symm.trans hw)
  · exact readValue_eq_of_lt _ _ hdepth (by omega)

/-- A list in a list, with blanks and with other digits than those that are written. Where
backslashes escape, the text in it does not end where it seems to. -/
theorem readLiteral_accepts_grammar_other_spelling :
    let text := " ( 'it''s\\', x'0aFF' ,(+1.5E-3\t, ( )) )\n"
    (∃ v, DerivesPadded .doubled text.toList v ∧
        sqlite.literal v = .ok "('it''s\\', X'0AFF', (0.0015, ()))" ∧
        ∀ w, DerivesPadded .doubled text.toList w → w = v) ∧
      ∀ w, ¬ DerivesPadded .backslash text.toList w := by
  intro text
  have hsqlite := readLiteral_accepts_grammar sqlite text
  have hmysql := readLiteral_accepts_grammar mysql text
  have hread : ((sqlite.readLiteral text).toOption.bind fun v => (sqlite.literal v).toOption) =
      some "('it''s\\', X'0AFF', (0.0015, ()))" := by decide +kernel
  have hrefused : (mysql.readLiteral text).toOption = none := by decide +kernel
  obtain ⟨v, hv, hliteral⟩ := Option.bind_eq_some_iff.mp hread
  have hderives : DerivesPadded .doubled text.toList v :=
    (hsqlite.1 v).mp (Outcome.toOption_eq_some.mp hv)
  refine ⟨⟨v, hderives, Outcome.toOption_eq_some.mp hliteral, fun w hw => ?_⟩, fun w hw => ?_⟩
  · exact hsqlite.2.1 w v hw hderives
  · rw [(hmysql.1 w).mpr hw] at hrefused
    cases hrefused

end Discography.Dialect
