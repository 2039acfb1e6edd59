import Discography.Proofs.Decimal.RoundTrip
import Discography.Proofs.Sql.Quoted
import Mathlib.Data.List.Chain

/-!
# Lexemes that are read back

Every lexeme is read back as its token when the text behind it cannot go on with it. In a separated
piece of SQL a word, a name or a literal is always followed by a space or by punctuation, which
ensures this for all lexemes at once.

## Main definitions

* `Sql.Separated`: pieces of SQL whose lexemes do not run into each other

## Main results

* `Lexer.lex_text`: the lexer reads the tokens of a separated piece of SQL
-/

namespace Discography

open Decimal

namespace Lexer

/-! ### Boundaries -/

/-- The characters that go on with no lexeme. -/
def isDelimiter (c : Char) : Bool := c ∈ [' ', '(', ')', ',', '*', '=', '<']

/-- The text is empty or begins with a character that satisfies `p`. -/
def Begins (p : Char → Bool) (text : List Char) : Prop := ∀ c ∈ text.head?, p c

theorem Begins.head?_ne {p : Char → Bool} {text : List Char} (h : Begins p text) {c : Char}
    (hc : p c = false) : text.head? ≠ some c := by
  intro heq
  have := h c heq
  rw [hc] at this
  exact Bool.noConfusion this

/-- A class of characters that has none of the delimiters. -/
theorem eq_false_of_isDelimiter {p : Char → Bool}
    (hp : [' ', '(', ')', ',', '*', '=', '<'].all (!p ·)) (c : Char) (hc : isDelimiter c) :
    p c = false := by
  have hmem : c ∈ [' ', '(', ')', ',', '*', '=', '<'] := of_decide_eq_true hc
  simpa using List.all_eq_true.1 hp c hmem

theorem isDigit_eq_false_of_isDelimiter : ∀ c, isDelimiter c → isDigit c = false :=
  eq_false_of_isDelimiter (by decide)

theorem isWordChar_eq_false_of_isDelimiter : ∀ c, isDelimiter c → isWordChar c = false :=
  eq_false_of_isDelimiter (by decide)

/-! ### Numbers -/

theorem splitExponent_of_begins {rest : List Char} (h : Begins isDelimiter rest) :
    splitExponent rest = ([], rest) := by
  cases rest with
  | nil => rfl
  | cons c rest =>
    have hlower : c ≠ 'e' := fun heq => h.head?_ne (c := 'e') rfl (by rw [heq]; rfl)
    have hupper : c ≠ 'E' := fun heq => h.head?_ne (c := 'E') rfl (by rw [heq]; rfl)
    simp [splitExponent, hlower, hupper]

theorem splitFraction_of_begins {rest : List Char} (h : Begins isDelimiter rest) :
    splitFraction rest = ([], rest) := by
  have hpoint : ∀ more, rest ≠ '.' :: more := by
    rintro more rfl
    exact h.head?_ne (c := '.') rfl rfl
  rw [splitFraction]
  · exact splitExponent_of_begins h
  · exact hpoint

variable {n : Numeral} {rest : List Char}

theorem Begins.not_isDigit (h : Begins isDelimiter rest) : ∀ c ∈ rest.head?, isDigit c = false :=
  fun c hc => isDigit_eq_false_of_isDelimiter c (h c hc)

/-- The exponent of a numeral is split from the text behind it. -/
theorem splitExponent_tail (h : Begins isDelimiter rest) :
    splitExponent (n.tail ++ rest) = (n.tail, rest) := by
  cases he : n.exponent with
  | none => simpa [Numeral.tail, he] using splitExponent_of_begins h
  | some e =>
    have hdigits := digits_writeNat e.natAbs
    by_cases hneg : e < 0
    · simp [Numeral.tail, he, writeInt, hneg, splitExponent, hdigits.takeWhile_append h.not_isDigit,
        hdigits.dropWhile_append h.not_isDigit]
    -- an exponent without a sign begins with a digit
    · obtain ⟨c, cs, hcs⟩ := List.exists_cons_of_ne_nil (writeNat_ne_nil e.natAbs)
      have hdigit : isDigit c := hdigits c (by simp [hcs])
      have hminus : c ≠ '-' := ne_of_isDigit hdigit rfl
      have hplus : c ≠ '+' := ne_of_isDigit hdigit rfl
      have htake := hdigits.takeWhile_append h.not_isDigit
      have hdrop := hdigits.dropWhile_append h.not_isDigit
      rw [hcs, List.cons_append] at htake hdrop
      simp only [Numeral.tail, he, Option.elim_some, writeInt, hneg, if_false, hcs,
        List.cons_append, splitExponent, hminus, hplus, htake, hdrop, decide_true, Bool.true_or,
        decide_false, Bool.or_false, Bool.false_eq_true, if_true]

/-- The point, places and exponent of a numeral are split from the text behind it. -/
theorem splitFraction_fractionAndTail (hn : n.Valid) (h : Begins isDelimiter rest) :
    splitFraction (n.fractionAndTail ++ rest) = (n.fractionAndTail, rest) := by
  -- what is behind the places begins with no digit: an exponent, or the text that follows
  have hstop : ∀ c ∈ (n.tail ++ rest).head?, isDigit c = false := by
    intro c hc
    cases htail : n.tail with
    | nil =>
      rw [htail] at hc
      exact h.not_isDigit c hc
    | cons d tail =>
      rw [htail] at hc
      exact Numeral.not_isDigit_of_mem_head?_tail (n := n) c (by rw [htail]; exact hc)
  by_cases hplaces : n.places = []
  -- without places there is no point, and none stands behind the numeral
  · have hpoint : ∀ more, n.tail ++ rest ≠ '.' :: more := by
      intro more heq
      have hdot := hstop '.' (by rw [heq]; rfl)
      cases he : n.exponent with
      | none =>
        rw [Numeral.tail, he] at heq
        exact h.head?_ne (c := '.') rfl (by rw [show rest = '.' :: more from heq]; rfl)
      | some e => simp [Numeral.tail, he] at heq
    have htail : n.fractionAndTail = n.tail := by simp [Numeral.fractionAndTail, hplaces]
    rw [htail, splitFraction]
    · exact splitExponent_tail h
    · exact hpoint
  · have htail : n.fractionAndTail ++ rest = '.' :: (n.places ++ (n.tail ++ rest)) := by
      simp [Numeral.fractionAndTail, hplaces]
    rw [htail, splitFraction, hn.places_digits.takeWhile_append hstop,
      hn.places_digits.dropWhile_append hstop, splitExponent_tail h]
    simp [Numeral.fractionAndTail, hplaces]

theorem readNumber_writeNat (negative : Bool) (k : Nat) (h : Begins isDelimiter rest) :
    readNumber negative (writeNat k ++ rest) =
      some (.integer (if negative then -k else k), rest) := by
  have htake := (digits_writeNat k).takeWhile_append h.not_isDigit
  have hdrop := (digits_writeNat k).dropWhile_append h.not_isDigit
  simp [readNumber, htake, hdrop, splitFraction_of_begins h]

theorem isDigit_eq_false_of_mem_head?_append (h : Begins isDelimiter rest) :
    ∀ c ∈ (n.fractionAndTail ++ rest).head?, isDigit c = false := by
  intro c hc
  cases htail : n.fractionAndTail with
  | nil =>
    rw [htail] at hc
    exact h.not_isDigit c hc
  | cons d tail =>
    rw [htail] at hc
    exact Numeral.not_isDigit_of_mem_head?_fractionAndTail (n := n) c (by rw [htail]; exact hc)

theorem fractionAndTail_ne_nil (hn : n.IsReal) : n.fractionAndTail ≠ [] := by
  by_cases hplaces : n.places = []
  · obtain ⟨e, he⟩ := Option.isSome_iff_exists.1 (hn.resolve_left (by simp [hplaces]))
    simp [Numeral.fractionAndTail, hplaces, Numeral.tail, he]
  · simp [Numeral.fractionAndTail, hplaces]

/-- The literal of a real is read as a number that is no integer. -/
theorem readNumber_magnitude {x : Binary64} (hx : x.isFinite) (h : Begins isDelimiter rest) :
    readNumber x.negative ((magnitudeNumeral x).text ++ rest) = some (.real x, rest) := by
  have hn := valid_magnitudeNumeral hx
  have hstop := isDigit_eq_false_of_mem_head?_append (n := magnitudeNumeral x) h
  -- a point or an exponent tells the number from an integer
  have hfraction : (magnitudeNumeral x).fractionAndTail.isEmpty = false := by
    simp [fractionAndTail_ne_nil (isReal_magnitudeNumeral hx)]
  have hread : readReal (if x.negative then '-' :: (magnitudeNumeral x).text
      else (magnitudeNumeral x).text) = some x := by
    rw [← write_of_isFinite hx, readReal_write hx]
  have htext : (magnitudeNumeral x).text ++ rest =
      (magnitudeNumeral x).whole ++ ((magnitudeNumeral x).fractionAndTail ++ rest) := by
    rw [Numeral.text, List.append_assoc]
  rw [htext]
  simp only [readNumber, hn.whole_digits.takeWhile_append hstop,
    hn.whole_digits.dropWhile_append hstop, splitFraction_fractionAndTail hn h, hfraction,
    Bool.false_eq_true, if_false]
  exact congrArg (Option.map _) hread

/-! ### Tokens -/

/-- The text begins with the token `t`, behind which `rest` stands. -/
def Reads (style : TextStyle) (text : List Char) (t : Token) (rest : List Char) : Prop :=
  ∃ c more, text = c :: more ∧ c.isWhitespace = false ∧ readToken style c more = some (t, rest)

/-- A class of characters that has none of the blanks. -/
theorem isWhitespace_eq_false_of_mem {p : Char → Bool} {c : Char} (hc : p c)
    (hp : [' ', '\t', '\r', '\n'].all (!p ·)) : c.isWhitespace = false := by
  by_contra hblank
  simp only [Char.isWhitespace, Bool.not_eq_false, Bool.or_eq_true, decide_eq_true_eq] at hblank
  rcases hblank with ((rfl | rfl) | rfl) | rfl <;> simp [hc] at hp

theorem isWhitespace_eq_false_of_isDigit {c : Char} (hc : isDigit c) : c.isWhitespace = false :=
  isWhitespace_eq_false_of_mem hc (by decide)

/-- A text that begins with a digit begins with a number. -/
theorem reads_of_isDigit (style : TextStyle) {c : Char} {more : List Char} {t : Token}
    (hc : isDigit c) (h : readNumber false (c :: more) = some (t, rest)) :
    Reads style (c :: more) t rest := by
  refine ⟨c, more, rfl, isWhitespace_eq_false_of_isDigit hc, ?_⟩
  -- the lexer looks for names, texts, blobs and signs first
  have hmark : c ≠ Name.mark := ne_of_isDigit hc rfl
  have hquote : c ≠ '\'' := ne_of_isDigit hc rfl
  have hupper : c ≠ 'X' := ne_of_isDigit hc rfl
  have hlower : c ≠ 'x' := ne_of_isDigit hc rfl
  have hminus : c ≠ '-' := ne_of_isDigit hc rfl
  simp [readToken, hmark, hquote, hupper, hlower, hminus, hc, h]

theorem reads_of_minus (style : TextStyle) {text : List Char} {t : Token}
    (h : readNumber true text = some (t, rest)) : Reads style ('-' :: text) t rest :=
  ⟨'-', text, rfl, rfl, by simp [readToken, Name.mark, h]⟩

theorem reads_integer (style : TextStyle) (i : Int) (h : Begins isDelimiter rest) :
    Reads style (writeInt i ++ rest) (.integer i) rest := by
  have hread := fun negative => readNumber_writeNat negative i.natAbs h
  by_cases hneg : i < 0
  · have habs : -(i.natAbs : Int) = i := by omega
    have hnumber := hread true
    rw [if_pos rfl, habs] at hnumber
    rw [writeInt, if_pos hneg]
    exact reads_of_minus style hnumber
  · have habs : (i.natAbs : Int) = i := by omega
    have hnumber := hread false
    rw [if_neg Bool.false_ne_true, habs] at hnumber
    obtain ⟨c, cs, hcs⟩ := List.exists_cons_of_ne_nil (writeNat_ne_nil i.natAbs)
    have hdigit : isDigit c := digits_writeNat i.natAbs c (by simp [hcs])
    rw [writeInt, if_neg hneg]
    rw [hcs] at hnumber ⊢
    exact reads_of_isDigit style hdigit hnumber

theorem reads_real (style : TextStyle) {x : Binary64} (hx : x.isFinite)
    (h : Begins isDelimiter rest) :
    Reads style (Layout.literal.write x ++ rest) (.real x) rest := by
  have hnumber := readNumber_magnitude hx h
  rw [write_of_isFinite hx]
  cases hneg : x.negative with
  | true =>
    rw [hneg] at hnumber
    exact reads_of_minus style hnumber
  | false =>
    rw [hneg] at hnumber
    obtain ⟨c, cs, hc, hcs⟩ := Numeral.exists_text_eq_cons (valid_magnitudeNumeral hx)
    rw [if_neg Bool.false_ne_true]
    rw [hcs] at hnumber ⊢
    exact reads_of_isDigit style hc hnumber

theorem reads_name (style : TextStyle) (name : String) (h : rest.head? ≠ some '\x60') :
    Reads style (Name.encode name.toList ++ rest) (.name name) rest := by
  refine ⟨Name.mark, Name.double name.toList ++ Name.mark :: rest, by simp [Name.encode], rfl, ?_⟩
  have hread := readName_double name.toList h
  simp only [readToken, if_true, Name.mark, hread, Option.map_some, String.ofList_toList]

theorem reads_text (style : TextStyle) (s : String) (h : rest.head? ≠ some '\'') :
    Reads style ('\'' :: style.encode s.toList ++ ['\''] ++ rest) (.text s) rest := by
  refine ⟨'\'', style.encode s.toList ++ '\'' :: rest, by simp, rfl, ?_⟩
  simp [readToken, Name.mark, Literal.readText_encode style s.toList h, Except.toOption]

theorem reads_blob (style : TextStyle) (bytes : List UInt8) :
    Reads style ('X' :: '\'' :: Hex.upper bytes ++ ['\''] ++ rest) (.blob bytes) rest := by
  refine ⟨'X', '\'' :: (Hex.upper bytes ++ '\'' :: rest), by simp, rfl, ?_⟩
  have hread : readBlob (Hex.upper bytes ++ '\'' :: rest) = some (.blob bytes, rest) := by
    rw [readBlob, Hex.takeWhile_upper, Hex.dropWhile_upper]
    simp [Hex.decode_upper]
  simp [readToken, Name.mark, hread]

theorem reads_punctuation (style : TextStyle) {s : String}
    (h : s ∈ ["(", ")", ",", ".", "*", "=", "<>"]) :
    Reads style (s.toList ++ rest) (.punctuation s) rest := by
  simp only [List.mem_cons, List.not_mem_nil, or_false] at h
  rcases h with rfl | rfl | rfl | rfl | rfl | rfl | rfl <;> exact ⟨_, _, rfl, rfl, rfl⟩

theorem isUpper_ne {c d : Char} (hc : c.isUpper) (hd : d.isUpper = false) : c ≠ d := by
  rintro rfl
  rw [hc] at hd
  exact Bool.noConfusion hd

theorem isWordChar_of_isUpper {c : Char} (hc : c.isUpper) : isWordChar c := by
  have hword : isWordChar c = (c.isUpper || c.isLower || c.isDigit || decide (c = '_')) := rfl
  rw [hword, hc, Bool.true_or, Bool.true_or, Bool.true_or]

theorem isDigit_eq_false_of_isUpper {c : Char} (hc : c.isUpper) : isDigit c = false := by
  have hrange : c.val ≥ 'A'.val ∧ c.val ≤ 'Z'.val := of_decide_eq_true hc
  have hupper : 'A' ≤ c := hrange.1
  have hlarge : ¬ c ≤ '9' := fun hle =>
    absurd (Char.le_trans hupper hle) (by decide)
  simp [isDigit, hlarge]

theorem isWhitespace_eq_false_of_isUpper {c : Char} (hc : c.isUpper) : c.isWhitespace = false :=
  isWhitespace_eq_false_of_mem hc (by decide)

theorem reads_word (style : TextStyle) {w : List Char} (hne : w ≠ [])
    (hupper : w.all Char.isUpper) (h : Begins isDelimiter rest) :
    Reads style (w ++ rest) (.ofWord w) rest := by
  obtain ⟨c, cs, rfl⟩ := List.exists_cons_of_ne_nil hne
  have hw := List.all_eq_true.1 hupper
  have hc : c.isUpper := hw c (by simp)
  have hword : ∀ d ∈ c :: cs, isWordChar d := fun d hd => isWordChar_of_isUpper (hw d hd)
  -- the word ends where its letters do
  have hend : ∀ d ∈ rest.head?, isWordChar d = false := fun d hd =>
    isWordChar_eq_false_of_isDelimiter d (h d hd)
  have htake : (c :: (cs ++ rest)).takeWhile isWordChar = c :: cs :=
    Text.takeWhile_append hword hend
  have hdrop : (c :: (cs ++ rest)).dropWhile isWordChar = rest :=
    Text.dropWhile_append hword hend
  -- a single letter in front of an apostrophe would be the beginning of a blob
  have hblob : (cs ++ rest).head? ≠ some '\'' := by
    cases cs with
    | nil => exact h.head?_ne rfl
    | cons d cs => simpa using isUpper_ne (hw d (by simp)) rfl
  refine ⟨c, cs ++ rest, rfl, isWhitespace_eq_false_of_isUpper hc, ?_⟩
  have hmark : c ≠ Name.mark := isUpper_ne hc rfl
  have hquote : c ≠ '\'' := isUpper_ne hc rfl
  have hminus : c ≠ '-' := isUpper_ne hc rfl
  simp only [readToken, hmark, hquote, hblob, hminus, isDigit_eq_false_of_isUpper hc,
    hword c (by simp), htake, hdrop, decide_false, Bool.and_false, Bool.false_eq_true, if_false,
    if_true]

end Lexer

/-! ### Separated lexemes -/

namespace Lexeme

/-- The lexeme has a written form that can be read: keywords are in capital letters, and numbers are
finite. -/
def Readable (style : TextStyle) : Lexeme → Prop
  | word w => w.toList ≠ [] ∧ w.toList.all Char.isUpper
  | symbol s => s ∈ ["(", ")", ",", ".", "*", "=", "<>"]
  | real x => x.isFinite
  | text style' _ => style' = style
  | _ => True

/-- The characters that may stand behind a lexeme. -/
def endsAt : Lexeme → Char → Bool
  | space, _ => true
  | symbol _, _ => true
  | name _, c => Lexer.isDelimiter c || c = '.'
  | _, c => Lexer.isDelimiter c

/-- The lexeme may stand behind any other one. -/
def delimits : Lexeme → Bool
  | space => true
  | symbol s => s != "."
  | _ => false

/-- What may stand behind a lexeme: anything behind space and punctuation, a point behind a name,
and only space and punctuation otherwise. -/
def MayPrecede : Lexeme → Lexeme → Prop
  | space, _ => True
  | symbol _, _ => True
  | name _, m => m.delimits ∨ m = symbol "."
  | _, m => m.delimits

theorem mayPrecede_of_delimits {l m : Lexeme} (h : m.delimits) : l.MayPrecede m := by
  cases l <;> simp [MayPrecede, h]

variable {style : TextStyle} {l m : Lexeme} {rest : List Char}

/-- The written form of a delimiting lexeme begins with a delimiter. -/
theorem begins_chars (hm : m.Readable style) (hd : m.delimits) :
    Lexer.Begins Lexer.isDelimiter (m.chars ++ rest) := by
  cases m with
  | space => rintro c ⟨⟩; rfl
  | symbol s =>
    simp only [Readable, List.mem_cons, List.not_mem_nil, or_false] at hm
    rcases hm with rfl | rfl | rfl | rfl | rfl | rfl | rfl
    -- a point delimits nothing, as it stands between names
    all_goals first
      | exact absurd hd (by decide)
      | rintro c ⟨⟩; rfl
  | _ => exact absurd hd (by simp [delimits])

/-- What may stand behind a lexeme begins with a character that may. -/
theorem begins_of_mayPrecede (hm : m.Readable style) (h : l.MayPrecede m) :
    Lexer.Begins l.endsAt (m.chars ++ rest) := by
  intro c hc
  cases l with
  | space => rfl
  | symbol s => rfl
  | name n =>
    rcases h with h | rfl
    · simp [endsAt, begins_chars hm h c hc]
    · obtain rfl : '.' = c := by simpa [chars] using hc
      rfl
  | _ => exact begins_chars hm h c hc

theorem chars_ne_nil (hl : l.Readable style) : l.chars ≠ [] := by
  cases l with
  | word w => exact hl.1
  | symbol s =>
    simp only [Readable, List.mem_cons, List.not_mem_nil, or_false] at hl
    rcases hl with rfl | rfl | rfl | rfl | rfl | rfl | rfl <;> simp [chars]
  | integer i =>
    rw [chars, writeInt]
    split <;> simp [writeNat_ne_nil]
  | real x =>
    obtain ⟨c, cs, -, hcs⟩ := Numeral.exists_text_eq_cons (valid_magnitudeNumeral hl)
    rw [chars, write_of_isFinite hl]
    split <;> simp [hcs]
  | _ => simp [chars, Name.encode]

/-- A lexeme is read as its token if what stands behind it may. -/
theorem reads_chars {t : Token} (hl : l.Readable style) (ht : l.token? = some t)
    (h : Lexer.Begins l.endsAt rest) : Lexer.Reads style (l.chars ++ rest) t rest := by
  cases l with
  | space => exact absurd ht (by simp [token?])
  | symbol s =>
    obtain rfl := Option.some.inj ht
    exact Lexer.reads_punctuation style hl
  | name n =>
    obtain rfl := Option.some.inj ht
    exact Lexer.reads_name style n (h.head?_ne rfl)
  | word w =>
    obtain rfl := Option.some.inj ht
    exact Lexer.reads_word style hl.1 hl.2 h
  | integer i =>
    obtain rfl := Option.some.inj ht
    exact Lexer.reads_integer style i h
  | real x =>
    obtain rfl := Option.some.inj ht
    exact Lexer.reads_real style hl h
  | text style' s =>
    obtain rfl := Option.some.inj ht
    obtain rfl : style' = style := hl
    exact Lexer.reads_text style' s (h.head?_ne rfl)
  | blob bytes =>
    obtain rfl := Option.some.inj ht
    exact Lexer.reads_blob style bytes

end Lexeme

namespace Sql

/-- The lexemes of a piece of SQL can be read and do not run into each other. -/
structure Separated (style : TextStyle) (sql : Sql) : Prop where
  readable : ∀ l ∈ sql, l.Readable style
  chain : List.IsChain Lexeme.MayPrecede sql

end Sql

namespace Lexer

variable {style : TextStyle} {sql : Sql}

/-- The lexer reads the tokens of a separated piece of SQL, one lexeme after the other. -/
theorem lexFrom_chars (h : sql.Separated style) {count : Nat} (hcount : sql.chars.length ≤ count) :
    lexFrom style count sql.chars = some sql.tokens := by
  induction sql generalizing count with
  | nil => cases count <;> rfl
  | cons l sql ih =>
    have hl : l.Readable style := h.readable l (by simp)
    have hsql : Sql.Separated style sql :=
      ⟨fun m hm => h.readable m (List.mem_cons_of_mem _ hm), h.chain.tail⟩
    have hbegins : Begins l.endsAt (Sql.chars sql) := by
      cases sql with
      | nil => rintro c ⟨⟩
      | cons m sql =>
        exact Lexeme.begins_of_mayPrecede (hsql.readable m (by simp))
          (List.isChain_cons_cons.1 h.chain).1
    -- the lexeme takes a character, so what is left fits into the rest of the count
    have hpos : 0 < l.chars.length := List.length_pos_iff.2 (Lexeme.chars_ne_nil hl)
    rw [Sql.chars_cons] at hcount ⊢
    rw [List.length_append] at hcount
    obtain ⟨count, rfl⟩ : ∃ k, count = k + 1 := Nat.exists_eq_add_one.2 (by omega)
    have hrest := @ih hsql count (by omega)
    -- only space has no token, and the lexer skips it
    cases ht : l.token? with
    | none =>
      obtain rfl : l = .space := by cases l <;> simp_all [Lexeme.token?]
      simpa [Lexeme.chars, lexFrom, Lexeme.token?] using hrest
    | some t =>
      obtain ⟨c, more, htext, hblank, hread⟩ := Lexeme.reads_chars hl ht hbegins
      rw [htext, lexFrom, if_neg (by simp [hblank]), hread]
      simp [hrest, ht]

/-- The lexer reads the tokens of a separated piece of SQL. -/
theorem lex_text (h : sql.Separated style) : lex style sql.text = some sql.tokens := by
  rw [lex, Sql.text, String.toList_ofList]
  exact lexFrom_chars h (Nat.le_refl _)

end Lexer

end Discography
