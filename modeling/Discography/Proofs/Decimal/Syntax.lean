import Discography.Decimal.Integer
import Discography.Proofs.Decimal.Numeral
import Discography.Proofs.Outcome

/-!
# The syntax of numerals

Which texts are numerals of integers and of reals, and of which number, apart from how they are
read. An integer has digits behind a sign that may be missing. A real has digits too, with a point
in front, between or behind, and an exponent that may be missing; the infinities and the non-number
have names. The readers accept these texts and no others.

## Main definitions

* `Decimal.IntegerNumeral`: numerals of integers
* `Decimal.DecimalNumeral`: digits with a point and an exponent
* `Decimal.RealNumeral`: numerals of reals

## Main results

* `Decimal.readInt64_eq_ok_iff`: reading integers
* `Decimal.integerNumeral_writeInt`: writing integers
* `Decimal.readReal_eq_some_iff`: reading reals
-/

namespace Discography.Decimal

/-! ### Signs -/

/-- A sign that may be missing, and whether it is a minus. -/
inductive Sign : List Char → Bool → Prop
  | missing : Sign [] false
  | plus : Sign ['+'] false
  | minus : Sign ['-'] true

/-- The integer with that sign and magnitude. -/
def signed (negative : Bool) (n : Nat) : Int := if negative then -n else n

/-- What the sign of a text says, and what is behind it. -/
def afterSign : List Char → Bool × List Char
  | '-' :: rest => (true, rest)
  | '+' :: rest => (false, rest)
  | text => (false, text)

theorem exists_sign (text : List Char) :
    ∃ sign, Sign sign (afterSign text).1 ∧ text = sign ++ (afterSign text).2 := by
  unfold afterSign
  split
  · exact ⟨_, .minus, rfl⟩
  · exact ⟨_, .plus, rfl⟩
  · exact ⟨_, .missing, rfl⟩

/-- A text that does not begin with a sign. -/
def Unsigned (text : List Char) : Prop := ∀ c ∈ text.head?, c ≠ '-' ∧ c ≠ '+'

theorem afterSign_of_ne {text : List Char} (hminus : ∀ rest, text ≠ '-' :: rest)
    (hplus : ∀ rest, text ≠ '+' :: rest) : afterSign text = (false, text) := by
  unfold afterSign
  split
  · exact absurd rfl (hminus _)
  · exact absurd rfl (hplus _)
  · rfl

theorem Sign.afterSign_append {sign text : List Char} {negative : Bool} (h : Sign sign negative)
    (htext : Unsigned text) : afterSign (sign ++ text) = (negative, text) := by
  cases h with
  | plus | minus => rfl
  | missing =>
    refine afterSign_of_ne ?_ ?_
    · rintro rest rfl
      exact (htext '-' rfl).1 rfl
    · rintro rest rfl
      exact (htext '+' rfl).2 rfl

theorem Digits.unsigned {digits : List Char} (h : Digits digits) : Unsigned digits := fun c hc =>
  have hdigit := h c (List.mem_of_mem_head? hc)
  ⟨ne_of_isDigit hdigit rfl, ne_of_isDigit hdigit rfl⟩

/-! ### Integers -/

/-- Digits behind a sign that may be missing. -/
inductive IntegerNumeral : List Char → Int → Prop
  | mk {sign digits : List Char} {negative : Bool} (hsign : Sign sign negative)
    (ne_nil : digits ≠ []) (hdigits : Digits digits) :
    IntegerNumeral (sign ++ digits) (signed negative (Nat.ofDigitChars 10 digits 0))

theorem le_digitsValue (total : Nat) (digits : List Char) : total ≤ digitsValue total digits := by
  induction digits generalizing total with
  | nil => exact Nat.le_refl total
  | cons c digits ih =>
    calc total ≤ 10 * total + (c.toNat - 48) := by omega
      _ ≤ digitsValue (10 * total + (c.toNat - 48)) digits := ih _

theorem digitValue?_of_isDigit {c : Char} (hc : isDigit c) :
    digitValue? c = some (c.toNat - 48) := if_pos hc

/-- Digits are read as their value if the bound admits it. -/
theorem readDigits_digits {bound : Nat} (overflow : IntegerError) {digits : List Char}
    (hdigits : Digits digits) {total : Nat} (hbound : digitsValue total digits ≤ bound) :
    readDigits bound overflow total digits = .ok (digitsValue total digits) := by
  induction digits generalizing total with
  | nil => rfl
  | cons c digits ih =>
    have hvalue : digitsValue total (c :: digits) =
        digitsValue (10 * total + (c.toNat - 48)) digits := rfl
    -- no total on the way exceeds the last one
    have hle : 10 * total + (c.toNat - 48) ≤ bound := by
      rw [hvalue] at hbound
      exact (le_digitsValue _ digits).trans hbound
    rw [hvalue] at hbound ⊢
    simp only [readDigits, digitValue?_of_isDigit (hdigits c List.mem_cons_self), if_pos hle]
    exact ih (fun d hd => hdigits d (List.mem_cons_of_mem c hd)) hbound

theorem isDigit_of_digitValue? {c : Char} {n : Nat} (h : digitValue? c = some n) :
    isDigit c ∧ n = c.toNat - 48 := by
  rw [digitValue?] at h
  split at h
  · exact ⟨‹_›, (Option.some.inj h).symm⟩
  · cases h

theorem readDigits_eq_ok_iff {bound : Nat} {overflow : IntegerError} {digits : List Char}
    {total n : Nat} (htotal : total ≤ bound) :
    readDigits bound overflow total digits = .ok n ↔
      Digits digits ∧ digitsValue total digits = n ∧ n ≤ bound := by
  constructor
  · intro h
    induction digits generalizing total with
    | nil =>
      obtain rfl := Except.ok.inj h
      exact ⟨nofun, rfl, htotal⟩
    | cons c digits ih =>
      rw [readDigits] at h
      split at h
      · cases h
      · rename_i d hd
        split at h
        · rename_i hle
          obtain ⟨hdigit, rfl⟩ := isDigit_of_digitValue? hd
          obtain ⟨hdigits, hvalue, hbound⟩ := ih hle h
          exact ⟨List.forall_mem_cons.mpr ⟨hdigit, hdigits⟩, hvalue, hbound⟩
        · cases h
  · rintro ⟨hdigits, rfl, hbound⟩
    exact readDigits_digits overflow hdigits hbound

theorem readMagnitude_eq_ok_iff {bound : Nat} {overflow : IntegerError} {digits : List Char}
    {n : Nat} : readMagnitude bound overflow digits = .ok n ↔
      digits ≠ [] ∧ Digits digits ∧ Nat.ofDigitChars 10 digits 0 = n ∧ n ≤ bound := by
  rw [readMagnitude, ← digitsValue_eq_ofDigitChars]
  cases digits with
  | nil => simp
  | cons c digits => simp [readDigits_eq_ok_iff (Nat.zero_le bound)]

/-- The largest magnitude of an integer with that sign, and the error beyond it. -/
def magnitudeBound (negative : Bool) : Nat × IntegerError :=
  if negative then (Nat.pow 2 63, .tooSmall) else (Nat.pow 2 63 - 1, .tooLarge)

theorem readInt64_eq {text : List Char} (hne : text ≠ []) :
    readInt64 text = (readMagnitude (magnitudeBound (afterSign text).1).1
      (magnitudeBound (afterSign text).1).2 (afterSign text).2).map
        fun n => Int64.ofInt (signed (afterSign text).1 n) := by
  unfold readInt64
  split
  · exact absurd rfl hne
  · rfl
  · rfl
  · rename_i hminus hplus
    rw [afterSign_of_ne hminus hplus]
    rfl

/-- A magnitude is in bounds if the integer with that sign has 64 bits. -/
theorem le_magnitudeBound_iff {negative : Bool} {n : Nat} :
    n ≤ (magnitudeBound negative).1 ↔ -2 ^ 63 ≤ signed negative n ∧ signed negative n < 2 ^ 63 := by
  cases negative <;>
    simp only [magnitudeBound, signed, Nat.pow_eq, if_true, if_false, Bool.false_eq_true] <;> omega

/-- The texts that are read as an integer are its numerals. -/
theorem readInt64_eq_ok_iff {text : List Char} {i : Int64} :
    readInt64 text = .ok i ↔ IntegerNumeral text i.toInt := by
  constructor
  · intro h
    have hne : text ≠ [] := by
      rintro rfl
      cases h
    rw [readInt64_eq hne, Outcome.map_eq_ok] at h
    obtain ⟨n, hread, rfl⟩ := h
    obtain ⟨hdigitsNe, hdigits, rfl, hbound⟩ := readMagnitude_eq_ok_iff.mp hread
    obtain ⟨hlow, hhigh⟩ := le_magnitudeBound_iff.mp hbound
    rw [Int64.toInt_ofInt_of_le hlow hhigh]
    obtain ⟨sign, hsign, htext⟩ := exists_sign text
    rw [htext, hsign.afterSign_append hdigits.unsigned]
    exact .mk hsign hdigitsNe hdigits
  · intro h
    generalize hvalue : i.toInt = value at h
    obtain @⟨sign, digits, negative, hsign, hdigitsNe, hdigits⟩ := h
    have hbound : Nat.ofDigitChars 10 digits 0 ≤ (magnitudeBound negative).1 :=
      le_magnitudeBound_iff.mpr (hvalue ▸ ⟨i.le_toInt, i.toInt_lt⟩)
    rw [readInt64_eq (by simp [hdigitsNe]), hsign.afterSign_append hdigits.unsigned,
      readMagnitude_eq_ok_iff.mpr ⟨hdigitsNe, hdigits, rfl, hbound⟩, Except.map, ← hvalue,
      Int64.ofInt_toInt]

/-- An integer is written as a numeral of it. -/
theorem integerNumeral_writeInt (i : Int) : IntegerNumeral (writeInt i) i := by
  have hnumeral : ∀ {sign : List Char} {negative : Bool}, Sign sign negative →
      IntegerNumeral (sign ++ writeNat i.natAbs) (signed negative i.natAbs) := by
    intro sign negative hsign
    have hmk := IntegerNumeral.mk hsign (writeNat_ne_nil i.natAbs) (digits_writeNat i.natAbs)
    rwa [← digitsValue_eq_ofDigitChars, digitsValue_writeNat] at hmk
  rw [writeInt]
  split
  · have hvalue : signed true i.natAbs = i := by
      simp only [signed, if_true]
      omega
    have hminus := hnumeral .minus
    rwa [hvalue] at hminus
  · have hvalue : signed false i.natAbs = i := by
      simp only [signed, if_false, Bool.false_eq_true]
      omega
    have hmissing := hnumeral .missing
    rwa [hvalue] at hmissing

/-! ### Reals -/

/-- The text behind the digits of a real: nothing, or an exponent behind its letter. -/
inductive ExponentPart : List Char → Int → Prop
  | missing : ExponentPart [] 0
  | given {mark : Char} {numeral : List Char} {e : Int} (hmark : mark = 'e' ∨ mark = 'E')
    (h : IntegerNumeral numeral e) : ExponentPart (mark :: numeral) e

/-- Digits, among which there may be a point, and an exponent: so many units of that power of
ten. -/
inductive DecimalNumeral : List Char → Nat → Int → Prop
  | whole {digits tail : List Char} {e : Int} (ne_nil : digits ≠ []) (hdigits : Digits digits)
    (htail : ExponentPart tail e) :
    DecimalNumeral (digits ++ tail) (Nat.ofDigitChars 10 digits 0) e
  | point {whole places tail : List Char} {e : Int} (ne_nil : whole ≠ [] ∨ places ≠ [])
    (hwhole : Digits whole) (hplaces : Digits places) (htail : ExponentPart tail e) :
    DecimalNumeral (whole ++ '.' :: places ++ tail) (Nat.ofDigitChars 10 (whole ++ places) 0)
      (e - places.length)

/-- A real without sign, and the word of its magnitude. -/
inductive MagnitudeNumeral : List Char → Nat → Prop
  | decimal {text : List Char} {n : Nat} {e : Int} (h : DecimalNumeral text n e) :
    MagnitudeNumeral text (Binary64.wordOfDecimal n e)
  | infinity {text : List Char} (h : text.map Char.toLower = "inf".toList ∨
      text.map Char.toLower = "infinity".toList) : MagnitudeNumeral text Binary64.infinityWord
  | nan {text : List Char} (h : text.map Char.toLower = "nan".toList) :
    MagnitudeNumeral text (Binary64.infinityWord + Nat.pow 2 51)

/-- A real behind a sign that may be missing. -/
inductive RealNumeral : List Char → Binary64 → Prop
  | mk {sign text : List Char} {negative : Bool} {word : Nat} (hsign : Sign sign negative)
    (h : MagnitudeNumeral text word) : RealNumeral (sign ++ text) (.ofWord negative word)

theorem readNatural?_eq_some_iff {text : List Char} {n : Nat} : readNatural? text = some n ↔
    text ≠ [] ∧ Digits text ∧ Nat.ofDigitChars 10 text 0 = n := by
  rw [readNatural?, ← digitsValue_eq_ofDigitChars]
  simp [Digits, and_assoc]

theorem readExponent?_cons (mark : Char) (text : List Char) :
    readExponent? (mark :: text) = if mark = 'e' || mark = 'E' then
      (readNatural? (afterSign text).2).map (signed (afterSign text).1) else none := by
  unfold readExponent?
  refine if_congr Iff.rfl ?_ rfl
  split
  · rename_i digits
    change _ = (readNatural? digits).map (signed true)
    cases readNatural? digits <;> rfl
  · rename_i digits
    change _ = (readNatural? digits).map (signed false)
    cases readNatural? digits <;> rfl
  · rename_i hminus hplus
    rw [afterSign_of_ne hminus hplus]
    cases readNatural? text <;> rfl

theorem readExponent?_eq_some_iff {text : List Char} {e : Int} :
    readExponent? text = some e ↔ ExponentPart text e := by
  constructor
  · intro h
    cases text with
    | nil =>
      obtain rfl := Option.some.inj h
      exact .missing
    | cons mark text =>
      rw [readExponent?_cons] at h
      split at h
      · rename_i hmark
        obtain ⟨n, hread, rfl⟩ := Option.map_eq_some_iff.mp h
        obtain ⟨hne, hdigits, rfl⟩ := readNatural?_eq_some_iff.mp hread
        obtain ⟨sign, hsign, htext⟩ := exists_sign text
        have hnumeral := IntegerNumeral.mk hsign hne hdigits
        rw [← htext] at hnumeral
        exact .given (by simpa using hmark) hnumeral
      · cases h
  · rintro (_ | ⟨hmark, @⟨sign, digits, negative, hsign, hne, hdigits⟩⟩)
    · rfl
    · rw [readExponent?_cons, if_pos (by simpa using hmark),
        hsign.afterSign_append hdigits.unsigned,
        readNatural?_eq_some_iff.mpr ⟨hne, hdigits, rfl⟩, Option.map_some]

/-- Behind the digits of a real there is neither a further digit nor a point. -/
theorem ExponentPart.head? {tail : List Char} {e : Int} (h : ExponentPart tail e) :
    ∀ c ∈ tail.head?, isDigit c = false ∧ c ≠ '.' := by
  rcases h with _ | ⟨rfl | rfl, -⟩ <;> simp [isDigit]

/-- The digits behind a point, and what is behind them; without a point there are none. -/
def afterPoint : List Char → List Char × List Char
  | '.' :: more => (more.takeWhile isDigit, more.dropWhile isDigit)
  | rest => ([], rest)

theorem afterPoint_of_ne {rest : List Char} (h : ∀ c ∈ rest.head?, c ≠ '.') :
    afterPoint rest = ([], rest) := by
  unfold afterPoint
  split
  · exact absurd rfl (h '.' rfl)
  · rfl

theorem readDecimal?_eq (text : List Char) :
    readDecimal? text =
      if (text.takeWhile isDigit).isEmpty && (afterPoint (text.dropWhile isDigit)).1.isEmpty then
        none
      else (readExponent? (afterPoint (text.dropWhile isDigit)).2).map fun e =>
        Binary64.wordOfDecimal (Nat.ofDigitChars 10
          (text.takeWhile isDigit ++ (afterPoint (text.dropWhile isDigit)).1) 0)
          (e - (afterPoint (text.dropWhile isDigit)).1.length) := by
  simp only [← wordOfNumeral_eq, ← digitsValue_eq_ofDigitChars]
  rfl

theorem digits_takeWhile (text : List Char) : Digits (text.takeWhile isDigit) :=
  List.all_eq_true.mp List.all_takeWhile

theorem decimalNumeral_of_readDecimal? {text : List Char} {word : Nat}
    (h : readDecimal? text = some word) :
    ∃ n e, DecimalNumeral text n e ∧ Binary64.wordOfDecimal n e = word := by
  rw [readDecimal?_eq] at h
  split at h
  · cases h
  rename_i hsome
  obtain ⟨e, htail, rfl⟩ := Option.map_eq_some_iff.mp h
  refine ⟨_, _, ?_, rfl⟩
  rw [readExponent?_eq_some_iff] at htail
  have hwhole := digits_takeWhile text
  have htext : text.takeWhile isDigit ++ text.dropWhile isDigit = text :=
    List.takeWhile_append_dropWhile
  by_cases hpoint : ∃ more, text.dropWhile isDigit = '.' :: more
  · obtain ⟨more, hrest⟩ := hpoint
    have hmore : more.takeWhile isDigit ++ more.dropWhile isDigit = more :=
      List.takeWhile_append_dropWhile
    rw [hrest] at htail hsome htext ⊢
    have hne : text.takeWhile isDigit ≠ [] ∨ more.takeWhile isDigit ≠ [] := by
      simpa [afterPoint, imp_iff_not_or] using hsome
    have hnumeral := DecimalNumeral.point hne hwhole (digits_takeWhile more) htail
    rwa [List.append_assoc, List.cons_append, afterPoint, hmore, htext] at hnumeral
  · have hafter : afterPoint (text.dropWhile isDigit) = ([], text.dropWhile isDigit) := by
      refine afterPoint_of_ne fun c hc hpt => ?_
      obtain ⟨more, hmore⟩ := List.head?_eq_some_iff.mp hc
      exact hpoint ⟨more, hpt ▸ hmore⟩
    rw [hafter] at htail hsome ⊢
    have hnumeral := DecimalNumeral.whole (by simpa using hsome) hwhole htail
    rw [htext] at hnumeral
    simpa using hnumeral

theorem DecimalNumeral.readDecimal? {text : List Char} {n : Nat} {e : Int}
    (h : DecimalNumeral text n e) :
    Decimal.readDecimal? text = some (Binary64.wordOfDecimal n e) := by
  rw [readDecimal?_eq]
  cases h with
  | @whole digits tail e ne_nil hdigits htail =>
    have hboundary : ∀ c ∈ tail.head?, isDigit c = false := fun c hc => (htail.head? c hc).1
    rw [hdigits.takeWhile_append hboundary, hdigits.dropWhile_append hboundary,
      afterPoint_of_ne fun c hc => (htail.head? c hc).2, readExponent?_eq_some_iff.mpr htail]
    simp [ne_nil]
  | @point whole places tail e ne_nil hwhole hplaces htail =>
    have hboundary : ∀ c ∈ tail.head?, isDigit c = false := fun c hc => (htail.head? c hc).1
    have hpoint : ∀ c ∈ ('.' :: places ++ tail).head?, isDigit c = false := by simp [isDigit]
    have hafter : afterPoint ('.' :: places ++ tail) = (places, tail) := by
      rw [List.cons_append, afterPoint, hplaces.takeWhile_append hboundary,
        hplaces.dropWhile_append hboundary]
    rw [List.append_assoc, hwhole.takeWhile_append hpoint, hwhole.dropWhile_append hpoint, hafter,
      readExponent?_eq_some_iff.mpr htail]
    have hsome : ¬ (whole.isEmpty && places.isEmpty) = true := by
      simpa [imp_iff_not_or] using ne_nil
    rw [if_neg hsome, Option.map_some]

/-- A real begins with a digit or a point, unless it begins with a sign or a name. -/
theorem DecimalNumeral.head? {text : List Char} {n : Nat} {e : Int} (h : DecimalNumeral text n e) :
    ∀ c ∈ text.head?, isDigit c ∨ c = '.' := by
  intro c hc
  rcases h with @⟨digits, tail, e, hne, hdigits, -⟩ | @⟨whole, places, tail, e, -, hwhole, -, -⟩
  · obtain ⟨d, digits, rfl⟩ := List.exists_cons_of_ne_nil hne
    obtain rfl : d = c := by simpa using hc
    exact .inl (hdigits d List.mem_cons_self)
  · cases whole with
    | nil => exact .inr (by simpa [eq_comm] using hc)
    | cons d whole =>
      obtain rfl : d = c := by simpa using hc
      exact .inl (hwhole d List.mem_cons_self)

theorem toLower_of_isDigit {c : Char} (h : isDigit c) : c.toLower = c := by
  have hrange : '0' ≤ c ∧ c ≤ '9' := by simpa [isDigit] using h
  have hhigh : c.toNat ≤ 57 := hrange.2
  refine dif_neg fun hupper => ?_
  have hlow : 65 ≤ c.toNat := hupper.1
  omega

/-- Digits and points stay what they are in lower case, and no name begins with one. -/
theorem DecimalNumeral.toLower_ne {text : List Char} {n : Nat} {e : Int}
    (h : DecimalNumeral text n e) {first : Char} {name : List Char}
    (hfirst : isDigit first = false ∧ first ≠ '.') : text.map Char.toLower ≠ first :: name := by
  intro heq
  cases text with
  | nil => cases heq
  | cons c text =>
    rw [List.map_cons] at heq
    obtain ⟨rfl, -⟩ := List.cons_eq_cons.mp heq
    rcases h.head? c rfl with hdigit | rfl
    · rw [toLower_of_isDigit hdigit, hdigit] at hfirst
      cases hfirst.1
    · exact hfirst.2 rfl

theorem ofList_eq_iff {text : List Char} {name : String} :
    String.ofList text = name ↔ text = name.toList := by
  constructor
  · rintro rfl
    rw [String.toList_ofList]
  · rintro rfl
    rw [String.ofList_toList]

theorem readUnsigned?_eq_some_iff {text : List Char} {word : Nat} :
    readUnsigned? text = some word ↔ MagnitudeNumeral text word := by
  simp only [readUnsigned?, Bool.or_eq_true, decide_eq_true_eq, ofList_eq_iff]
  constructor
  · intro h
    split at h
    · obtain rfl := Option.some.inj h
      exact .infinity ‹_›
    split at h
    · obtain rfl := Option.some.inj h
      exact .nan ‹_›
    · obtain ⟨n, e, hnumeral, rfl⟩ := decimalNumeral_of_readDecimal? h
      exact .decimal hnumeral
  · rintro (hnumeral | hname | hname)
    · have hinf : ¬ (text.map Char.toLower = "inf".toList ∨
          text.map Char.toLower = "infinity".toList) :=
        not_or.mpr ⟨hnumeral.toLower_ne (by decide), hnumeral.toLower_ne (by decide)⟩
      have hnan : ¬ text.map Char.toLower = "nan".toList := hnumeral.toLower_ne (by decide)
      rw [if_neg hinf, if_neg hnan, hnumeral.readDecimal?]
    · rw [if_pos hname]
    · rw [if_neg (by simp [hname]), if_pos hname]

theorem MagnitudeNumeral.unsigned {text : List Char} {word : Nat} (h : MagnitudeNumeral text word) :
    Unsigned text := by
  have hletter : ∀ {first : Char} {name : List Char}, text.map Char.toLower = first :: name →
      first ≠ '-' ∧ first ≠ '+' → Unsigned text := by
    intro first name hname hfirst
    obtain ⟨c, text, rfl, rfl, -⟩ := List.map_eq_cons_iff.mp hname
    rintro _ ⟨⟩
    refine ⟨?_, ?_⟩ <;> rintro rfl
    · exact hfirst.1 (by decide)
    · exact hfirst.2 (by decide)
  rcases h with hnumeral | (hname | hname) | hname
  · intro c hc
    rcases hnumeral.head? c hc with hdigit | rfl
    · exact ⟨ne_of_isDigit hdigit rfl, ne_of_isDigit hdigit rfl⟩
    · decide
  · exact hletter hname (by decide)
  · exact hletter hname (by decide)
  · exact hletter hname (by decide)

theorem readReal_eq (text : List Char) : readReal text =
    (readUnsigned? (afterSign text).2).map (.ofWord (afterSign text).1) := by
  unfold readReal
  split
  · rfl
  · rfl
  · rename_i hminus hplus
    rw [afterSign_of_ne hminus hplus]

/-- The texts that are read as a real are its numerals. -/
theorem readReal_eq_some_iff {text : List Char} {x : Binary64} :
    readReal text = some x ↔ RealNumeral text x := by
  rw [readReal_eq]
  constructor
  · intro h
    obtain ⟨word, hword, rfl⟩ := Option.map_eq_some_iff.mp h
    obtain ⟨sign, hsign, htext⟩ := exists_sign text
    have hnumeral := RealNumeral.mk hsign (readUnsigned?_eq_some_iff.mp hword)
    rwa [← htext] at hnumeral
  · rintro @⟨sign, text, negative, word, hsign, hnumeral⟩
    rw [hsign.afterSign_append hnumeral.unsigned, readUnsigned?_eq_some_iff.mpr hnumeral,
      Option.map_some]

/-! ### Characters -/

/-- The characters of numerals that have no name. -/
def IsNumeralChar (c : Char) : Prop := isDigit c ∨ c ∈ ['+', '-', '.', 'e', 'E']

theorem Sign.isNumeralChar {sign : List Char} {negative : Bool} (h : Sign sign negative) :
    ∀ c ∈ sign, IsNumeralChar c := by
  cases h <;> simp [IsNumeralChar]

theorem Digits.isNumeralChar {digits : List Char} (h : Digits digits) :
    ∀ c ∈ digits, IsNumeralChar c := fun c hc => .inl (h c hc)

theorem IntegerNumeral.ne_nil {text : List Char} {i : Int} (h : IntegerNumeral text i) :
    text ≠ [] := by
  obtain @⟨sign, digits, negative, -, hne, -⟩ := h
  simp [hne]

theorem IntegerNumeral.isNumeralChar {text : List Char} {i : Int} (h : IntegerNumeral text i) :
    ∀ c ∈ text, IsNumeralChar c := by
  obtain @⟨sign, digits, negative, hsign, -, hdigits⟩ := h
  exact List.forall_mem_append.mpr ⟨hsign.isNumeralChar, hdigits.isNumeralChar⟩

/-- The characters that integers do not have. -/
def isRealMark (c : Char) : Bool := c == '.' || c == 'e' || c == 'E'

theorem IntegerNumeral.any_isRealMark {text : List Char} {i : Int} (h : IntegerNumeral text i) :
    text.any isRealMark = false := by
  obtain @⟨sign, digits, negative, hsign, -, hdigits⟩ := h
  have hmark : digits.any isRealMark = false := by
    refine List.any_eq_false.mpr fun c hc => ?_
    have hdigit := hdigits c hc
    simp [isRealMark, ne_of_isDigit hdigit (d := '.') rfl, ne_of_isDigit hdigit (d := 'e') rfl,
      ne_of_isDigit hdigit (d := 'E') rfl]
  rw [List.any_append, hmark, Bool.or_false]
  cases hsign <;> rfl

theorem ExponentPart.isNumeralChar {tail : List Char} {e : Int} (h : ExponentPart tail e) :
    ∀ c ∈ tail, IsNumeralChar c := by
  rcases h with _ | ⟨rfl | rfl, hnumeral⟩
  · exact nofun
  · exact List.forall_mem_cons.mpr ⟨.inr (by simp), hnumeral.isNumeralChar⟩
  · exact List.forall_mem_cons.mpr ⟨.inr (by simp), hnumeral.isNumeralChar⟩

theorem DecimalNumeral.isNumeralChar {text : List Char} {n : Nat} {e : Int}
    (h : DecimalNumeral text n e) : ∀ c ∈ text, IsNumeralChar c := by
  cases h with
  | whole _ hdigits htail =>
    exact List.forall_mem_append.mpr ⟨hdigits.isNumeralChar, htail.isNumeralChar⟩
  | point _ hwhole hplaces htail =>
    simp only [List.forall_mem_append, List.forall_mem_cons]
    exact ⟨⟨hwhole.isNumeralChar, .inr (by simp), hplaces.isNumeralChar⟩, htail.isNumeralChar⟩

/-- The names have no point and no letter of an exponent. -/
theorem RealNumeral.isNumeralChar {text : List Char} {x : Binary64} (h : RealNumeral text x)
    (hmark : text.any isRealMark) : ∀ c ∈ text, IsNumeralChar c := by
  obtain @⟨sign, text, negative, word, hsign, hmagnitude⟩ := h
  have hname : ∀ {name : String}, text.map Char.toLower = name.toList →
      (∀ c ∈ name.toList, c ∉ ['.', 'e']) → False := by
    intro name heq hname
    obtain ⟨c, hc, hcmark⟩ := List.any_eq_true.mp hmark
    have hmarks : c = '.' ∨ c = 'e' ∨ c = 'E' := by simpa [isRealMark, or_assoc] using hcmark
    rcases List.mem_append.mp hc with hc | hc
    · cases hsign <;> simp at hc <;> subst hc <;> simp at hmarks
    · have hlower : c.toLower ∈ ['.', 'e'] := by rcases hmarks with rfl | rfl | rfl <;> decide
      exact hname c.toLower (heq ▸ List.mem_map_of_mem hc) hlower
  rcases hmagnitude with hnumeral | (h | h) | h
  · exact List.forall_mem_append.mpr ⟨hsign.isNumeralChar, hnumeral.isNumeralChar⟩
  · exact (hname h (by simp)).elim
  · exact (hname h (by simp)).elim
  · exact (hname h (by simp)).elim

end Discography.Decimal
