import Discography.Proofs.Outcome
import Discography.Quotation

/-!
# What quoted names are read as

A name is quoted between two marks, with every mark in it written twice, and reading a quoted name
gives the name back. Reading asks for the two marks around the text and for nothing inside: where a
mark inside has no second one next to it, it is read as a mark all the same. So some texts are read
that quoting never writes, and these are the ones with a mark inside that is not part of a pair.

## Main definitions

* `Name.Reads`: what the text between the two marks is read as
* `Name.Paired`: all marks of a text come in pairs

## Main results

* `Name.undouble_eq_iff`: pairs are replaced from the left
* `Name.paired_iff`: the texts with pairs of marks are those that are written for names
* `Name.read_eq_ok_iff`: the texts that are read, and as which names
* `Name.reading_inverts_quoting_iff`: the texts for which reading is the inverse of quoting
-/

namespace Discography.Name

/-- What a text is read as, from the left: two marks stand for one, and so does a mark with no mark
behind it. -/
inductive Reads : List Char → List Char → Prop
  | nil : Reads [] []
  | plain {c : Char} {text name : List Char} (hc : c ≠ mark) (h : Reads text name) :
    Reads (c :: text) (c :: name)
  | pair {text name : List Char} (h : Reads text name) : Reads (mark :: mark :: text) (mark :: name)
  | lone {text name : List Char} (hnext : text.head? ≠ some mark) (h : Reads text name) :
    Reads (mark :: text) (mark :: name)

/-- The marks come in pairs. -/
inductive Paired : List Char → Prop
  | nil : Paired []
  | plain {c : Char} {text : List Char} (hc : c ≠ mark) (h : Paired text) : Paired (c :: text)
  | pair {text : List Char} (h : Paired text) : Paired (mark :: mark :: text)

/-- The text stands between two marks, with `inner` between them. -/
def Quotes (text inner : List Char) : Prop := text = mark :: inner ++ [mark]

variable {inner text name other : List Char}

/-! ### Pairs of marks -/

theorem double_mark (name : List Char) : double (mark :: name) = mark :: mark :: double name := rfl

theorem double_cons_of_ne {c : Char} (hc : c ≠ mark) (name : List Char) :
    double (c :: name) = c :: double name := by
  rw [double, List.flatMap_cons, if_neg hc]
  rfl

theorem undouble_cons_of_ne {c : Char} (hc : c ≠ mark) (text : List Char) :
    undouble (c :: text) = c :: undouble text := by
  cases text with
  | nil => rfl
  | cons b text => rw [undouble, if_neg fun h => hc h.1]

theorem undouble_mark_of_head? (h : text.head? ≠ some mark) :
    undouble (mark :: text) = mark :: undouble text := by
  cases text with
  | nil => rfl
  | cons b text => rw [undouble, if_neg fun hb => h (congrArg some hb.2)]

theorem undouble_pair (text : List Char) :
    undouble (mark :: mark :: text) = mark :: undouble text := if_pos ⟨rfl, rfl⟩

theorem Reads.undouble_eq (h : Reads text name) : undouble text = name := by
  induction h with
  | nil => rfl
  | plain hc _ ih => rw [undouble_cons_of_ne hc, ih]
  | pair _ ih => rw [undouble_pair, ih]
  | lone hnext _ ih => rw [undouble_mark_of_head? hnext, ih]

theorem reads_undouble (text : List Char) : Reads text (undouble text) := by
  fun_induction undouble text with
  | case1 a b rest h ih =>
    obtain ⟨rfl, rfl⟩ := h
    exact .pair ih
  | case2 a b rest h ih =>
    by_cases ha : a = mark
    -- the next character is no mark, since the two are no pair
    · subst ha
      exact .lone (fun hb => h ⟨rfl, Option.some.inj hb⟩) ih
    · exact .plain ha ih
  | case3 rest h =>
    match rest with
    | [] => exact .nil
    | [a] =>
      by_cases ha : a = mark
      · subst ha
        exact .lone nofun .nil
      · exact .plain ha .nil
    | a :: b :: rest => exact absurd rfl (h a b rest)

/-- Pairs are replaced from the left. -/
theorem undouble_eq_iff : undouble text = name ↔ Reads text name :=
  ⟨fun h => h ▸ reads_undouble text, Reads.undouble_eq⟩

theorem reads_double (name : List Char) : Reads (double name) name := by
  induction name with
  | nil => exact .nil
  | cons c name ih =>
    by_cases hc : c = mark
    · subst hc
      exact .pair ih
    · rw [double_cons_of_ne hc]
      exact .plain hc ih

theorem paired_double (name : List Char) : Paired (double name) := by
  induction name with
  | nil => exact .nil
  | cons c name ih =>
    by_cases hc : c = mark
    · subst hc
      exact .pair ih
    · rw [double_cons_of_ne hc]
      exact .plain hc ih

/-- With all marks in pairs, nothing is lost by reading. -/
theorem Paired.double_undouble (h : Paired text) : double (undouble text) = text := by
  induction h with
  | nil => rfl
  | plain hc _ ih => rw [undouble_cons_of_ne hc, double_cons_of_ne hc, ih]
  | pair _ ih => rw [undouble_pair, double_mark, ih]

/-- The texts with pairs of marks are those that are written for names. -/
theorem paired_iff : Paired text ↔ ∃ name, text = double name := by
  constructor
  · exact fun h => ⟨_, h.double_undouble.symm⟩
  · rintro ⟨name, rfl⟩
    exact paired_double name

/-! ### Quoted texts -/

theorem Quotes.unique (h : Quotes text inner) (h' : Quotes text other) : inner = other := by
  rw [Quotes] at h h'
  rw [h, List.cons_append, List.cons_append, List.cons.injEq] at h'
  exact List.append_cancel_right h'.2

theorem quotes_encode (name : List Char) : Quotes (encode name) (double name) := rfl

theorem decode?_eq_some_iff :
    decode? text = some name ↔ ∃ inner, Quotes text inner ∧ Reads inner name := by
  cases text with
  | nil => simp [decode?, Quotes]
  | cons c rest =>
    rw [decode?]
    constructor
    · intro h
      split at h
      · rename_i hmarks
        obtain ⟨rfl, hlast⟩ := hmarks
        obtain ⟨inner, rfl⟩ := List.getLast?_eq_some_iff.mp hlast
        rw [List.dropLast_concat, Option.some.injEq] at h
        exact ⟨inner, rfl, undouble_eq_iff.mp h⟩
      · cases h
    · rintro ⟨inner, hquotes, hreads⟩
      rw [Quotes, List.cons_append, List.cons.injEq] at hquotes
      obtain ⟨rfl, rfl⟩ := hquotes
      rw [if_pos ⟨rfl, List.getLast?_concat⟩, List.dropLast_concat, hreads.undouble_eq]

theorem decode?_eq_none_iff : decode? text = none ↔ ¬ ∃ inner, Quotes text inner := by
  constructor
  · rintro hnone ⟨inner, hquotes⟩
    have hsome := decode?_eq_some_iff.mpr ⟨inner, hquotes, reads_undouble inner⟩
    rw [hnone] at hsome
    cases hsome
  · intro h
    by_contra hsome
    obtain ⟨name, hname⟩ := Option.ne_none_iff_exists'.mp hsome
    obtain ⟨inner, hquotes, -⟩ := decode?_eq_some_iff.mp hname
    exact h ⟨inner, hquotes⟩

/-! ### Names -/

theorem eq_quote_iff {text name : String} :
    text = quote name ↔ Quotes text.toList (double name.toList) := by
  rw [quote, ← String.toList_inj, String.toList_ofList]
  rfl

/-- The texts that are read, and as which names. -/
theorem read_eq_ok_iff {text name : String} :
    read text = .ok name ↔ ∃ inner, Quotes text.toList inner ∧ Reads inner name.toList := by
  rw [← decode?_eq_some_iff, read]
  cases decode? text.toList with
  | none => simp
  | some chars => rw [Except.ok.injEq, Option.some.injEq, ← String.toList_inj, String.toList_ofList]

theorem read_eq_error_iff {text : String} {e : Error} :
    read text = .error e ↔
      e = .decode (.notQuotedName text) ∧ ¬ ∃ inner, Quotes text.toList inner := by
  rw [← decode?_eq_none_iff, read]
  cases decode? text.toList with
  | none => simp [eq_comm]
  | some chars => simp

theorem read_quote (name : String) : read (quote name) = .ok name :=
  read_eq_ok_iff.mpr ⟨_, eq_quote_iff.mp rfl, reads_double name.toList⟩

/-- A text with its marks in pairs is read as a name if it is the name in quotes. -/
theorem read_eq_ok_iff_of_paired {text : String}
    (h : ∀ inner, Quotes text.toList inner → Paired inner) (name : String) :
    read text = .ok name ↔ text = quote name := by
  constructor
  · intro hread
    obtain ⟨inner, hquotes, hreads⟩ := read_eq_ok_iff.mp hread
    have hdouble := (h inner hquotes).double_undouble
    rw [hreads.undouble_eq] at hdouble
    rw [eq_quote_iff, hdouble]
    exact hquotes
  · rintro rfl
    exact read_quote name

/-- **Where reading is the inverse of quoting.** Every name is read back from its quoted form. A
text is read if it stands between two marks, and then as the text between them with every pair of
marks replaced by one, from the left; otherwise it is refused. The quoted form of the name is the
only text that is read as the name, as far as the texts have the marks inside them in pairs, and no
further. -/
theorem reading_inverts_quoting_iff (text : String) :
    (∀ name, read (quote name) = .ok name) ∧
    (∀ name, read text = .ok name ↔
      ∃ inner, Quotes text.toList inner ∧ Reads inner name.toList) ∧
    (∀ e, read text = .error e ↔
      e = .decode (.notQuotedName text) ∧ ¬ ∃ inner, Quotes text.toList inner) ∧
    ((∀ name, read text = .ok name ↔ text = quote name) ↔
      ∀ inner, Quotes text.toList inner → Paired inner) := by
  refine ⟨read_quote, fun name => read_eq_ok_iff, fun e => read_eq_error_iff, ?_,
    read_eq_ok_iff_of_paired⟩
  intro h inner hquotes
  -- what is read is some name, whose quoted form is the text
  have hread : read text = .ok (String.ofList (undouble inner)) :=
    read_eq_ok_iff.mpr ⟨inner, hquotes, by rw [String.toList_ofList]; exact reads_undouble inner⟩
  have hdouble := eq_quote_iff.mp ((h _).mp hread)
  rw [hquotes.unique hdouble]
  exact paired_double _

/-- A text with a mark of its own inside is read as the same name as the quoted form of that
name. -/
theorem read_unpaired :
    read "\x60a\x60b\x60" = .ok "a\x60b" ∧ quote "a\x60b" = "\x60a\x60\x60b\x60" ∧
      ¬ ∀ text name, read text = .ok name ↔ text = quote name := by
  have hread : read "\x60a\x60b\x60" = .ok "a\x60b" := by rfl
  have hquote : quote "a\x60b" = "\x60a\x60\x60b\x60" := by rfl
  refine ⟨hread, hquote, fun h => ?_⟩
  have heq := (h _ _).mp hread
  rw [hquote] at heq
  exact absurd heq (by decide)

end Discography.Name
