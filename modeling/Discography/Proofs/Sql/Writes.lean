import Discography.Proofs.Outcome
import Discography.Proofs.Sql.Separated

/-!
# Pieces of SQL and the tokens they are read as

The pieces that statements are built from, each with the tokens that it is to be read as. A piece
that begins with a space or with punctuation may follow any other one.

## Main definitions

* `Token.keywords`, `Token.commas`, `Token.parens`, `Token.path`: tokens of common constructions
* `Sql.Writes`: a separated piece of SQL with its tokens

## Main results

* `Sql.Writes.lex_text`: the text of such a piece is read as these tokens
-/

namespace Discography

namespace Token

/-- Keywords one after the other. -/
def keywords (ws : List String) : List Token := ws.map keyword

/-- Groups of tokens with a comma between them. -/
def commas (groups : List (List Token)) : List Token := List.intercalate [punctuation ","] groups

/-- Tokens in parentheses. -/
def parens (ts : List Token) : List Token := punctuation "(" :: ts ++ [punctuation ")"]

/-- Names with dots between them. -/
def path (names : List String) : List Token := (names.map name).intersperse (punctuation ".")

/-- The word is a keyword in capital letters, and no literal. -/
def IsKeyword (w : String) : Prop :=
  (w.toList ≠ [] ∧ w.toList.all Char.isUpper) ∧ ofWord w.toList = keyword w

instance (w : String) : Decidable (IsKeyword w) := inferInstanceAs (Decidable (_ ∧ _))

end Token

namespace Sql

/-- A separated piece of SQL is read as the given tokens. -/
structure Writes (style : TextStyle) (sql : Sql) (tokens : List Token) : Prop where
  separated : sql.Separated style
  tokens_eq : sql.tokens = tokens

/-- A piece of SQL that may follow any other one. -/
def Delimited (sql : Sql) : Prop := ∀ l ∈ sql.head?, l.delimits

variable {style : TextStyle} {a b : Sql} {s t : List Token} {l : Lexeme}

/-- The text of a piece of SQL is read as its tokens. -/
theorem Writes.lex_text (h : Writes style a s) : Lexer.lex style a.text = some s :=
  h.tokens_eq ▸ Lexer.lex_text h.separated

theorem writes_nil : Writes style [] [] := ⟨⟨by simp, .nil⟩, rfl⟩

theorem writes_singleton (hl : l.Readable style) : Writes style [l] l.token?.toList :=
  ⟨⟨by simpa using hl, .singleton l⟩, by simp⟩

theorem Writes.append (ha : Writes style a s) (hb : Writes style b t) (hd : Delimited b) :
    Writes style (a ++ b) (s ++ t) where
  separated :=
    { readable := fun l hl =>
        (List.mem_append.1 hl).elim (ha.separated.readable l) (hb.separated.readable l)
      chain := List.isChain_append.2 ⟨ha.separated.chain, hb.separated.chain,
        fun _ _ m hm => Lexeme.mayPrecede_of_delimits (hd m hm)⟩ }
  tokens_eq := by rw [tokens_append, ha.tokens_eq, hb.tokens_eq]

theorem Writes.cons (hl : l.Readable style) (ha : Writes style a s)
    (hp : ∀ m ∈ a.head?, l.MayPrecede m) : Writes style (l :: a) (l.token?.toList ++ s) where
  separated :=
    { readable := List.forall_mem_cons.2 ⟨hl, ha.separated.readable⟩
      chain := List.isChain_cons.2 ⟨hp, ha.separated.chain⟩ }
  tokens_eq := by rw [tokens_cons, ha.tokens_eq]

theorem delimited_nil : Delimited [] := by rintro l ⟨⟩

theorem delimited_cons (h : l.delimits) : Delimited (l :: a) := by
  rintro m ⟨⟩
  exact h

theorem Delimited.append (ha : Delimited a) (hb : Delimited b) : Delimited (a ++ b) := by
  cases a with
  | nil => exact hb
  | cons l a => exact delimited_cons (ha l rfl)

theorem writes_space_cons (ha : Writes style a s) : Writes style (.space :: a) s :=
  ha.cons trivial fun _ _ => trivial

theorem delimited_space_cons : Delimited (.space :: a) := delimited_cons rfl

theorem Writes.space_append (ha : Writes style a s) (hb : Writes style b t) :
    Writes style (a ++ .space :: b) (s ++ t) :=
  ha.append (writes_space_cons hb) delimited_space_cons

/-- The marks of punctuation that the lexer knows. -/
def IsMark (s : String) : Prop := s ∈ ["(", ")", ",", ".", "*", "=", "<>"]

theorem writes_symbol_cons {mark : String} (hm : IsMark mark) (ha : Writes style a s) :
    Writes style (.symbol mark :: a) (.punctuation mark :: s) :=
  ha.cons hm fun _ _ => trivial

theorem writes_symbol {mark : String} (hm : IsMark mark) :
    Writes style [.symbol mark] [.punctuation mark] :=
  writes_symbol_cons hm writes_nil

theorem Writes.parens (ha : Writes style a s) : Writes style (Sql.parens a) (Token.parens s) :=
  (writes_symbol_cons (by simp [IsMark]) ha).append (writes_symbol (by simp [IsMark]))
    (delimited_cons rfl)

theorem delimited_parens : Delimited (Sql.parens a) := delimited_cons rfl

theorem writes_commas {pieces : List Sql} {groups : List (List Token)}
    (h : List.Forall₂ (Writes style) pieces groups) :
    Writes style (commas pieces) (Token.commas groups) := by
  induction h with
  | nil => exact writes_nil
  | @cons a s pieces groups ha hrest ih =>
    -- there is a comma behind each piece but the last one
    cases hrest with
    | nil => simpa [commas, Token.commas, List.intercalate] using ha
    | @cons b t pieces groups hb hrest =>
      have hsql : commas (a :: b :: pieces) =
          a ++ .symbol "," :: .space :: commas (b :: pieces) := by
        simp [commas, List.intercalate, List.intersperse]
      have htokens : Token.commas (s :: t :: groups) =
          s ++ .punctuation "," :: Token.commas (t :: groups) := by
        simp [Token.commas, List.intercalate, List.intersperse]
      rw [hsql, htokens]
      exact ha.append (writes_symbol_cons (by simp [IsMark]) (writes_space_cons ih))
        (delimited_cons rfl)

/-- Pieces that are written for the items of a list. -/
theorem writes_commas_map {α : Type} {f : α → Sql} {g : α → List Token}
    (h : ∀ a, Writes style (f a) (g a)) (items : List α) :
    Writes style (commas (items.map f)) (Token.commas (items.map g)) :=
  writes_commas (List.forall₂_map_left_iff.2 (List.forall₂_map_right_iff.2
    (List.forall₂_same.2 fun a _ => h a)))

theorem writes_word {w : String} (h : w.toList ≠ [] ∧ w.toList.all Char.isUpper) :
    Writes style [.word w] [.ofWord w.toList] :=
  writes_singleton (l := .word w) h

theorem writes_keyword {w : String} (h : Token.IsKeyword w) :
    Writes style [.word w] [.keyword w] := by
  have hw : Writes style [.word w] [.ofWord w.toList] := writes_word h.1
  rwa [h.2] at hw

theorem writes_words (ws : List String) (h : ∀ w ∈ ws, Token.IsKeyword w) :
    Writes style (words ws) (Token.keywords ws) := by
  induction ws with
  | nil => exact writes_nil
  | cons w ws ih =>
    have hw : Writes style [.word w] [.keyword w] := writes_keyword (h w (by simp))
    have hws := ih fun w hw => h w (by simp [hw])
    cases ws with
    | nil => exact hw
    | cons w' ws => exact hw.append (writes_space_cons hws) delimited_space_cons

/-- A clause begins with a space, so it may follow anything. -/
theorem Writes.clause (ws : List String) (h : ∀ w ∈ ws, Token.IsKeyword w)
    (ha : Writes style a s) : Writes style (Sql.clause ws a) (Token.keywords ws ++ s) :=
  (writes_space_cons (writes_words ws h)).space_append ha

theorem delimited_clause {ws : List String} : Delimited (Sql.clause ws a) := delimited_space_cons

theorem writes_path (names : List String) : Writes style (path names) (Token.path names) := by
  induction names with
  | nil => exact writes_nil
  | cons n names ih =>
    cases names with
    | nil => exact writes_singleton (l := .name n) trivial
    | cons n' names =>
      -- a dot may not follow everything, but it may follow a name
      refine Writes.cons (l := .name n) trivial (writes_symbol_cons (by simp [IsMark]) ih) ?_
      rintro m ⟨⟩
      exact Or.inr rfl

theorem writes_name (n : String) : Writes style [.name n] [.name n] :=
  writes_singleton (l := .name n) trivial

theorem writes_integer (i : Int) : Writes style [.integer i] [.integer i] :=
  writes_singleton (l := .integer i) trivial

end Sql

end Discography
