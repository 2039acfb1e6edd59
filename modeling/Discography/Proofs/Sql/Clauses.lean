import Discography.Proofs.Sql.Nesting

/-!
# Clauses and names of a statement

What a database looks at to find the columns that a `SELECT` statement names. The statement is cut
into clauses at the keywords that begin one; parentheses hide the clauses of the statements inside
them. A column is mentioned by a name, a dot and another name. What is mentioned inside parentheses
belongs to the statement around them, unless the parentheses hold a statement of their own.

## Main definitions

* `Nested.clauses`: the clauses of a statement
* `Nested.statements`: the statements inside a tree, at any depth
* `Nested.mentions`: the columns that trees name, except in statements inside them
* `Nested.outputs`: the names that a statement gives to its columns
* `Token.IsFragment`: trees of tokens without clauses and statements, which mention certain columns

## Main results

* `Nested.clauses_cons_append`: a clause ends where the next one begins
* `Nested.mentions_append`: nothing is mentioned across a border without a dot
* `Token.IsFragment.append`, `Token.IsFragment.parens`, `Token.isFragment_commas`: larger fragments
-/

namespace Discography

/-- A clause: its keyword and the trees behind it. -/
structure Clause where
  word : String
  body : List Nested

/-- A column as a statement names it. -/
structure Mention where
  aliasName : String
  column : String
  deriving DecidableEq

namespace Nested

open Token

/-! ### Clauses -/

/-- The keywords that begin a clause. Where several stand together, each begins one, which is empty
for all but the last. -/
def clauseWords : List String :=
  ["SELECT", "FROM", "INNER", "LEFT", "RIGHT", "JOIN", "ON", "WHERE", "ORDER", "BY", "LIMIT",
    "OFFSET"]

/-- The keyword of the clause that the tree begins. -/
def clauseWord? : Nested → Option String
  | .token (.keyword w) => if w ∈ clauseWords then some w else none
  | _ => none

/-- The clauses of trees, from the first keyword on. -/
def clauses : List Nested → List Clause
  | [] => []
  | t :: rest =>
    match t.clauseWord? with
    | some word => ⟨word, rest.takeWhile fun t => t.clauseWord?.isNone⟩ :: clauses rest
    | none => clauses rest

/-- The trees begin with a clause, if there are any. -/
def BeginsClause (ts : List Nested) : Prop := ∀ t ∈ ts.head?, t.clauseWord?.isSome

/-- No tree begins a clause. -/
def IsPlain (ts : List Nested) : Prop := ∀ t ∈ ts, t.clauseWord? = none

variable {ts us behind : List Nested}

theorem beginsClause_nil : BeginsClause [] := nofun

theorem BeginsClause.append (ht : BeginsClause ts) (hu : BeginsClause us) :
    BeginsClause (ts ++ us) := by
  cases ts with
  | nil => exact hu
  | cons t ts => exact ht

theorem clauses_append_of_isPlain (h : IsPlain ts) (us : List Nested) :
    clauses (ts ++ us) = clauses us := by
  induction ts with
  | nil => rfl
  | cons t ts ih =>
    obtain ⟨ht, hts⟩ := List.forall_mem_cons.mp h
    rw [List.cons_append, clauses, ht]
    exact ih hts

/-- A clause ends where the next one begins. -/
theorem clauses_cons_append {word : String} (hword : word ∈ clauseWords) (h : IsPlain ts)
    (hbehind : BeginsClause behind) :
    clauses (token (keyword word) :: ts ++ behind) = ⟨word, ts⟩ :: clauses behind := by
  have hkeyword : (token (keyword word)).clauseWord? = some word := if_pos hword
  have hbody : (ts ++ behind).takeWhile (fun t => t.clauseWord?.isNone) = ts := by
    refine Text.takeWhile_append (fun t ht => by rw [h t ht]; rfl) fun t ht => ?_
    obtain ⟨w, hw⟩ := Option.isSome_iff_exists.mp (hbehind t ht)
    rw [hw]
    rfl
  rw [List.cons_append, clauses, hkeyword, clauses_append_of_isPlain h]
  simp only [hbody]

/-! ### Statements -/

/-- The trees are a statement. -/
def isStatement (ts : List Nested) : Bool := ts.head?.any (·.isToken (keyword "SELECT"))

/-- The statements inside a tree, at any depth. -/
def statements (t : Nested) : List (List Nested) :=
  t.fold (fun _ => []) fun inside =>
    (if isStatement (inside.map Prod.fst) then [inside.map Prod.fst] else []) ++
      inside.flatMap Prod.snd

@[simp] theorem statements_token (t : Token) : (token t).statements = [] := rfl

theorem statements_parens (ts : List Nested) :
    (parens ts).statements = (if isStatement ts then [ts] else []) ++ ts.flatMap statements := by
  rw [statements, fold, foldAll_eq_map, List.map_map, List.flatMap_map]
  simp only [Function.comp_def, List.map_id']
  rfl

/-- A statement begins with a clause. -/
theorem isStatement_eq_false (h : IsPlain ts) : isStatement ts = false := by
  cases ts with
  | nil => rfl
  | cons t ts =>
    have ht : t.clauseWord? = none := h t List.mem_cons_self
    rw [isStatement, List.head?_cons, Option.any_some]
    cases t with
    | parens inside => rfl
    | token t =>
      rw [isToken, decide_eq_false_iff_not]
      rintro rfl
      cases ht

/-! ### Columns -/

/-- The tree is the dot between the parts of a name. -/
def isDot (t : Nested) : Bool := t.isToken (punctuation ".")

/-- The column that trees name at their front. -/
def mention? : List Nested → Option Mention
  | table :: dot :: column :: _ =>
    if dot.isDot then table.name?.bind fun aliasName => column.name?.map (⟨aliasName, ·⟩) else none
  | _ => none

/-- The columns that trees name, given for each tree those that are named inside it. -/
def mentionsAmong : List (Nested × List Mention) → List Mention
  | [] => []
  | t :: rest => (mention? (t.1 :: rest.map Prod.fst)).toList ++ t.2 ++ mentionsAmong rest

/-- The columns that are named inside a tree; those in a statement are its own. -/
def mentionsInside (t : Nested) : List Mention :=
  t.fold (fun _ => []) fun inside =>
    if isStatement (inside.map Prod.fst) then [] else mentionsAmong inside

/-- The columns that trees name, except in statements inside them. -/
def mentions (ts : List Nested) : List Mention :=
  mentionsAmong (ts.map fun t => (t, t.mentionsInside))

@[simp] theorem mentions_nil : mentions [] = [] := rfl

theorem mentions_cons (t : Nested) (ts : List Nested) :
    mentions (t :: ts) = (mention? (t :: ts)).toList ++ t.mentionsInside ++ mentions ts := by
  rw [mentions, List.map_cons, mentionsAmong, List.map_map]
  simp [Function.comp_def, mentions]

theorem mentionsInside_parens (ts : List Nested) :
    (parens ts).mentionsInside = if isStatement ts then [] else mentions ts := by
  rw [mentionsInside, fold, foldAll_eq_map, List.map_map]
  simp [Function.comp_def, mentions, mentionsInside]

/-- The trees neither begin nor end with a dot. -/
structure IsClosed (ts : List Nested) : Prop where
  head : ∀ t ∈ ts.head?, t.isDot = false
  last : ∀ t ∈ ts.getLast?, t.isDot = false

theorem isClosed_nil : IsClosed [] := ⟨nofun, nofun⟩

theorem isClosed_singleton {t : Nested} (h : t.isDot = false) : IsClosed [t] :=
  ⟨by rintro _ ⟨⟩; exact h, by rintro _ ⟨⟩; exact h⟩

theorem IsClosed.append (ht : IsClosed ts) (hu : IsClosed us) : IsClosed (ts ++ us) := by
  constructor
  · cases ts with
    | nil => exact hu.head
    | cons t ts => exact ht.head
  · rcases List.eq_nil_or_concat' us with rfl | ⟨us, u, rfl⟩
    · rw [List.append_nil]
      exact ht.last
    · rw [← List.append_assoc, List.getLast?_concat]
      simpa using hu.last

/-- What stands at the front is no name of a column by what is behind a border without a dot. -/
theorem mention?_append (hts : ts ≠ []) (hlast : ∀ t ∈ ts.getLast?, t.isDot = false)
    (hhead : ∀ u ∈ us.head?, u.isDot = false) : mention? (ts ++ us) = mention? ts := by
  -- a name takes three trees: with fewer in `ts`, its dot would stand at the border
  match ts, us with
  | _ :: _ :: _ :: _, _ => rfl
  | [_, _], [] => rfl
  | [_, t], _ :: _ => exact if_neg (by simp [hlast t (by simp)])
  | [_], [] | [_], [_] => rfl
  | [_], u :: _ :: _ => exact if_neg (by simp [hhead u (by simp)])

/-- Nothing is mentioned across a border without a dot. -/
theorem mentions_append (hlast : ∀ t ∈ ts.getLast?, t.isDot = false)
    (hhead : ∀ u ∈ us.head?, u.isDot = false) :
    mentions (ts ++ us) = mentions ts ++ mentions us := by
  induction ts with
  | nil => rfl
  | cons t ts ih =>
    have hrest : ∀ u ∈ ts.getLast?, u.isDot = false := by
      cases ts with
      | nil => simp
      | cons u ts => simpa using hlast
    have hfront := mention?_append (List.cons_ne_nil t ts) hlast hhead
    rw [List.cons_append] at hfront ⊢
    rw [mentions_cons, mentions_cons, hfront, ih hrest]
    simp only [List.append_assoc]

/-- The columns of a statement in parentheses are its own, those of a list are not. -/
example :
    mentions [token (name "a"), token (punctuation "."), token (name "x"), token (keyword "IN"),
      parens [token (name "b"), token (punctuation "."), token (name "y"),
        parens [token (keyword "SELECT"), token (name "c"), token (punctuation "."),
          token (name "z")]]] = [⟨"a", "x"⟩, ⟨"b", "y"⟩] := by
  decide

/-! ### Names of columns -/

/-- The name that trees of a `SELECT` list give to a column. -/
def outputName? (ts : List Nested) : Option String :=
  match ts.dropWhile (!·.isToken (keyword "AS")) with
  | [_, .token (.name n)] => some n
  | _ => none

/-- The names that a statement gives to its columns. -/
def outputs (ts : List Nested) : List String :=
  (clauses ts).head?.elim [] fun c =>
    (splitCommas (c.body.map fun t => (t, ()))).filterMap fun column =>
      outputName? (column.map Prod.fst)

end Nested

/-! ### Fragments -/

namespace Token

open Nested

/-- Wherever they stand, the tokens have the given trees, which are free of clauses and statements
and mention the given columns. -/
structure IsFragment (tokens : List Token) (ts : List Nested) (ms : List Mention) : Prop where
  nests : Nests tokens ts
  plain : IsPlain ts
  closed : IsClosed ts
  mentions : Nested.mentions ts = ms
  statements : ts.flatMap Nested.statements = []

variable {s t : List Token} {a b : List Nested} {ms ns : List Mention}

theorem isFragment_nil : IsFragment [] [] [] := ⟨nests_nil, nofun, isClosed_nil, rfl, rfl⟩

theorem IsFragment.append (hs : IsFragment s a ms) (ht : IsFragment t b ns) :
    IsFragment (s ++ t) (a ++ b) (ms ++ ns) where
  nests := hs.nests.append ht.nests
  plain := List.forall_mem_append.mpr ⟨hs.plain, ht.plain⟩
  closed := hs.closed.append ht.closed
  mentions := by rw [mentions_append hs.closed.last ht.closed.head, hs.mentions, ht.mentions]
  statements := by rw [List.flatMap_append, hs.statements, ht.statements, List.append_nil]

theorem IsFragment.parens (hs : IsFragment s a ms) :
    IsFragment (Token.parens s) [.parens a] ms where
  nests := hs.nests.parens
  plain := by simp [IsPlain, clauseWord?]
  closed := isClosed_singleton rfl
  mentions := by
    rw [mentions_cons, mentionsInside_parens, isStatement_eq_false hs.plain, if_neg (by simp),
      hs.mentions, mentions_nil, List.append_nil]
    rfl
  statements := by
    rw [List.flatMap_singleton, statements_parens, isStatement_eq_false hs.plain, hs.statements]
    rfl

/-- A token that begins no clause and is part of no name but a simple one. -/
theorem isFragment_token {t : Token} (hinner : t.IsInner)
    (hplain : (Nested.token t).clauseWord? = none) (hdot : t ≠ punctuation ".") :
    IsFragment [t] [.token t] [] where
  nests := nests_token hinner
  plain := List.forall_mem_singleton.mpr hplain
  closed := isClosed_singleton (by simpa [isDot, isToken] using hdot)
  mentions := by
    rw [mentions_cons]
    cases t <;> rfl
  statements := rfl

theorem isFragment_name (n : String) : IsFragment [name n] [.token (name n)] [] :=
  isFragment_token (isInner_name n) rfl nofun

theorem isFragment_keyword {w : String} (h : w ∉ clauseWords) :
    IsFragment [keyword w] [.token (keyword w)] [] :=
  isFragment_token (isInner_keyword w) (if_neg h) nofun

theorem isFragment_keywords {ws : List String} (h : ∀ w ∈ ws, w ∉ clauseWords) :
    IsFragment (keywords ws) ((keywords ws).map .token) [] := by
  induction ws with
  | nil => exact isFragment_nil
  | cons w ws ih =>
    obtain ⟨hw, hws⟩ := List.forall_mem_cons.mp h
    exact (isFragment_keyword hw).append (ih hws)

/-- A name behind that of a table. -/
theorem isFragment_column (aliasName column : String) :
    IsFragment (path [aliasName, column]) ((path [aliasName, column]).map .token)
      [⟨aliasName, column⟩] where
  nests := by
    apply nests_tokens
    simp [path, IsInner]
  plain := by simp [path, IsPlain, clauseWord?]
  closed := ⟨by rintro _ ⟨⟩; rfl, by rintro _ ⟨⟩; rfl⟩
  mentions := rfl
  statements := rfl

/-- Fragments with commas between them. -/
theorem isFragment_commas {α : Type} {tokens : α → List Token} {mentions : α → List Mention}
    {items : List α} {trees : List (List Nested)}
    (h : List.Forall₂ (fun item ts => IsFragment (tokens item) ts (mentions item)) items trees) :
    IsFragment (commas (items.map tokens)) (Nested.commas trees) (items.flatMap mentions) := by
  induction h with
  | nil => exact isFragment_nil
  | @cons item ts items trees hitem hitems ih =>
    cases hitems with
    | nil => simpa [commas, List.intercalate, Nested.commas] using hitem
    | @cons next us items trees hnext hitems =>
      have hcomma : IsFragment [punctuation ","] [.token (punctuation ",")] [] :=
        isFragment_token (by decide) rfl (by decide)
      rw [List.map_cons, List.map_cons, commas_next, Nested.commas_cons_cons,
        List.flatMap_cons]
      exact hitem.append (hcomma.append ih)

/-- If every item is a fragment, the items with commas between them are one. -/
theorem exists_isFragment_commas {α : Type} {tokens : α → List Token} {mentions : α → List Mention}
    {items : List α} (h : ∀ item ∈ items, ∃ ts, IsFragment (tokens item) ts (mentions item)) :
    ∃ ts, IsFragment (commas (items.map tokens)) ts (items.flatMap mentions) := by
  have htrees : ∃ trees,
      List.Forall₂ (fun item ts => IsFragment (tokens item) ts (mentions item)) items trees := by
    induction items with
    | nil => exact ⟨[], .nil⟩
    | cons item items ih =>
      obtain ⟨⟨ts, hts⟩, hitems⟩ := List.forall_mem_cons.mp h
      obtain ⟨trees, htrees⟩ := ih hitems
      exact ⟨ts :: trees, .cons hts htrees⟩
  obtain ⟨trees, htrees⟩ := htrees
  exact ⟨_, isFragment_commas htrees⟩

end Token

end Discography
