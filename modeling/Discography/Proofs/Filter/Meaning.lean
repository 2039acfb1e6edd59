import Discography.Proofs.Filter.Formula
import Discography.Proofs.Filter.Tokens

/-!
# Predicates mean what was built

The text of a predicate is a condition, and its truth value is the one that the predicate was built
for: whatever the connectives of a chain are and however it was built, each call of `and` or `or`
joins a further condition to all of the predicate in front of it.

## Main definitions

* `Token.IsOperand`: tokens that are read as an operand
* `Predicate.value`: the truth value of the text of a predicate

## Main results

* `Predicate.reads_chain`, `Predicate.reads_extend`: what chains are read as
* `Predicate.value_eq_of_built`: the truth value is the one that was built
-/

namespace Discography

open Token Nested Formula Connective

/-! ### Operands -/

namespace Token

/-- The tokens are read as an operand. -/
structure IsOperand (tokens : List Token) (ts : List Nested) : Prop where
  nests : Nests tokens ts
  areOperand : areOperand ts
  parts : ∀ t ∈ ts, t.isOperandPart

theorem IsOperand.ne_nil {tokens : List Token} {ts : List Nested} (h : IsOperand tokens ts) :
    ts ≠ [] := by
  rintro rfl
  cases h.areOperand

theorem isOperand_atom {t : Token} (h : t.isAtom) : IsOperand [t] [.token t] where
  nests := by
    apply nests_token
    constructor <;> rintro rfl <;> cases h
  areOperand := h
  parts := by simpa [isOperandPart] using Or.inl h

theorem isOperand_column (aliasName name : String) :
    IsOperand (path [aliasName, name])
      ((path [aliasName, name]).map .token) where
  nests := by
    apply nests_tokens
    simp [path, IsInner]
  areOperand := rfl
  parts := by simp [path, isOperandPart, isAtom]

/-- Parts of an operand are no keywords and no commas. -/
theorem isToken_eq_false_of_isOperandPart {t : Nested} (h : t.isOperandPart) {s : Token}
    (hs : (Nested.token s).isOperandPart = false) : t.isToken s = false := by
  cases t with
  | parens inside => rfl
  | token t =>
    rw [isToken, decide_eq_false_iff_not]
    rintro rfl
    rw [hs] at h
    cases h

theorem exists_operands {groups : List (List Token)} (h : ∀ g ∈ groups, ∃ ts, IsOperand g ts) :
    ∃ trees, List.Forall₂ Nests groups trees ∧
      ∀ ts ∈ trees, areOperand ts ∧ ∀ t ∈ ts, t.isOperandPart := by
  induction groups with
  | nil => exact ⟨[], .nil, by simp⟩
  | cons g groups ih =>
    obtain ⟨⟨ts, hts⟩, hgroups⟩ := List.forall_mem_cons.1 h
    obtain ⟨trees, hnests, htrees⟩ := ih hgroups
    exact ⟨ts :: trees, .cons hts.nests hnests,
      List.forall_mem_cons.2 ⟨⟨hts.areOperand, hts.parts⟩, htrees⟩⟩

theorem isOperand_parens (inside : List Nested) :
    (Nested.parens inside).isOperand = isOperandList (inside.map fun t => (t, t.isOperand)) := by
  rw [isOperand, fold, foldAll_eq_map]
  rfl

variable {trees : List (List Nested)}

theorem all_isOperandGroup (hne : trees ≠ [])
    (h : ∀ ts ∈ trees, areOperand ts ∧ ∀ t ∈ ts, t.isOperandPart) :
    (splitCommas ((Nested.commas trees).map fun t => (t, t.isOperand))).all isOperandGroup := by
  obtain ⟨ts, trees, rfl⟩ := List.exists_cons_of_ne_nil hne
  rw [splitCommas_map_commas, List.all_eq_true]
  · intro group hgroup
    obtain ⟨us, hus, rfl⟩ := List.mem_map.1 hgroup
    exact (h us hus).1
  · intro us hus t ht
    exact isToken_eq_false_of_isOperandPart ((h us hus).2 t ht) rfl

/-- Operands in parentheses are an operand, with and without the keyword that may introduce them. -/
theorem isOperandList_commas (hne : trees ≠ [])
    (h : ∀ ts ∈ trees, areOperand ts ∧ ∀ t ∈ ts, t.isOperandPart) :
    isOperandList ((Nested.commas trees).map fun t => (t, t.isOperand)) ∧
      isOperandList ((.token (keyword "VALUES") :: Nested.commas trees).map
        fun t => (t, t.isOperand)) := by
  have hall := all_isOperandGroup hne h
  refine ⟨?_, hall⟩
  obtain ⟨us, trees, rfl⟩ := List.exists_cons_of_ne_nil hne
  obtain ⟨hus, hparts⟩ := h us List.mem_cons_self
  -- the first of the trees is a part of the first operand, so it is no keyword
  cases us with
  | nil => cases hus
  | cons t us =>
    have hcommas : ∃ rest, Nested.commas ((t :: us) :: trees) = t :: rest := by
      cases trees with
      | nil => exact ⟨us, commas_singleton _⟩
      | cons next trees => exact ⟨_, commas_cons_cons _ _ _⟩
    obtain ⟨rest, hrest⟩ := hcommas
    rw [hrest] at hall ⊢
    have hkeyword : t.isToken (keyword "VALUES") = false :=
      isToken_eq_false_of_isOperandPart (hparts t List.mem_cons_self) rfl
    rw [List.map_cons, isOperandList, hkeyword]
    exact hall

theorem isOperand_of_parens {tokens : List Token} {inside : List Nested}
    (hnests : Nests tokens inside)
    (h : isOperandList (inside.map fun t => (t, t.isOperand))) :
    IsOperand (parens tokens) [.parens inside] where
  nests := hnests.parens
  areOperand := by rwa [Nested.areOperand, List.map_singleton, isOperandGroup, isOperand_parens]
  parts := by simp [isOperandPart]

/-- A list of operands. -/
theorem exists_isOperand_parens {groups : List (List Token)}
    (h : ∀ g ∈ groups, ∃ ts, IsOperand g ts) :
    ∃ ts, IsOperand (parens (Token.commas groups)) ts := by
  obtain ⟨trees, hnests, htrees⟩ := exists_operands h
  refine ⟨_, isOperand_of_parens (Nests.commas hnests) ?_⟩
  cases trees with
  | nil => rfl
  | cons ts trees => exact (isOperandList_commas (List.cons_ne_nil _ _) htrees).1

end Token

/-! ### Values and expressions -/

mutual

theorem Value.exists_isOperand : ∀ v : Value, ∃ ts, IsOperand v.tokens ts
  | .null | .boolean _ | .integer _ | .real _ | .text _ | .blob _ => ⟨_, isOperand_atom rfl⟩
  | .list items => exists_isOperand_parens (Value.exists_isOperand_items items)

theorem Value.exists_isOperand_items : ∀ items : List Value,
    ∀ g ∈ Value.itemsTokens items, ∃ ts, IsOperand g ts
  | [] => by simp [Value.itemsTokens]
  | v :: rest => List.forall_mem_cons.2 ⟨v.exists_isOperand, Value.exists_isOperand_items rest⟩

end

namespace Expression

mutual

theorem exists_isOperand : ∀ e : Expression, ∃ ts, IsOperand e.tokens ts
  | literal v => v.exists_isOperand
  | column c => ⟨_, isOperand_column c.aliasName c.name⟩
  | tuple items => exists_isOperand_parens (exists_isOperand_items items)

theorem exists_isOperand_items : ∀ items : List Expression,
    ∀ g ∈ itemsTokens items, ∃ ts, IsOperand g ts
  | [] => by simp [itemsTokens]
  | e :: rest => List.forall_mem_cons.2 ⟨e.exists_isOperand, exists_isOperand_items rest⟩

end

/-- There is at least one row, and every row is an operand. -/
theorem rowsTokens_eq_some {e : Expression} {rows : List (List Token)}
    (h : e.rowsTokens = some rows) : rows ≠ [] ∧ ∀ g ∈ rows, ∃ ts, IsOperand g ts := by
  cases e with
  | column c => cases h
  | tuple items =>
    rw [rowsTokens] at h
    split at h
    · rename_i hitems
      obtain rfl := Option.some.inj h
      refine ⟨?_, exists_isOperand_items items⟩
      cases items with
      | nil => cases hitems
      | cons e items => exact List.cons_ne_nil _ _
    · cases h
  | literal v =>
    cases v with
    | list items =>
      rw [rowsTokens] at h
      split at h
      · rename_i hitems
        obtain rfl := Option.some.inj h
        refine ⟨?_, Value.exists_isOperand_items items⟩
        cases items with
        | nil => cases hitems
        | cons v items => exact List.cons_ne_nil _ _
      · cases h
    | _ => cases h

end Expression

/-- The dialect introduces rows with `VALUES` or with nothing. -/
def Dialect.PlainRows (d : Dialect) : Prop :=
  d.rowsIntroduction = [] ∨ d.rowsIntroduction = ["VALUES"]

namespace Predicate

variable {d : Dialect}

theorem exists_isOperand_rightTokens (hd : d.PlainRows) (left : Expression) (op : Operator)
    (right : Expression) : ∃ ts, IsOperand (rightTokens d left op right) ts := by
  rw [rightTokens]
  split
  · cases hrows : right.rowsTokens with
    | none => exact right.exists_isOperand
    | some rows =>
      obtain ⟨hne, hrows⟩ := Expression.rowsTokens_eq_some hrows
      obtain ⟨trees, hnests, htrees⟩ := exists_operands hrows
      have htreesNe : trees ≠ [] := by
        rintro rfl
        cases hnests
        exact hne rfl
      have hlist := isOperandList_commas htreesNe htrees
      rw [Option.elim_some, Dialect.rowListTokens]
      rcases hd with hd | hd
      · rw [hd]
        exact ⟨_, isOperand_of_parens (Nests.commas hnests) hlist.1⟩
      · rw [hd]
        exact ⟨_, isOperand_of_parens ((nests_keywords ["VALUES"]).append (Nests.commas hnests))
          hlist.2⟩
  · exact right.exists_isOperand

/-! ### What predicates are read as -/

variable {v : Comparison → Truth} {x y : Truth}

theorem readOperator_append (op : Operator) {ts : List Nested}
    (h : ∀ t ∈ ts.head?, t.isOperandPart) :
    readOperator (op.tokens.map Nested.token ++ ts) = some (op, ts) := by
  cases op with
  | is =>
    -- what follows is no `NOT`, because an operand does not begin with a keyword
    rw [Operator.tokens, List.map_singleton, List.singleton_append, readOperator]
    rintro rest rfl
    cases h _ rfl
  | _ => rfl

theorem isToken_connective_of_mem {op : Operator} {c : Connective} {o : Token}
    (h : o ∈ op.tokens) : (Nested.token o).isToken (keyword c.keyword) = false := by
  revert o
  cases op <;> cases c <;> decide

/-- The operator ends the left operand, because no part of an operand is an operator. -/
theorem ofNested_comparison {left right : List Token} (op : Operator) {ts us : List Nested}
    (hleft : IsOperand left ts) (hright : IsOperand right us) :
    Comparison.ofNested (ts ++ op.tokens.map Nested.token ++ us) = some ⟨left, op, right⟩ := by
  have hop : ∀ t ∈ (op.tokens.map Nested.token ++ us).head?, t.isOperandPart = false := by
    cases op <;> simp [Operator.tokens, isOperandPart, isAtom]
  have hhead : ∀ t ∈ us.head?, t.isOperandPart := fun t ht =>
    hright.parts t (List.mem_of_mem_head? ht)
  rw [List.append_assoc, Comparison.ofNested, Text.takeWhile_append hleft.parts hop,
    Text.dropWhile_append hleft.parts hop, readOperator_append op hhead]
  simp [hleft.areOperand, hright.areOperand, hleft.nests.flatten_eq, hright.nests.flatten_eq]

theorem isElement_comparison {left right : List Token} (op : Operator) {ts us : List Nested}
    (hleft : IsOperand left ts) (hright : IsOperand right us) :
    IsElement v (ts ++ op.tokens.map Nested.token ++ us) (v ⟨left, op, right⟩) where
  not_connective := by
    intro c t ht
    simp only [List.mem_append] at ht
    rcases ht with (ht | ht) | ht
    · exact isToken_eq_false_of_isOperandPart (hleft.parts t ht) rfl
    · obtain ⟨o, ho, rfl⟩ := List.mem_map.1 ht
      exact isToken_connective_of_mem ho
    · exact isToken_eq_false_of_isOperandPart (hright.parts t ht) rfl
  means := by
    have hoperand : 0 < ts.length := List.length_pos_iff.2 hleft.ne_nil
    have hop : 0 < op.tokens.length := by cases op <;> simp [Operator.tokens]
    have hlength : 1 < (ts ++ op.tokens.map Nested.token ++ us).length := by
      rw [List.length_append, List.length_append, List.length_map]
      omega
    rw [element_withFormulas hlength, ofNested_comparison op hleft hright]
    rfl

/-- The tokens of the predicate are read as a condition with the truth value. Unless it is a chain,
it has no connective outside parentheses. -/
def Reads (d : Dialect) (v : Comparison → Truth) (p : Predicate) (x : Truth) : Prop :=
  ∃ ts, Nests (p.tokens d) ts ∧ Means v (ofNested ts) x ∧ (p.isChain = false → IsElement v ts x)

theorem reads_of_isElement {p : Predicate} {ts : List Nested} (hnests : Nests (p.tokens d) ts)
    (h : IsElement v ts x) : p.Reads d v x :=
  ⟨ts, hnests, h.means_ofNested, fun _ => h⟩

theorem Reads.unique {p : Predicate} (hx : p.Reads d v x) (hy : p.Reads d v y) : x = y := by
  obtain ⟨ts, hts, hx, -⟩ := hx
  obtain ⟨us, hus, hy, -⟩ := hy
  obtain rfl : ts = us := Option.some.inj (hts.ofTokens_eq.symm.trans hus.ofTokens_eq)
  exact hx.unique hy

theorem reads_literal (b : Bool) : (literal b).Reads d v (.ofBool b) :=
  reads_of_isElement (nests_token (by simp [IsInner]) : Nests [.boolean b] _)
    ⟨by simp [isToken], rfl⟩

theorem reads_compare (hd : d.PlainRows) (left : Expression) (op : Operator) (right : Expression) :
    (compare left op right).Reads d v (v ⟨left.tokens, op, rightTokens d left op right⟩) := by
  obtain ⟨ts, hleft⟩ := left.exists_isOperand
  obtain ⟨us, hright⟩ := exists_isOperand_rightTokens hd left op right
  have hop : Nests op.tokens (op.tokens.map Nested.token) := by
    apply nests_tokens
    cases op <;> decide
  exact reads_of_isElement ((hleft.nests.append hop).append hright.nests)
    (isElement_comparison op hleft hright)

/-- The components behind the first one, each in parentheses and with its connective. -/
theorem exists_restTrees {rest : List (Connective × Predicate)} {values : List (Connective × Truth)}
    (h : Valued (Reads d v) rest values) :
    ∃ trees, Nests (restTokens d rest) (restTrees trees) ∧
      Valued (IsElement v) trees values := by
  induction h with
  | nil => exact ⟨[], nests_nil, .nil⟩
  | @cons component value rest values hcomponent _ ih =>
    obtain ⟨c, p⟩ := component
    obtain ⟨hc, ts, hts, hmeans, -⟩ := hcomponent
    obtain ⟨trees, hnests, htrees⟩ := ih
    exact ⟨(c, [.parens ts]) :: trees,
      ((nests_token (isInner_keyword c.keyword)).append hts.parens).append hnests,
      .cons ⟨hc, isElement_parens hmeans⟩ htrees⟩

/-- A chain is read as its connectives bind. -/
theorem reads_chain {first : Predicate} {rest : List (Connective × Predicate)}
    {values : List (Connective × Truth)} (hfirst : first.Reads d v x)
    (hrest : Valued (Reads d v) rest values) :
    (chain first rest).Reads d v (x.precedence values) := by
  obtain ⟨ts, hts, hmeans, helement⟩ := hfirst
  obtain ⟨trees, hnests, htrees⟩ := exists_restTrees hrest
  -- the first component stands in parentheses if a connective could tear it apart
  have hfront : ∃ us, Nests (if first.isChain then parens (first.tokens d) else first.tokens d) us ∧
      IsElement v us x := by
    cases hchain : first.isChain with
    | true => exact ⟨_, hts.parens, isElement_parens hmeans⟩
    | false => exact ⟨ts, hts, helement hchain⟩
  obtain ⟨us, hus, hfront⟩ := hfront
  refine ⟨us ++ restTrees trees, hus.append hnests, ?_, nofun⟩
  exact means_chain htrees (hfront.not_connective .or) hfront.means_conjunction

mutual

/-- Every predicate is read as a condition. -/
theorem exists_reads (hd : d.PlainRows) (v : Comparison → Truth) :
    ∀ p : Predicate, ∃ x, p.Reads d v x
  | literal b => ⟨_, reads_literal b⟩
  | compare left op right => ⟨_, reads_compare hd left op right⟩
  | chain first rest => by
    obtain ⟨x, hfirst⟩ := exists_reads hd v first
    obtain ⟨values, hrest⟩ := exists_reads_rest hd v rest
    exact ⟨_, reads_chain hfirst hrest⟩

theorem exists_reads_rest (hd : d.PlainRows) (v : Comparison → Truth) :
    ∀ rest : List (Connective × Predicate), ∃ values : List (Connective × Truth),
      Valued (Reads d v) rest values
  | [] => ⟨[], .nil⟩
  | (c, p) :: rest => by
    obtain ⟨x, hx⟩ := exists_reads hd v p
    obtain ⟨values, hvalues⟩ := exists_reads_rest hd v rest
    exact ⟨(c, x) :: values, .cons ⟨rfl, hx⟩ hvalues⟩

end

/-- A call joins the new condition to all of the predicate in front of it. -/
theorem reads_extend (hd : d.PlainRows) (c : Connective) {p q : Predicate} (hx : p.Reads d v x)
    (hy : q.Reads d v y) : (extend c p q).Reads d v (c.apply x y) := by
  have hlast : Valued (Reads d v) [(c, q)] [(c, y)] :=
    .cons ⟨rfl, hy⟩ .nil
  have hgrouped : (chain p [(c, q)]).Reads d v (c.apply x y) := by
    have hchain := reads_chain hx hlast
    rwa [← List.nil_append [(c, y)], Truth.precedence_append_singleton y x (by simp)] at hchain
  cases p with
  | literal b => exact hgrouped
  | compare left op right => exact hgrouped
  | chain first rest =>
    rw [extend]
    split
    · rename_i hall
      obtain ⟨x₀, hfirst⟩ := exists_reads hd v first
      obtain ⟨values, hrest⟩ := exists_reads_rest hd v rest
      obtain rfl := (reads_chain hfirst hrest).unique hx
      -- the connectives of the values are those of the chain, which all agree
      have hvalues : ∀ value ∈ values, value.1 = c := by
        have hc : ∀ component ∈ rest, component.1 = c := by simpa using hall
        clear hlast hgrouped hx hall
        induction hrest with
        | nil => simp
        | cons hcomponent _ ih =>
          obtain ⟨hhead, htail⟩ := List.forall_mem_cons.1 hc
          exact List.forall_mem_cons.2 ⟨hcomponent.1.symm.trans hhead, ih htail⟩
      rw [← Truth.precedence_append_singleton y x₀ hvalues]
      exact reads_chain hfirst (List.rel_append hrest hlast)
    · exact hgrouped

/-- A row of calls joins one condition after the other. -/
theorem reads_foldl (hd : d.PlainRows) {calls : List (Connective × Predicate)}
    {values : List (Connective × Truth)}
    (hcalls : Valued (Reads d v) calls values)
    {p : Predicate} (hp : p.Reads d v x) :
    (calls.foldl (fun p call => extend call.1 p call.2) p).Reads d v
      (values.foldl (fun x value => value.1.apply x value.2) x) := by
  induction hcalls generalizing p x with
  | nil => exact hp
  | @cons call value calls values hcall _ ih =>
    obtain ⟨hc, hq⟩ := hcall
    rw [List.foldl_cons, List.foldl_cons, hc]
    exact ih (reads_extend hd value.1 hp hq)

/-! ### The text of a predicate -/

/-- The predicate has a text. -/
def HasText (d : Dialect) (p : Predicate) : Prop := ∃ sql, p.sql d = .ok sql

theorem exists_restSql_iff {rest : List (Connective × Predicate)} :
    (∃ sql, restSql d rest = .ok sql) ↔ ∀ component ∈ rest, component.2.HasText d := by
  induction rest with
  | nil => simp [restSql]
  | cons component rest ih =>
    obtain ⟨c, p⟩ := component
    rw [List.forall_mem_cons, ← ih]
    simp only [restSql, Outcome.bind_eq_ok, Outcome.pure_eq_ok, HasText]
    constructor
    · rintro ⟨_, a, ha, b, hb, -⟩
      exact ⟨⟨a, ha⟩, b, hb⟩
    · rintro ⟨⟨a, ha⟩, b, hb⟩
      exact ⟨_, a, ha, b, hb, rfl⟩

theorem hasText_chain_iff {first : Predicate} {rest : List (Connective × Predicate)} :
    (chain first rest).HasText d ↔
      first.HasText d ∧ ∀ component ∈ rest, component.2.HasText d := by
  rw [← exists_restSql_iff]
  simp only [HasText, Predicate.sql, Outcome.bind_eq_ok, Outcome.pure_eq_ok]
  constructor
  · rintro ⟨_, a, ha, b, hb, -⟩
    exact ⟨⟨a, ha⟩, b, hb⟩
  · rintro ⟨⟨a, ha⟩, b, hb⟩
    exact ⟨_, a, ha, b, hb, rfl⟩

theorem HasText.extend {p q : Predicate} (hp : p.HasText d) (hq : q.HasText d) (c : Connective) :
    (Predicate.extend c p q).HasText d := by
  have hgrouped : (chain p [(c, q)]).HasText d := hasText_chain_iff.2 ⟨hp, by simpa using hq⟩
  cases p with
  | literal b => exact hgrouped
  | compare left op right => exact hgrouped
  | chain first rest =>
    rw [Predicate.extend]
    split
    · obtain ⟨hfirst, hrest⟩ := hasText_chain_iff.1 hp
      refine hasText_chain_iff.2 ⟨hfirst, ?_⟩
      simpa [or_imp, forall_and] using ⟨fun c p h => hrest (c, p) h, hq⟩
    · exact hgrouped

theorem HasText.foldl {calls : List (Connective × Predicate)} {p : Predicate} (hp : p.HasText d)
    (hcalls : ∀ call ∈ calls, call.2.HasText d) :
    (calls.foldl (fun p call => Predicate.extend call.1 p call.2) p).HasText d := by
  induction calls generalizing p with
  | nil => exact hp
  | cons call calls ih =>
    obtain ⟨hcall, hcalls⟩ := List.forall_mem_cons.1 hcalls
    exact ih (hp.extend hcall call.1) hcalls

/-- The truth value of the text of a predicate, given those of the comparisons in it; none if there
is no text, or if it is no condition. -/
def value (d : Dialect) (v : Comparison → Truth) (p : Predicate) : Option Truth :=
  (p.sql d).toOption.bind fun sql => (Formula.read d.style sql.text).map (Formula.eval v)

theorem value_of_reads (hd : d.Lexical) {p : Predicate} (htext : p.HasText d) (h : p.Reads d v x) :
    p.value d v = some x := by
  obtain ⟨sql, hsql⟩ := htext
  obtain ⟨ts, hts, hmeans, -⟩ := h
  rw [value, hsql, Except.toOption, Option.bind_some, Formula.read, (writes_sql hd p hsql).lex_text,
    Option.bind_some, Formula.ofTokens, hts.ofTokens_eq]
  exact hmeans

theorem forall₂_value_of_reads (hd : d.Lexical) {rest : List (Connective × Predicate)}
    {values : List (Connective × Truth)} (htext : ∀ component ∈ rest, component.2.HasText d)
    (h : Valued (Reads d v) rest values) :
    Valued (fun p x => p.value d v = some x) rest values := by
  induction h with
  | nil => exact .nil
  | cons hcomponent _ ih =>
    obtain ⟨hhead, htail⟩ := List.forall_mem_cons.1 htext
    exact .cons ⟨hcomponent.1, value_of_reads hd hhead hcomponent.2⟩ (ih htail)

/-- **Predicates mean what was built.** The text of a predicate is a condition. Truth literals and
comparisons have their own truth value; `and` and `or` join those of two predicates, also when they
are called again and again; and a chain that was put together by hand is read as `AND` and `OR`
bind. -/
theorem value_eq_of_built (hd : d.Lexical) (hrows : d.PlainRows) (v : Comparison → Truth) :
    (∀ b, (literal b).value d v = some (.ofBool b)) ∧
    (∀ left op right, (compare left op right).HasText d →
      (compare left op right).value d v =
        some (v ⟨left.tokens, op, rightTokens d left op right⟩)) ∧
    (∀ p q : Predicate, p.HasText d → q.HasText d → ∃ x y,
      p.value d v = some x ∧ q.value d v = some y ∧
      (p.and q).value d v = some (x.and y) ∧ (p.or q).value d v = some (x.or y)) ∧
    (∀ first rest, (chain first rest).HasText d → ∃ x values, first.value d v = some x ∧
      Valued (fun p x => p.value d v = some x) rest values ∧
      (chain first rest).value d v = some (x.precedence values)) ∧
    ∀ p (calls : List (Connective × Predicate)), p.HasText d →
      (∀ call ∈ calls, call.2.HasText d) → ∃ x values, p.value d v = some x ∧
      Valued (fun p x => p.value d v = some x) calls values ∧
      (calls.foldl (fun p call => extend call.1 p call.2) p).value d v =
        some (values.foldl (fun x value => value.1.apply x value.2) x) := by
  refine ⟨?_, ?_, ?_, ?_, ?_⟩
  · intro b
    exact value_of_reads hd ⟨_, rfl⟩ (reads_literal b)
  · intro left op right htext
    exact value_of_reads hd htext (reads_compare hrows left op right)
  · intro p q hp hq
    obtain ⟨x, hx⟩ := exists_reads hrows v p
    obtain ⟨y, hy⟩ := exists_reads hrows v q
    exact ⟨x, y, value_of_reads hd hp hx, value_of_reads hd hq hy,
      value_of_reads hd (hp.extend hq .and) (reads_extend hrows .and hx hy),
      value_of_reads hd (hp.extend hq .or) (reads_extend hrows .or hx hy)⟩
  · intro first rest htext
    obtain ⟨hfirst, hrest⟩ := hasText_chain_iff.1 htext
    obtain ⟨x, hx⟩ := exists_reads hrows v first
    obtain ⟨values, hvalues⟩ := exists_reads_rest hrows v rest
    exact ⟨x, values, value_of_reads hd hfirst hx, forall₂_value_of_reads hd hrest hvalues,
      value_of_reads hd htext (reads_chain hx hvalues)⟩
  · intro p calls hp hcalls
    obtain ⟨x, hx⟩ := exists_reads hrows v p
    obtain ⟨values, hvalues⟩ := exists_reads_rest hrows v calls
    exact ⟨x, values, value_of_reads hd hp hx, forall₂_value_of_reads hd hcalls hvalues,
      value_of_reads hd (hp.foldl hcalls) (reads_foldl hrows hvalues hx)⟩

/-- The same three conditions, joined by calls and put together by hand: the calls end with a
conjunction, and the text of the chain is a disjunction. -/
theorem value_eq_of_built_calls_and_chain :
    let v : Comparison → Truth := fun c => if c.op = .is then .unknown else .holds
    let p := literal true
    let q := compare (.literal (.integer 1)) .is (.literal .null)
    let r := literal false
    ((p.or q).and r).value .sqlite v = some .fails ∧
      (chain p [(.or, q), (.and, r)]).value .sqlite v = some .holds := by
  intro v p q r
  have hp : p.HasText .sqlite := ⟨_, rfl⟩
  have hq : q.HasText .sqlite := ⟨_, rfl⟩
  have hr : r.HasText .sqlite := ⟨_, rfl⟩
  obtain ⟨hliteral, hcompare, hcalls, hchain, -⟩ :=
    value_eq_of_built Dialect.lexical_sqlite (.inr rfl) v
  have hpvalue : p.value .sqlite v = some .holds := hliteral true
  have hqvalue : q.value .sqlite v = some .unknown := hcompare _ _ _ hq
  have hrvalue : r.value .sqlite v = some .fails := hliteral false
  constructor
  · obtain ⟨x, y, hx, hy, -, hor⟩ := hcalls p q hp hq
    obtain rfl := Option.some.inj (hpvalue.symm.trans hx)
    obtain ⟨z, w, hz, hw, hand, -⟩ := hcalls (p.or q) r (hp.extend hq .or) hr
    obtain rfl := Option.some.inj (hor.symm.trans hz)
    obtain rfl := Option.some.inj (hrvalue.symm.trans hw)
    rw [hand]
    rfl
  · obtain ⟨x, values, hx, hvalues, hvalue⟩ :=
      hchain p [(.or, q), (.and, r)] (hasText_chain_iff.2 ⟨hp, by simp [hq, hr]⟩)
    obtain rfl := Option.some.inj (hpvalue.symm.trans hx)
    cases hvalues with
    | @cons _ y _ values hy hvalues =>
      -- whatever comes after it, a disjunction whose first condition holds does hold
      obtain ⟨c, y⟩ := y
      obtain rfl : Connective.or = c := hy.1
      rw [hvalue]
      rfl

end Predicate

end Discography
