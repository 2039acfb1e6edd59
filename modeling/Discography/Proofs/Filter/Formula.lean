import Discography.Filter.Predicate
import Discography.Proofs.Sql.Nesting
import Discography.Proofs.Sql.Truth

/-!
# Conditions as a database reads them

The grammar of conditions. Parentheses bind first, then comparisons, then `AND`, then `OR`; a
connective joins from the left. An operand of a comparison is a literal, a name with or without the
name of its table, or a list of operands in parentheses, which `VALUES` may introduce. What a
comparison amounts to is up to the database, so the truth value of a formula depends on those of its
comparisons.

## Main definitions

* `Comparison`, `Formula`: what is read
* `Formula.read`: the formula of a text
* `Formula.eval`: the truth value of a formula
* `Truth.precedence`: the truth value of conditions in a row, with connectives between them

## Main results

* `Formula.means_chain`: conditions in a row are read as precedence has it
-/

namespace Discography

/-! ### Truth values -/

/-- The truth value of two conditions with a connective between them. -/
def Connective.apply : Connective → Truth → Truth → Truth
  | and => Truth.and
  | or => Truth.or

instance Connective.associative_apply (c : Connective) : Std.Associative c.apply := by
  constructor
  intro x y z
  cases c <;> cases x <;> cases y <;> cases z <;> rfl

/-- The truth value of conditions in a row, given those of the conditions. A conjunction is
completed before the disjunction that it stands in. -/
def Truth.precedence (x : Truth) : List (Connective × Truth) → Truth
  | [] => x
  | (.and, y) :: rest => (x.and y).precedence rest
  | (.or, y) :: rest => x.or (y.precedence rest)

/-- Conditions and truth values in a row, with the same connectives and each value related to its
condition. -/
abbrev Connective.Valued {α : Type} (R : α → Truth → Prop) :
    List (Connective × α) → List (Connective × Truth) → Prop :=
  List.Forall₂ fun a b => a.1 = b.1 ∧ R a.2 b.2

/-- As long as all connectives agree, a further condition is read last. -/
theorem Truth.precedence_append_singleton {c : Connective} (y : Truth) :
    ∀ (x : Truth) {rest : List (Connective × Truth)}, (∀ component ∈ rest, component.1 = c) →
      x.precedence (rest ++ [(c, y)]) = c.apply (x.precedence rest) y
  | x, [], _ => by cases c <;> rfl
  | x, (c', y') :: rest, h => by
    obtain ⟨rfl, hrest⟩ := List.forall_mem_cons.1 h
    cases c' with
    | and => exact precedence_append_singleton y (x.and y') hrest
    | or =>
      rw [List.cons_append, precedence, precedence_append_singleton y y' hrest, precedence]
      exact (Connective.or.associative_apply.assoc x (y'.precedence rest) y).symm

/-! ### Formulas -/

/-- A comparison, as it stands in a text. -/
structure Comparison where
  left : List Token
  op : Operator
  right : List Token

/-- A condition, as it is read. -/
inductive Formula where
  | literal (b : Bool)
  | comparison (c : Comparison)
  | connect (c : Connective) (p q : Formula)

/-- The truth value of a formula, given those of its comparisons. -/
def Formula.eval (v : Comparison → Truth) : Formula → Truth
  | literal b => .ofBool b
  | comparison c => v c
  | connect c p q => c.apply (p.eval v) (q.eval v)

/-! ### Comparisons -/

/-- A literal or a name. -/
def Token.isAtom : Token → Bool
  | keyword _ | punctuation _ => false
  | _ => true

namespace Nested

open Token

/-- Whether trees are one operand, given for each of them whether it is one by itself. -/
def isOperandGroup : List (Nested × Bool) → Bool
  | [(_, isOperand)] => isOperand
  | [(.token (.name _), _), (dot, _), (.token (.name _), _)] => dot.isToken (punctuation ".")
  | _ => false

/-- Whether trees in parentheses are operands with commas between them, of which there may be none
unless `VALUES` introduces them. -/
def isOperandList : List (Nested × Bool) → Bool
  | [] => true
  | t :: rest =>
    (splitCommas (if t.1.isToken (keyword "VALUES") then rest else t :: rest)).all isOperandGroup

/-- Whether a tree is an operand. -/
def isOperand (t : Nested) : Bool := t.fold isAtom isOperandList

/-- Whether trees are an operand. -/
def areOperand (ts : List Nested) : Bool := isOperandGroup (ts.map fun t => (t, t.isOperand))

/-- Whether an operand may contain the tree as one of its parts. -/
def isOperandPart : Nested → Bool
  | .token t => t.isAtom || t = punctuation "."
  | .parens _ => true

/-- The operator at the front, and the trees behind it. -/
def readOperator : List Nested → Option (Operator × List Nested)
  | .token (.punctuation "=") :: rest => some (.eq, rest)
  | .token (.punctuation "<>") :: rest => some (.notEq, rest)
  | .token (.keyword "IN") :: rest => some (.isIn, rest)
  | .token (.keyword "IS") :: .token (.keyword "NOT") :: rest => some (.isNot, rest)
  | .token (.keyword "IS") :: rest => some (.is, rest)
  | _ => none

end Nested

/-- Reads trees as a comparison. -/
def Comparison.ofNested (ts : List Nested) : Option Comparison :=
  let left := ts.takeWhile Nested.isOperandPart
  (Nested.readOperator (ts.dropWhile Nested.isOperandPart)).bind fun (op, right) =>
    if Nested.areOperand left && Nested.areOperand right then
      some ⟨Nested.flatten left, op, Nested.flatten right⟩
    else none

/-! ### Reading -/

namespace Formula

/-- The formula of a token that is a condition by itself. -/
def ofToken : Token → Option Formula
  | .boolean b => some (literal b)
  | _ => none

/-- Reads trees without a connective between them, given the formula of each tree that is a
condition by itself. -/
def element : List (Nested × Option Formula) → Option Formula
  | [(_, formula)] => formula
  | ts => (Comparison.ofNested (ts.map Prod.fst)).map comparison

/-- Formulas in a row, joined from the left. -/
def join (c : Connective) : List Formula → Option Formula
  | [] => none
  | p :: rest => some (rest.foldl (connect c) p)

/-- The tree is the keyword of the connective. -/
def isKeyword (c : Connective) (t : Nested × Option Formula) : Bool :=
  t.1.isToken (.keyword c.keyword)

/-- Reads the trees between the keywords of a connective and joins the formulas. -/
def junction (c : Connective) (read : List (Nested × Option Formula) → Option Formula)
    (ts : List (Nested × Option Formula)) : Option Formula :=
  ((ts.splitOnP (isKeyword c)).mapM read).bind (join c)

/-- Reads conditions with `AND` between them. -/
def conjunction : List (Nested × Option Formula) → Option Formula := junction .and element

/-- Reads conjunctions with `OR` between them. -/
def disjunction : List (Nested × Option Formula) → Option Formula := junction .or conjunction

/-- The formula of a tree that is a condition by itself. -/
def ofTree (t : Nested) : Option Formula := t.fold ofToken disjunction

/-- Trees, each with its formula if it is a condition by itself. -/
def withFormulas (ts : List Nested) : List (Nested × Option Formula) :=
  ts.map fun t => (t, ofTree t)

/-- The formula of trees. -/
def ofNested (ts : List Nested) : Option Formula := disjunction (withFormulas ts)

/-- The formula of a list of tokens. -/
def ofTokens (tokens : List Token) : Option Formula := (Nested.ofTokens tokens).bind ofNested

/-- The formula of a text. -/
def read (style : TextStyle) (text : String) : Option Formula :=
  (Lexer.lex style text).bind ofTokens

theorem ofTree_parens (inside : List Nested) : ofTree (.parens inside) = ofNested inside := by
  rw [ofTree, Nested.fold, Nested.foldAll_eq_map]
  rfl

/-- More than one tree is read as a comparison. -/
theorem element_withFormulas {ts : List Nested} (h : 1 < ts.length) :
    element (withFormulas ts) = (Comparison.ofNested ts).map comparison := by
  match ts, h with
  | t :: u :: ts, _ =>
    have hfst : (withFormulas (t :: u :: ts)).map Prod.fst = t :: u :: ts := by
      simp [withFormulas, Function.comp_def]
    exact congrArg (fun us => (Comparison.ofNested us).map comparison) hfst

/-! ### Meaning -/

variable {v : Comparison → Truth} {x y : Truth} {c : Connective}

/-- The formula was read and has the truth value. -/
def Means (v : Comparison → Truth) (formula : Option Formula) (x : Truth) : Prop :=
  formula.map (eval v) = some x

theorem Means.unique {formula : Option Formula} (hx : Means v formula x) (hy : Means v formula y) :
    x = y :=
  Option.some.inj (hx.symm.trans hy)

theorem eval_foldl (p : Formula) (qs : List Formula) :
    (qs.foldl (connect c) p).eval v = (qs.map (eval v)).foldl c.apply (p.eval v) := by
  induction qs generalizing p with
  | nil => rfl
  | cons q qs ih => exact ih (connect c p q)

/-- Joining formulas in a row means joining what those in front and those behind mean. -/
theorem means_join_append {ps qs : List Formula} (hx : Means v (join c ps) x)
    (hy : Means v (join c qs) y) : Means v (join c (ps ++ qs)) (c.apply x y) := by
  cases ps with
  | nil => cases hx
  | cons p ps =>
    cases qs with
    | nil => cases hy
    | cons q qs =>
      obtain rfl := Option.some.inj hx
      obtain rfl := Option.some.inj hy
      have hjoin : join c (p :: ps ++ q :: qs) = some ((ps ++ q :: qs).foldl (connect c) p) := rfl
      rw [hjoin, Means, Option.map_some, eval_foldl, eval_foldl, eval_foldl, List.map_append,
        List.foldl_append, List.map_cons, List.foldl_cons, List.foldl_assoc]

variable {read : List (Nested × Option Formula) → Option Formula}

/-- Without the connective there is one formula only. -/
theorem junction_of_forall {ts : List (Nested × Option Formula)}
    (h : ∀ t ∈ ts, isKeyword c t = false) : junction c read ts = read ts := by
  rw [junction, List.splitOnP_eq_singleton h]
  cases hread : read ts <;> simp [hread, join]

theorem means_junction_append {ts us : List (Nested × Option Formula)}
    {separator : Nested × Option Formula} (hsep : isKeyword c separator)
    (hx : Means v (junction c read ts) x) (hy : Means v (junction c read us) y) :
    Means v (junction c read (ts ++ separator :: us)) (c.apply x y) := by
  have hread : ∀ {ts : List (Nested × Option Formula)} {x : Truth},
      Means v (junction c read ts) x → ∃ ps : List Formula,
        (ts.splitOnP (isKeyword c)).mapM read = some ps ∧ Means v (join c ps) x := by
    intro ts x h
    obtain ⟨p, hp, rfl⟩ := Option.map_eq_some_iff.1 h
    obtain ⟨ps, hps, hjoin⟩ := Option.bind_eq_some_iff.1 hp
    exact ⟨ps, hps, congrArg _ hjoin⟩
  obtain ⟨ps, hps, hx⟩ := hread hx
  obtain ⟨qs, hqs, hy⟩ := hread hy
  rw [junction, List.splitOnP_append_cons _ _ hsep, List.mapM_append, hps, hqs]
  exact means_join_append hx hy

/-- Trees without a connective at their level that are read as a condition. -/
structure IsElement (v : Comparison → Truth) (ts : List Nested) (x : Truth) : Prop where
  not_connective : ∀ c : Connective, ∀ t ∈ ts, t.isToken (.keyword c.keyword) = false
  means : Means v (element (withFormulas ts)) x

theorem IsElement.forall_withFormulas {ts : List Nested} (h : IsElement v ts x) (c : Connective) :
    ∀ t ∈ withFormulas ts, isKeyword c t = false := by
  intro t ht
  obtain ⟨tree, htree, rfl⟩ := List.mem_map.1 ht
  exact h.not_connective c tree htree

theorem IsElement.means_conjunction {ts : List Nested} (h : IsElement v ts x) :
    Means v (conjunction (withFormulas ts)) x := by
  rw [conjunction, junction_of_forall (h.forall_withFormulas .and)]
  exact h.means

theorem IsElement.means_ofNested {ts : List Nested} (h : IsElement v ts x) :
    Means v (ofNested ts) x := by
  rw [ofNested, disjunction, junction_of_forall (h.forall_withFormulas .or)]
  exact h.means_conjunction

/-- A condition in parentheses. -/
theorem isElement_parens {inside : List Nested} (h : Means v (ofNested inside) x) :
    IsElement v [.parens inside] x where
  not_connective := by simp [Nested.isToken]
  means := by rwa [withFormulas, List.map_singleton, element, ofTree_parens]

/-- The trees of conditions behind a first one, each with the connective before it. -/
def restTrees (rest : List (Connective × List Nested)) : List Nested :=
  rest.flatMap fun component => .token (.keyword component.1.keyword) :: component.2

/-- **Precedence.** Conditions in a row are read as conjunctions with `OR` between them. -/
theorem means_chain {rest : List (Connective × List Nested)} {values : List (Connective × Truth)}
    (hrest : Connective.Valued (IsElement v) rest values)
    {first : List Nested} (hor : ∀ t ∈ first, t.isToken (.keyword Connective.or.keyword) = false)
    (hfirst : Means v (conjunction (withFormulas first)) x) :
    Means v (ofNested (first ++ restTrees rest)) (x.precedence values) := by
  -- the induction is on what is behind the conjunction that is being read
  have hwhole : ∀ {ts : List Nested} {x : Truth},
      (∀ t ∈ ts, t.isToken (.keyword Connective.or.keyword) = false) →
        Means v (conjunction (withFormulas ts)) x → Means v (disjunction (withFormulas ts)) x := by
    intro ts x hor h
    rw [disjunction, junction_of_forall]
    · exact h
    · simpa [withFormulas, isKeyword] using hor
  induction hrest generalizing first x with
  | nil =>
    rw [restTrees, List.flatMap_nil, List.append_nil]
    exact hwhole hor hfirst
  | @cons component value rest values hcomponent _ ih =>
    obtain ⟨c, ts⟩ := component
    obtain ⟨c', y⟩ := value
    obtain ⟨hc, helement⟩ := hcomponent
    obtain rfl : c = c' := hc
    cases c with
    | and =>
      have htrees : first ++ restTrees ((.and, ts) :: rest) =
          (first ++ .token (.keyword Connective.and.keyword) :: ts) ++ restTrees rest := by
        simp [restTrees]
      rw [htrees]
      refine ih ?_ ?_
      · simpa [or_imp, forall_and, Nested.isToken, Connective.keyword] using
          ⟨hor, helement.not_connective .or⟩
      · rw [withFormulas, List.map_append, List.map_cons]
        exact means_junction_append rfl hfirst helement.means_conjunction
    | or =>
      have htrees : withFormulas (first ++ restTrees ((.or, ts) :: rest)) =
          withFormulas first ++ (.token (.keyword Connective.or.keyword), none) ::
            withFormulas (ts ++ restTrees rest) := by
        simp [restTrees, withFormulas, ofTree, Nested.fold, ofToken]
      rw [ofNested, htrees]
      exact means_junction_append rfl (hwhole hor hfirst)
        (ih (helement.not_connective .or) helement.means_conjunction)

end Formula

end Discography
