import Discography.Proofs.Filter.Meaning

/-!
# The truth value of a predicate

The truth value of a predicate, computed from those of its comparisons by recursion over it. It is
the truth value of the text of the predicate.

## Main definitions

* `Predicate.truth`: the truth value of a predicate
* `Predicate.truth?`: that of a condition that may be absent

## Main results

* `Predicate.value_eq_truth`: the text of a predicate has the same truth value
* `Predicate.truth_extend`, `Predicate.truth_foldl`: the truth value of predicates that were added
-/

namespace Discography.Predicate

variable {d : Dialect} {v : Expression → Operator → Expression → Truth} {p : Predicate}

mutual

/-- The truth value of a predicate, given those of the comparisons. -/
def truth (v : Expression → Operator → Expression → Truth) : Predicate → Truth
  | literal b => .ofBool b
  | compare left op right => v left op right
  | chain first rest => (truth v first).precedence (restTruths v rest)

/-- The truth values of the later components of a chain. -/
def restTruths (v : Expression → Operator → Expression → Truth) :
    List (Connective × Predicate) → List (Connective × Truth)
  | [] => []
  | (c, p) :: rest => (c, truth v p) :: restTruths v rest

end

/-- The truth value of a condition that may be absent; without one, every row passes. -/
def truth? (v : Expression → Operator → Expression → Truth) (p : Option Predicate) : Truth :=
  p.elim .holds (truth v)

theorem restTruths_eq_map (rest : List (Connective × Predicate)) :
    restTruths v rest = rest.map fun component => (component.1, component.2.truth v) := by
  induction rest with
  | nil => rfl
  | cons component rest ih => rw [restTruths, ih, List.map_cons]

/-- An addition joins the new condition to all of the predicate in front of it. -/
theorem truth_extend (c : Connective) (p q : Predicate) :
    (extend c p q).truth v = c.apply (p.truth v) (q.truth v) := by
  have hgrouped : (chain p [(c, q)]).truth v = c.apply (p.truth v) (q.truth v) := by
    cases c <;> rfl
  cases p with
  | literal b => exact hgrouped
  | compare left op right => exact hgrouped
  | chain first rest =>
    rw [extend]
    split
    · rename_i hall
      have hvalues : ∀ value ∈ restTruths v rest, value.1 = c := by
        rw [restTruths_eq_map, List.forall_mem_map]
        simpa using hall
      rw [truth, truth, ← Truth.precedence_append_singleton _ _ hvalues, restTruths_eq_map,
        restTruths_eq_map, List.map_append]
      rfl
    · exact hgrouped

theorem truth_foldl (additions : List (Connective × Predicate)) (p : Predicate) :
    (additions.foldl (fun p a => extend a.1 p a.2) p).truth v =
      additions.foldl (fun x a => a.1.apply x (a.2.truth v)) (p.truth v) := by
  induction additions generalizing p with
  | nil => rfl
  | cons a additions ih => rw [List.foldl_cons, List.foldl_cons, ih, truth_extend]

/-! ### Texts -/

/-- The truth values of comparisons, given those of their texts. -/
def ofTexts (d : Dialect) (v : Comparison → Truth) (left : Expression) (op : Operator)
    (right : Expression) : Truth :=
  v ⟨left.tokens, op, rightTokens d left op right⟩

mutual

/-- A predicate is read as a condition with its truth value. -/
theorem reads_truth (hd : d.PlainRows) (v : Comparison → Truth) :
    ∀ p : Predicate, p.Reads d v (p.truth (ofTexts d v))
  | literal b => reads_literal b
  | compare left op right => reads_compare hd left op right
  | chain first rest => reads_chain (reads_truth hd v first) (valued_restTruths hd v rest)

theorem valued_restTruths (hd : d.PlainRows) (v : Comparison → Truth) :
    ∀ rest : List (Connective × Predicate),
      Connective.Valued (Reads d v) rest (restTruths (ofTexts d v) rest)
  | [] => .nil
  | (_, p) :: rest => .cons ⟨rfl, reads_truth hd v p⟩ (valued_restTruths hd v rest)

end

/-- The text of a predicate, read as SQL reads it, has the predicate's truth value. -/
theorem value_eq_truth (hd : d.Lexical) (hrows : d.PlainRows) (v : Comparison → Truth)
    (htext : p.HasText d) : p.value d v = some (p.truth (ofTexts d v)) :=
  value_of_reads hd htext (reads_truth hrows v p)

end Discography.Predicate
