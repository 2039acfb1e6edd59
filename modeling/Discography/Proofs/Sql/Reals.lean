import Discography.Sql.Literal

/-!
# Reals that have no literal

Whether something can be written depends on its reals alone. Nothing else is ever refused, no real
is passed over, and what a refusal names is one of the reals. This is kept by writing one part after
the other, so it holds of values of any depth, and of all that is written from them.

## Main definitions

* `Value.reals`: the reals in a value
* `DecidedBy`: what is written depends on the given reals

## Main results

* `DecidedBy.exists_ok_iff`: what is written if its reals are finite
* `DecidedBy.bind`, `decidedBy_mapM`: parts that are written one after the other
* `Value.decidedBy_sql`: the literal of a value
-/

namespace Discography

/-- What is written needs all of the reals to be finite, and is refused for one that is not. -/
def DecidedBy {α : Type} (reals : List Binary64) : Except NoLiteral α → Prop
  | .ok _ => ∀ x ∈ reals, x.isFinite
  | .error cause => cause.value ∈ reals ∧ cause.value.isFinite = false

section

variable {α β : Type} {reals others : List Binary64} {written : Except NoLiteral α}

theorem decidedBy_ok (a : α) : DecidedBy [] (.ok a) := List.forall_mem_nil _

theorem DecidedBy.exists_ok_iff (h : DecidedBy reals written) :
    (∃ a, written = .ok a) ↔ ∀ x ∈ reals, x.isFinite := by
  cases written with
  | ok a => exact iff_of_true ⟨a, rfl⟩ h
  | error cause =>
    refine iff_of_false nofun fun hfinite => ?_
    simpa [h.2] using hfinite _ h.1

/-- Only the members of a list of reals matter. -/
theorem DecidedBy.of_mem_iff (h : DecidedBy reals written) (hmem : ∀ x, x ∈ reals ↔ x ∈ others) :
    DecidedBy others written := by
  cases written with
  | ok a => exact fun x hx => h x ((hmem x).mpr hx)
  | error cause => exact ⟨(hmem _).mp h.1, h.2⟩

/-- A part is written behind another one, so it is reached only if that one has been written. -/
theorem DecidedBy.bind {f : α → Except NoLiteral β} (h : DecidedBy reals written)
    (hf : ∀ a, written = .ok a → DecidedBy others (f a)) :
    DecidedBy (reals ++ others) (written >>= f) := by
  cases written with
  | error cause => exact ⟨List.mem_append_left _ h.1, h.2⟩
  | ok a =>
    have hrest := hf a rfl
    change DecidedBy (reals ++ others) (f a)
    cases hwritten : f a with
    | ok b =>
      rw [hwritten] at hrest
      exact List.forall_mem_append.mpr ⟨h, hrest⟩
    | error cause =>
      rw [hwritten] at hrest
      exact ⟨List.mem_append_right _ hrest.1, hrest.2⟩

/-- Nothing is refused by what is done with a text afterwards. -/
theorem DecidedBy.bind_pure (h : DecidedBy reals written) (f : α → β) :
    DecidedBy reals (do return f (← written)) := by
  cases written <;> exact h

theorem DecidedBy.map (h : DecidedBy reals written) (f : α → β) :
    DecidedBy reals (written.map f) := by
  cases written <;> exact h

theorem decidedBy_mapM {f : α → Except NoLiteral β} {reals : α → List Binary64} {items : List α}
    (h : ∀ a ∈ items, DecidedBy (reals a) (f a)) :
    DecidedBy (items.flatMap reals) (items.mapM f) := by
  induction items with
  | nil => exact decidedBy_ok []
  | cons a items ih =>
    obtain ⟨ha, hitems⟩ := List.forall_mem_cons.mp h
    rw [List.mapM_cons, List.flatMap_cons]
    exact ha.bind fun b _ => (ih hitems).bind_pure (b :: ·)

end

namespace Value

mutual

/-- The reals in a value, from left to right. -/
def reals : Value → List Binary64
  | .real x => [x]
  | .list items => itemsReals items
  | _ => []

/-- The reals in the values of a list. -/
def itemsReals : List Value → List Binary64
  | [] => []
  | v :: rest => v.reals ++ itemsReals rest

end

variable (style : TextStyle)

mutual

/-- The literal of a value depends on its reals. -/
theorem decidedBy_sql : ∀ v : Value, DecidedBy v.reals (v.sql style)
  | .null | .boolean _ | .integer _ | .text _ | .blob _ => decidedBy_ok _
  | .real x => by
    rw [sql, reals]
    split
    · exact List.forall_mem_singleton.mpr ‹_›
    · exact ⟨List.mem_singleton_self x, Bool.eq_false_iff.mpr ‹_›⟩
  | .list items => by
    rw [sql, reals]
    exact (decidedBy_itemsSql items).bind_pure _

theorem decidedBy_itemsSql : ∀ items : List Value,
    DecidedBy (itemsReals items) (itemsSql style items)
  | [] => decidedBy_ok []
  | v :: rest => by
    rw [itemsSql, itemsReals]
    exact (decidedBy_sql v).bind fun first _ => (decidedBy_itemsSql rest).bind_pure (first :: ·)

end

end Value

end Discography
