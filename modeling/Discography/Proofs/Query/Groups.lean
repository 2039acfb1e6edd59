import Discography.Query.Mutation
import Mathlib.Data.Finset.Dedup
import Mathlib.Data.List.Induction
import Mathlib.Data.List.Perm.Basic

/-!
# Rows grouped by the columns that they assign

The groups of an insertion are those of its rows that assign the same set of columns. Each set has
one group, the sets stand in the order in which they appear first, and the rows of a group keep
their order. So grouping moves rows and does nothing else to them.

## Main definitions

* `byKey`: the items of each key
* `Assignments.columnSet`: the set of columns that a row assigns

## Main results

* `flatMap_byKey_perm`: grouping moves items and does nothing else to them
* `Query.groupRows_eq`: how rows are grouped
* `Query.byKey_columnSet`: one group for each set of columns
-/

namespace Discography

/-! ### First occurrences -/

/-- An induction in which any part of the tail may be dropped. -/
theorem induction_on_filter {α : Type} {motive : List α → Prop} (nil : motive [])
    (cons : ∀ a items, (∀ p : α → Bool, motive (items.filter p)) → motive (a :: items)) :
    ∀ items : List α, motive items
  | [] => nil
  | a :: items => cons a items fun p => induction_on_filter nil cons (items.filter p)
termination_by items => items.length
decreasing_by exact Nat.lt_succ_of_le (List.length_filter_le _ _)

section occurrences

variable {α β : Type} [DecidableEq α] [DecidableEq β]

theorem nodup_eraseDups (items : List α) : items.eraseDups.Nodup := by
  induction items using induction_on_filter with
  | nil => exact List.nodup_nil
  | cons a items ih =>
    rw [List.eraseDups_cons, List.nodup_cons]
    exact ⟨by simp [List.mem_eraseDups], ih _⟩

theorem eraseDups_of_nodup {items : List α} (h : items.Nodup) : items.eraseDups = items := by
  induction items with
  | nil => rfl
  | cons a items ih =>
    obtain ⟨ha, hitems⟩ := List.nodup_cons.1 h
    have hfilter : items.filter (fun b => !b == a) = items := by
      rw [List.filter_eq_self]
      intro b hb
      simp [ne_of_mem_of_not_mem hb ha]
    rw [List.eraseDups_cons, hfilter, ih hitems]

theorem eraseDups_concat (items : List α) (a : α) :
    (items ++ [a]).eraseDups =
      if a ∈ items then items.eraseDups else items.eraseDups ++ [a] := by
  rw [List.eraseDups_append]
  by_cases h : a ∈ items <;> simp [List.removeAll, h, List.eraseDups_cons]

/-- A function that tells the items apart keeps their first occurrences. -/
theorem eraseDups_map_of_injOn {f : α → β} (items : List α)
    (hf : ∀ a ∈ items, ∀ b ∈ items, f a = f b → a = b) :
    (items.map f).eraseDups = items.eraseDups.map f := by
  induction items using induction_on_filter with
  | nil => rfl
  | cons a items ih =>
    have hfilter : (items.map f).filter (fun b => !b == f a) =
        (items.filter fun b => !b == a).map f := by
      rw [List.filter_map]
      congr 1
      refine List.filter_congr fun b hb => ?_
      have hiff : f b = f a ↔ b = a :=
        ⟨hf b (List.mem_cons_of_mem _ hb) a List.mem_cons_self, congrArg f⟩
      simp [hiff]
    have hrest : ∀ b ∈ items.filter (fun b => !b == a), b ∈ a :: items := fun b hb =>
      List.mem_cons_of_mem _ (List.mem_of_mem_filter hb)
    rw [List.map_cons, List.eraseDups_cons, List.eraseDups_cons, hfilter,
      ih _ fun b hb c hc => hf b (hrest b hb) c (hrest c hc), List.map_cons]

end occurrences

/-! ### Items by their keys -/

section keys

variable {α κ : Type} [DecidableEq κ] (key : α → κ)

/-- The items of each key, with the keys in the order in which they appear first. -/
def byKey (items : List α) : List (κ × List α) :=
  (items.map key).eraseDups.map fun k => (k, items.filter fun a => key a = k)

theorem byKey_cons (a : α) (items : List α) :
    byKey key (a :: items) = (key a, (a :: items).filter fun b => key b = key a) ::
      byKey key (items.filter fun b => !(key b == key a)) := by
  have hkeys : (items.map key).filter (fun k => !k == key a) =
      (items.filter fun b => !(key b == key a)).map key := by
    rw [List.filter_map]
    rfl
  rw [byKey, List.map_cons, List.eraseDups_cons, hkeys, List.map_cons, byKey]
  congr 1
  refine List.map_congr_left fun k hk => ?_
  -- none of the later keys is that of the first item
  have hne : key a ≠ k := by
    rw [List.mem_eraseDups, List.mem_map] at hk
    obtain ⟨b, hb, rfl⟩ := hk
    rintro heq
    simp [heq] at hb
  rw [List.filter_cons_of_neg (by simpa using hne), List.filter_filter]
  congr 1
  refine List.filter_congr fun b _ => ?_
  by_cases hb : key b = k
  · simp [hb, hne.symm]
  · simp [hb]

/-- Grouping moves items and does nothing else to them. -/
theorem flatMap_byKey_perm (items : List α) :
    ((byKey key items).flatMap Prod.snd).Perm items := by
  induction items using induction_on_filter with
  | nil => exact .nil
  | cons a items ih =>
    have hrest : (a :: items).filter (fun b => !decide (key b = key a)) =
        items.filter fun b => !(key b == key a) := by
      rw [List.filter_cons_of_neg (by simp)]
      rfl
    rw [byKey_cons, List.flatMap_cons]
    refine ((ih _).append_left _).trans ?_
    rw [← hrest]
    exact List.filter_append_perm _ _

theorem map_fst_byKey (items : List α) :
    (byKey key items).map Prod.fst = (items.map key).eraseDups := by
  simp [byKey, Function.comp_def]

theorem nodup_keys (items : List α) : ((byKey key items).map Prod.fst).Nodup := by
  rw [map_fst_byKey]
  exact nodup_eraseDups _

theorem mem_keys_iff {items : List α} {k : κ} :
    k ∈ (byKey key items).map Prod.fst ↔ k ∈ items.map key := by
  rw [map_fst_byKey, List.mem_eraseDups]

/-- The items of a group are items with the key of the group. -/
theorem mem_byKey {items : List α} {g : κ × List α} (h : g ∈ byKey key items) :
    (∃ a ∈ items, key a = g.1) ∧ ∀ a ∈ g.2, a ∈ items ∧ key a = g.1 := by
  obtain ⟨k, hk, rfl⟩ := List.mem_map.1 h
  refine ⟨by simpa using List.mem_eraseDups.1 hk, fun a ha => ?_⟩
  simpa using ha

/-- Items with the same key are one group. -/
theorem byKey_of_forall {items : List α} {k : κ} (hne : items ≠ [])
    (h : ∀ a ∈ items, key a = k) : byKey key items = [(k, items)] := by
  obtain ⟨a, items, rfl⟩ := List.exists_cons_of_ne_nil hne
  have ha := h a List.mem_cons_self
  have hall : (a :: items).filter (fun b => key b = key a) = a :: items := by
    rw [List.filter_eq_self]
    intro b hb
    simp [h b hb, ha]
  have hnone : items.filter (fun b => !(key b == key a)) = [] := by
    rw [List.filter_eq_nil_iff]
    intro b hb
    simp [h b (List.mem_cons_of_mem _ hb), ha]
  rw [byKey_cons, hall, hnone, ha]
  rfl

/-- A further item is the last one of its group, and a group with a new key is the last one. -/
theorem byKey_concat (items : List α) (a : α) :
    byKey key (items ++ [a]) =
      if key a ∈ (byKey key items).map Prod.fst then
        (byKey key items).map fun g => (g.1, if g.1 = key a then g.2 ++ [a] else g.2)
      else byKey key items ++ [(key a, [a])] := by
  have hgroup : ∀ k, (items ++ [a]).filter (fun b => key b = k) =
      if k = key a then items.filter (fun b => key b = k) ++ [a]
      else items.filter fun b => key b = k := by
    intro k
    by_cases hk : k = key a
    · simp [hk]
    · simp [hk, Ne.symm hk]
  rw [byKey, List.map_append, List.map_singleton, eraseDups_concat]
  simp only [mem_keys_iff, hgroup]
  split
  · rw [byKey, List.map_map]
    rfl
  · rename_i hnew
    have hold : ∀ k ∈ (items.map key).eraseDups, k ≠ key a := by
      rintro k hk rfl
      exact hnew (List.mem_eraseDups.1 hk)
    have hnone : items.filter (fun b => key b = key a) = [] := by
      rw [List.filter_eq_nil_iff]
      intro b hb heq
      exact hnew (List.mem_map.2 ⟨b, hb, of_decide_eq_true heq⟩)
    rw [List.map_append, List.map_singleton, if_pos rfl, hnone, byKey]
    congr 1
    refine List.map_congr_left fun k hk => ?_
    rw [if_neg (hold k hk)]

/-- Other keys that tell the same items apart make the same groups. -/
theorem byKey_eq_map {κ' : Type} [DecidableEq κ'] {key' : α → κ'} {f : κ → κ'} {items : List α}
    (hkey : ∀ a ∈ items, key' a = f (key a))
    (hf : ∀ a ∈ items, ∀ b ∈ items, f (key a) = f (key b) → key a = key b) :
    byKey key' items = (byKey key items).map fun g => (f g.1, g.2) := by
  have hkeys : (items.map key').eraseDups = (items.map key).eraseDups.map f := by
    have hmap : items.map key' = (items.map key).map f := by
      rw [List.map_map]
      exact List.map_congr_left hkey
    rw [hmap, eraseDups_map_of_injOn]
    intro k hk k' hk' heq
    obtain ⟨a, ha, rfl⟩ := List.mem_map.1 hk
    obtain ⟨b, hb, rfl⟩ := List.mem_map.1 hk'
    exact hf a ha b hb heq
  rw [byKey, hkeys, byKey, List.map_map, List.map_map]
  refine List.map_congr_left fun k hk => ?_
  obtain ⟨a, ha, rfl⟩ := List.mem_map.1 (List.mem_eraseDups.1 hk)
  refine congrArg (Prod.mk _) (List.filter_congr fun b hb => ?_)
  have hiff : key' b = f (key a) ↔ key b = key a := by
    rw [hkey b hb]
    exact ⟨hf b hb a ha, congrArg f⟩
  simp [hiff]

end keys

/-! ### The groups of an insertion -/

namespace Query

/-- A row joins the group of its columns, which stands at the end if it is new. -/
theorem addToGroup_eq {groups : List (List String × List Assignments)}
    (hnodup : (groups.map Prod.fst).Nodup) (columns : List String) (row : Assignments) :
    addToGroup columns row groups =
      if columns ∈ groups.map Prod.fst then
        groups.map fun g => (g.1, if g.1 = columns then g.2 ++ [row] else g.2)
      else groups ++ [(columns, [row])] := by
  induction groups with
  | nil => rfl
  | cons group groups ih =>
    obtain ⟨set, members⟩ := group
    rw [List.map_cons] at hnodup
    obtain ⟨hset, hgroups⟩ := List.nodup_cons.1 hnodup
    rw [List.map_cons, addToGroup]
    by_cases heq : set = columns
    · subst heq
      -- no other group has the same columns
      have hrest : groups.map (fun g => (g.1, if g.1 = set then g.2 ++ [row] else g.2)) =
          groups := by
        refine (List.map_congr_left fun g hg => ?_).trans (List.map_id groups)
        have hne : g.1 ≠ set := fun h => hset (List.mem_map.2 ⟨g, hg, h⟩)
        rw [if_neg hne]
        rfl
      rw [if_pos rfl, if_pos List.mem_cons_self, List.map_cons, if_pos rfl, hrest]
    · rw [if_neg heq, ih hgroups]
      by_cases hmem : columns ∈ groups.map Prod.fst
      · rw [if_pos hmem, if_pos (List.mem_cons_of_mem _ hmem), List.map_cons, if_neg heq]
      · rw [if_neg hmem, if_neg (by simp [hmem, Ne.symm heq]), List.cons_append]

/-- The rows are grouped by the columns that they assign. -/
theorem groupRows_eq (all : List String) (rows : List Assignments) :
    groupRows all rows = byKey (fun row => all.filter row.assigns) rows := by
  induction rows using List.reverseRecOn with
  | nil => rfl
  | append_singleton rows row ih =>
    have hadd : groupRows all (rows ++ [row]) =
        addToGroup (all.filter row.assigns) row (groupRows all rows) := by
      rw [groupRows, List.foldl_concat]
      rfl
    rw [hadd, ih, addToGroup_eq (nodup_keys _ _), byKey_concat]
    by_cases hmem : all.filter row.assigns ∈
        (byKey (fun row => all.filter row.assigns) rows).map Prod.fst
    · rw [if_pos hmem, if_pos hmem]
    · rw [if_neg hmem, if_neg hmem]

/-! ### Sets of columns -/

end Query

/-- The set of columns that a row assigns. -/
def Assignments.columnSet (row : Assignments) : Finset String := row.columns.toFinset

theorem Assignments.assigns_iff {row : Assignments} {column : String} :
    row.assigns column ↔ column ∈ row.columns := by
  simp [assigns, get?, columns]

namespace Query

/-- A column that is assigned by none of the rows is not listed. -/
theorem mem_assignedColumns {rows : List Assignments} {column : String} :
    column ∈ assignedColumns rows ↔ ∃ row ∈ rows, column ∈ row.columns := by
  rw [assignedColumns, List.mem_eraseDups, List.mem_flatMap]

theorem toFinset_filter_assigns {rows : List Assignments} {row : Assignments} (hrow : row ∈ rows) :
    ((assignedColumns rows).filter row.assigns).toFinset = row.columnSet := by
  ext column
  rw [Assignments.columnSet, List.mem_toFinset, List.mem_toFinset, List.mem_filter,
    mem_assignedColumns, Assignments.assigns_iff]
  exact ⟨And.right, fun h => ⟨⟨row, hrow, h⟩, h⟩⟩

/-- The rows of each set of columns are the groups of an insertion. -/
theorem byKey_columnSet (rows : List Assignments) :
    byKey Assignments.columnSet rows =
      (groupRows (assignedColumns rows) rows).map fun g => (g.1.toFinset, g.2) := by
  rw [groupRows_eq]
  refine byKey_eq_map _ (fun row hrow => (toFinset_filter_assigns hrow).symm) ?_
  -- columns are listed in the same order for all rows, so their set tells which they are
  intro row _ row' _ heq
  refine List.filter_congr fun column hcolumn => ?_
  have hmem := Finset.ext_iff.1 heq column
  rw [List.mem_toFinset, List.mem_toFinset, List.mem_filter, List.mem_filter] at hmem
  have hiff : row.assigns column = true ↔ row'.assigns column = true := by
    simpa [hcolumn] using hmem
  exact Bool.eq_iff_iff.2 hiff

end Query

end Discography
