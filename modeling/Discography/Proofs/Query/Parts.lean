import Discography.Query.Projection
import Mathlib.Data.List.Nodup

/-!
# Parts of projections

A chain of keys leads from a projection to one of its parts. The columns of the part are consecutive
among those of the projection, so the part is known by its first column; and where the keys of every
object are distinct, each column is the part under its own keys.

## Main definitions

* `Projection.part?`: the part under a chain of keys, and the number of columns in front of it
* `Projection.DistinctKeys`: no object has a key twice, at any depth

## Main results

* `Projection.getElem?_leaves_of_part?`: the columns of a part among those of the projection
* `Projection.part?_eq_of_leaf`: a column is the part under its keys
-/

namespace Discography.Projection

/-- The first field with a key, and the number of columns of the fields in front of it. -/
def field? (key : String) : List (String × Projection) → Option (Nat × Projection)
  | [] => none
  | (k, p) :: rest =>
    if key = k then some (0, p)
    else (field? key rest).map fun (start, part) => (p.leaves.length + start, part)

/-- The part under a chain of keys, and the number of columns in front of it. -/
def part? : List String → Projection → Option (Nat × Projection)
  | [], p => some (0, p)
  | _ :: _, column _ => none
  | key :: keys, object fields =>
    (field? key fields).bind fun (before, p) =>
      (part? keys p).map fun (start, part) => (before + start, part)

/-- The part under a chain of keys. -/
def at? (p : Projection) (keys : List String) : Option Projection := (part? keys p).map Prod.snd

/-- No object has a key twice, at any depth. -/
inductive DistinctKeys : Projection → Prop
  | column (c : Column) : DistinctKeys (column c)
  | object {fields : List (String × Projection)} (nodup : (fields.map Prod.fst).Nodup)
      (inside : ∀ field ∈ fields, DistinctKeys field.2) : DistinctKeys (object fields)

variable {p part : Projection} {fields : List (String × Projection)} {key : String}
  {keys path : List String} {start i : Nat} {c : Column}

theorem length_fieldLeaves_cons (key : String) (p : Projection)
    (rest : List (String × Projection)) :
    (fieldLeaves ((key, p) :: rest)).length = p.leaves.length + (fieldLeaves rest).length := by
  simp [fieldLeaves]

theorem getElem?_fieldLeaves_left (rest : List (String × Projection)) (h : i < p.leaves.length) :
    (fieldLeaves ((key, p) :: rest))[i]? =
      p.leaves[i]?.map fun leaf => (key :: leaf.1, leaf.2) := by
  rw [fieldLeaves, List.getElem?_append_left (by simpa using h), List.getElem?_map]

theorem getElem?_fieldLeaves_right (key : String) (p : Projection)
    (rest : List (String × Projection)) (i : Nat) :
    (fieldLeaves ((key, p) :: rest))[p.leaves.length + i]? = (fieldLeaves rest)[i]? := by
  rw [fieldLeaves, List.getElem?_append_right (by simp)]
  simp

/-! ### Fields -/

/-- The columns of a field are inside those of the object. -/
theorem field?_inside (h : field? key fields = some (start, part)) :
    start + part.leaves.length ≤ (fieldLeaves fields).length := by
  induction fields generalizing start with
  | nil => cases h
  | cons field rest ih =>
    obtain ⟨k, p⟩ := field
    rw [length_fieldLeaves_cons]
    simp only [field?] at h
    split at h
    · cases h
      omega
    · obtain ⟨⟨start', part'⟩, hrest, heq⟩ := Option.map_eq_some_iff.1 h
      cases heq
      -- the columns of the first field come in front of those that are counted
      have := ih hrest
      omega

theorem getElem?_leaves_of_field? (h : field? key fields = some (start, part))
    (hleaf : part.leaves[i]? = some (path, c)) :
    (fieldLeaves fields)[start + i]? = some (key :: path, c) := by
  induction fields generalizing start with
  | nil => cases h
  | cons field rest ih =>
    obtain ⟨k, p⟩ := field
    simp only [field?] at h
    split at h
    · rename_i hkey
      cases h
      have hi : i < part.leaves.length := (List.getElem?_eq_some_iff.1 hleaf).1
      rw [Nat.zero_add, getElem?_fieldLeaves_left rest hi, hleaf, hkey, Option.map_some]
    · obtain ⟨⟨start', part'⟩, hrest, heq⟩ := Option.map_eq_some_iff.1 h
      cases heq
      rw [Nat.add_assoc, getElem?_fieldLeaves_right]
      exact ih hrest

/-- A column of an object belongs to the field with its first key. -/
theorem exists_field?_of_leaf (hnodup : (fields.map Prod.fst).Nodup)
    (hleaf : (fieldLeaves fields)[i]? = some (keys, c)) :
    ∃ key path before p m, keys = key :: path ∧ (key, p) ∈ fields ∧
      field? key fields = some (before, p) ∧ p.leaves[m]? = some (path, c) ∧ i = before + m := by
  induction fields generalizing i with
  | nil => cases hleaf
  | cons field rest ih =>
    obtain ⟨k, p⟩ := field
    obtain ⟨hk, hrest⟩ := List.nodup_cons.1 hnodup
    -- the column is among those of the first field, or it belongs to a field behind
    by_cases hi : i < p.leaves.length
    · rw [getElem?_fieldLeaves_left rest hi] at hleaf
      obtain ⟨⟨path, c'⟩, hp, heq⟩ := Option.map_eq_some_iff.1 hleaf
      cases heq
      exact ⟨k, path, 0, p, i, rfl, List.mem_cons_self, by simp [field?], hp, by omega⟩
    · obtain ⟨j, rfl⟩ := Nat.exists_eq_add_of_le (Nat.le_of_not_lt hi)
      rw [getElem?_fieldLeaves_right] at hleaf
      obtain ⟨key, path, before, part, m, hkeys, hmem, hfield, hm, hj⟩ := ih hrest hleaf
      -- so the search for its key passes the first field by
      have hne : key ≠ k := by
        rintro rfl
        exact hk (List.mem_map.2 ⟨(key, part), hmem, rfl⟩)
      exact ⟨key, path, p.leaves.length + before, part, m, hkeys, List.mem_cons_of_mem _ hmem,
        by simp [field?, hne, hfield], hm, by omega⟩

/-! ### Chains of keys -/

theorem part?_cons_eq_some :
    part? (key :: keys) p = some (start, part) ↔
      ∃ fields before inner start', p = object fields ∧ field? key fields = some (before, inner) ∧
        part? keys inner = some (start', part) ∧ start = before + start' := by
  cases p with
  | column c => simp [part?]
  | object fields =>
    simp only [part?, Option.bind_eq_some_iff, Option.map_eq_some_iff, Prod.exists, Prod.mk.injEq]
    constructor
    · rintro ⟨before, inner, hfield, start', part', hpart, rfl, rfl⟩
      exact ⟨fields, before, inner, start', rfl, hfield, hpart, rfl⟩
    · rintro ⟨_, before, inner, start', heq, hfield, hpart, rfl⟩
      cases heq
      exact ⟨before, inner, hfield, start', part, hpart, rfl, rfl⟩

/-- The columns of a part are inside those of the projection. -/
theorem part?_inside (h : part? keys p = some (start, part)) :
    start + part.leaves.length ≤ p.leaves.length := by
  induction keys generalizing p start with
  | nil =>
    cases h
    omega
  | cons key keys ih =>
    obtain ⟨fields, before, inner, start', rfl, hfield, hpart, rfl⟩ := part?_cons_eq_some.1 h
    have hinner := ih hpart
    have hfields := field?_inside hfield
    rw [leaves]
    omega

/-- The columns of a part stand together among those of the projection. -/
theorem getElem?_leaves_of_part? (h : part? keys p = some (start, part))
    (hleaf : part.leaves[i]? = some (path, c)) :
    p.leaves[start + i]? = some (keys ++ path, c) := by
  induction keys generalizing p start with
  | nil =>
    cases h
    simpa using hleaf
  | cons key keys ih =>
    obtain ⟨fields, before, inner, start', rfl, hfield, hpart, rfl⟩ := part?_cons_eq_some.1 h
    rw [leaves, Nat.add_assoc]
    exact getElem?_leaves_of_field? hfield (ih hpart)

theorem part?_append (keys path : List String) (p : Projection) :
    part? (keys ++ path) p = (part? keys p).bind fun (before, inner) =>
      (part? path inner).map fun (start, part) => (before + start, part) := by
  induction keys generalizing p with
  | nil => simp [part?]
  | cons key keys ih =>
    cases p with
    | column c => rfl
    | object fields =>
      cases hfield : field? key fields with
      | none => simp [part?, hfield]
      | some field =>
        cases hpart : part? keys field.2 with
        | none => simp [part?, hfield, ih, hpart]
        | some inner => simp [part?, hfield, ih, hpart, Function.comp_def, Nat.add_assoc]

/-- Where keys are distinct, a column is the part under its keys. -/
theorem part?_eq_of_leaf (hp : p.DistinctKeys) (hleaf : p.leaves[i]? = some (keys, c)) :
    part? keys p = some (i, column c) := by
  induction hp generalizing keys i with
  | column c' =>
    rw [leaves] at hleaf
    obtain ⟨hi, heq⟩ := List.getElem?_eq_some_iff.1 hleaf
    obtain rfl : i = 0 := by simpa using hi
    cases heq
    rfl
  | object hnodup _ ih =>
    obtain ⟨key, path, before, inner, m, rfl, hmem, hfield, hm, rfl⟩ :=
      exists_field?_of_leaf hnodup hleaf
    have hinner := ih (key, inner) hmem hm
    simp [part?, hfield, hinner]

/-- Where keys are distinct, no two columns have the same keys. -/
theorem nodup_paths (hp : p.DistinctKeys) : (p.leaves.map Prod.fst).Nodup := by
  rw [List.Nodup, List.pairwise_iff_getElem]
  intro i j hi hj hij heq
  rw [List.length_map] at hi hj
  rw [List.getElem_map, List.getElem_map] at heq
  -- the same keys would lead to two places
  have hfirst : part? p.leaves[i].1 p = some (i, column p.leaves[i].2) :=
    part?_eq_of_leaf hp (List.getElem?_eq_getElem hi)
  have hsecond : part? p.leaves[j].1 p = some (j, column p.leaves[j].2) :=
    part?_eq_of_leaf hp (List.getElem?_eq_getElem hj)
  rw [heq, hsecond] at hfirst
  cases hfirst
  exact Nat.lt_irrefl _ hij

/-- Where keys are distinct, the columns whose keys begin with those of a part are its own. -/
theorem exists_getElem?_leaves_part (hp : p.DistinctKeys) (h : part? keys p = some (start, part))
    (hleaf : p.leaves[i]? = some (path, c)) (hkeys : keys <+: path) :
    ∃ m rest, i = start + m ∧ path = keys ++ rest ∧ part.leaves[m]? = some (rest, c) := by
  obtain ⟨rest, rfl⟩ := hkeys
  have hcolumn := part?_eq_of_leaf hp hleaf
  -- the keys of the column lead through the part
  rw [part?_append, h, Option.bind_some] at hcolumn
  obtain ⟨⟨m, column⟩, hm, heq⟩ := Option.map_eq_some_iff.1 hcolumn
  cases heq
  have hself : (Projection.column c).leaves[0]? = some ([], c) := rfl
  have hrest := getElem?_leaves_of_part? hm hself
  exact ⟨m, rest, rfl, rfl, by simpa using hrest⟩

theorem singleAlias?_eq_some {aliasName : String} :
    p.singleAlias? = some aliasName ↔
      p.leaves ≠ [] ∧ ∀ leaf ∈ p.leaves, leaf.2.aliasName = aliasName := by
  rw [singleAlias?]
  cases p.leaves with
  | nil => simp
  | cons leaf rest =>
    constructor
    · intro h
      obtain ⟨hrest, rfl⟩ : _ ∧ leaf.2.aliasName = aliasName := by simpa using h
      simpa using hrest
    · rintro ⟨-, h⟩
      obtain ⟨rfl, hrest⟩ := List.forall_mem_cons.1 h
      simpa using hrest

/-- An object collapses if it has columns and one table that may be left out has them all. -/
theorem collapses_iff {optional : List String} :
    p.collapses optional = true ↔
      p.leaves ≠ [] ∧ ∃ aliasName ∈ optional, ∀ leaf ∈ p.leaves, leaf.2.aliasName = aliasName := by
  simp only [collapses, Option.any_eq_true, singleAlias?_eq_some, decide_eq_true_eq]
  constructor
  · rintro ⟨aliasName, ⟨hne, hleaves⟩, hmem⟩
    exact ⟨hne, aliasName, hmem, hleaves⟩
  · rintro ⟨hne, aliasName, hmem, hleaves⟩
    exact ⟨aliasName, ⟨hne, hleaves⟩, hmem⟩

end Discography.Projection
