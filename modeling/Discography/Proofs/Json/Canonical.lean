import Discography.Json.Decode
import Discography.Proofs.Outcome
import Mathlib.Data.List.Nodup

/-!
# Structures in canonical documents

The canonical form of an object has the canonical form of each member under its key, whatever the
order in which the members were written. So a structure is decoded from the canonical form of an
object with one member for each of its fields, in the order of the fields, as if the members had
stayed in their places.

## Main definitions

* `Json.Field.Takes`: a field has the name of a member and takes its value

## Main results

* `Json.lookup_canonicalMembers`: the members of the canonical form
* `Json.fields_canonical`: the members of a structure
-/

namespace Discography

namespace Keyed

variable {α : Type}

theorem lookup_cons (key : String) (v : α) (rest : List (String × α)) (k : String) :
    List.lookup k ((key, v) :: rest) = if k = key then some v else rest.lookup k := by
  by_cases hk : k = key
  · simp [hk]
  · rw [List.lookup_cons, beq_false_of_ne hk, if_neg hk]

theorem lookup_insert (key : String) (v : α) (sorted : List (String × α)) (k : String) :
    (insert key v sorted).lookup k = if k = key then some v else sorted.lookup k := by
  induction sorted with
  | nil => rw [insert, lookup_cons]
  | cons entry rest ih =>
    rw [insert]
    split_ifs <;> grind [lookup_cons]

theorem mem_of_mem_insert {key : String} {v : α} {sorted : List (String × α)} {e : String × α}
    (h : e ∈ insert key v sorted) : e = (key, v) ∨ e ∈ sorted := by
  induction sorted with
  | nil => exact .inl (List.mem_singleton.1 h)
  | cons entry rest ih =>
    rw [insert] at h
    split_ifs at h <;> grind

end Keyed

namespace Json

theorem canonicalItems_eq_map (items : List Json) : canonicalItems items = items.map canonical := by
  induction items with
  | nil => rfl
  | cons j items ih => rw [canonicalItems, ih, List.map_cons]

/-- An entry of the canonical form was there before or is the canonical form of a member. -/
theorem mem_canonicalMembers {members sorted : List (String × Json)} {e : String × Json}
    (h : e ∈ canonicalMembers sorted members) :
    e ∈ sorted ∨ ∃ m ∈ members, e = (m.1, m.2.canonical) := by
  induction members generalizing sorted with
  | nil => exact .inl h
  | cons m members ih =>
    rcases ih h with hsorted | ⟨m', hm', rfl⟩
    · rcases Keyed.mem_of_mem_insert hsorted with rfl | hsorted
      · exact .inr ⟨m, List.mem_cons_self, rfl⟩
      · exact .inl hsorted
    · exact .inr ⟨m', List.mem_cons_of_mem _ hm', rfl⟩

theorem lookup_canonicalMembers_of_not_mem {members sorted : List (String × Json)} {key : String}
    (h : key ∉ members.map Prod.fst) :
    (canonicalMembers sorted members).lookup key = sorted.lookup key := by
  induction members generalizing sorted with
  | nil => rfl
  | cons m members ih =>
    rw [List.map_cons, List.mem_cons, not_or] at h
    rw [canonicalMembers, ih h.2, Keyed.lookup_insert, if_neg h.1]

/-- Of members with different keys, each has its canonical form under its key. -/
theorem lookup_canonicalMembers {members : List (String × Json)}
    (hnodup : (members.map Prod.fst).Nodup) (sorted : List (String × Json)) {m : String × Json}
    (hm : m ∈ members) :
    (canonicalMembers sorted members).lookup m.1 = some m.2.canonical := by
  induction members generalizing sorted with
  | nil => cases hm
  | cons first members ih =>
    rw [List.map_cons, List.nodup_cons] at hnodup
    rw [canonicalMembers]
    rcases List.mem_cons.1 hm with rfl | hm
    · -- no later member has the key of the first one
      rw [lookup_canonicalMembers_of_not_mem hnodup.1, Keyed.lookup_insert, if_pos rfl]
    · exact ih hnodup.2 _ hm

/-- A field takes a member of an object: they have the same name, and the canonical form of the
member has a value of the type of the field. -/
def Field.Takes (f : Field) (m : String × Json) : Prop :=
  f.name = m.1 ∧ f.check m.2.canonical = .ok ()

section takes

variable {α : Type} [FromJson α] {j : Json}

theorem Field.takes_required (name : String) {a : α} (h : fromJson j.canonical = .ok a) :
    (Field.required name α).Takes (name, j) :=
  ⟨rfl, congrArg (Except.map fun _ => ()) h⟩

theorem Field.takes_optionally (name : String) {a : Option α} (h : fromJson j.canonical = .ok a) :
    (Field.optionally name α).Takes (name, j) :=
  ⟨rfl, congrArg (Except.map fun _ => ()) h⟩

end takes

theorem checkMembers_eq_ok {fs : List Field} {members : List (String × Json)}
    (h : ∀ m ∈ members, ∀ f ∈ fs, f.name = m.1 → f.check m.2 = .ok ()) :
    checkMembers fs members = .ok () := by
  induction members with
  | nil => rfl
  | cons m members ih =>
    obtain ⟨hm, hmembers⟩ := List.forall_mem_cons.1 h
    rw [checkMembers, ih hmembers]
    cases hfind : fs.find? (·.name = m.1) with
    | none => rfl
    | some f =>
      have hname : f.name = m.1 := by simpa using List.find?_some hfind
      exact congrArg (· >>= fun _ => .ok ()) (hm f (List.mem_of_find?_eq_some hfind) hname)

/-- The members of a structure, decoded from the canonical form of an object that has a member for
each field. -/
theorem fields_canonical (struct : String) {fs : List Field} {members : List (String × Json)}
    (hnodup : (fs.map Field.name).Nodup) (h : List.Forall₂ Field.Takes fs members) :
    (object members).canonical.fields struct fs =
      .ok (members.map fun m => (m.1, m.2.canonical)) := by
  have hnames : List.Forall₂ (· = ·) (fs.map Field.name) (members.map Prod.fst) :=
    List.forall₂_map_left_iff.2 (List.forall₂_map_right_iff.2 (h.imp fun _ _ htakes => htakes.1))
  rw [List.forall₂_eq_eq_eq] at hnames
  rw [hnames] at hnodup
  -- every member is taken by a field, and every field takes one
  have hpairs : List.Forall₂ (fun m f => m ∈ members ∧ f.Takes m) members fs :=
    (List.forall₂_and_left _ _).2 ⟨fun _ hm => hm, h.flip⟩
  have hcheck : checkMembers fs (canonicalMembers [] members) = .ok () := by
    refine checkMembers_eq_ok fun e he f hf hname => ?_
    obtain ⟨m, hm, rfl⟩ := (mem_canonicalMembers he).resolve_left List.not_mem_nil
    obtain ⟨m', hm', hname', htakes⟩ := Outcome.exists_mem_of_forall₂ h hf
    obtain rfl : m' = m := List.inj_on_of_nodup_map hnodup hm' hm (hname'.symm.trans hname)
    exact htakes
  have hmembers : fs.mapM (fieldMember (canonicalMembers [] members)) =
      .ok (members.map fun m => (m.1, m.2.canonical)) := by
    refine Outcome.mapM_eq_ok.2 (List.forall₂_map_right_iff.2 (hpairs.flip.imp ?_))
    intro f m hm
    rw [fieldMember, hm.2.1, lookup_canonicalMembers hnodup [] hm.1]
  rw [canonical, fields, hcheck]
  exact hmembers

/-- The value of a field whose member comes first. -/
theorem field_self {α : Type} [FromJson α] (name : String) (j : Json)
    (rest : List (String × Json)) : (field ((name, j) :: rest) name : Decoded α) = fromJson j := by
  rw [field, List.lookup_cons_self]
  rfl

/-- The value of a field whose member comes later. -/
theorem field_of_ne {α : Type} [FromJson α] {name other : String} (h : name ≠ other) (j : Json)
    (rest : List (String × Json)) :
    (field ((other, j) :: rest) name : Decoded α) = field rest name := by
  rw [field, field, Keyed.lookup_cons, if_neg h]

end Json

end Discography
