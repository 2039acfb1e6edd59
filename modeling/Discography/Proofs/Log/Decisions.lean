import Discography.Log.Filter
import Mathlib.Data.List.Induction
import Mathlib.Data.String.Basic

/-!
# Which directive of a log filter decides

Of the directives that apply to an event, the one with the longest target decides. Being as special
as another directive is a preorder in which all directives compare, so among those that apply some
are the most special, and the last one of these decides.

## Main definitions

* `Log.Filter.Decides`: the directive that decides

## Main results

* `Log.Filter.decisive_eq_some_iff`, `Log.Filter.decisive_eq_none_iff`: the directive that is found
* `Log.Filter.enables_iff`: the events that pass outside of all spans
* `Log.Filter.enablesWithin_eq`: without directives for spans these are all that pass
-/

namespace Discography.Log

namespace Directive

variable {a b c : Directive}

theorem fieldWeighs_total (a b : Directive) : a.fieldWeighs b ∨ b.fieldWeighs a := by
  rw [fieldWeighs, fieldWeighs]
  rcases a.field with _ | here <;> rcases b.field with _ | there
  · exact .inl rfl
  · exact .inr rfl
  · exact .inl rfl
  · simpa using le_total there.name here.name

theorem fieldWeighs_trans (hab : a.fieldWeighs b) (hbc : b.fieldWeighs c) : a.fieldWeighs c := by
  obtain ⟨_, _, fieldA, _⟩ := a
  obtain ⟨_, _, fieldB, _⟩ := b
  obtain ⟨_, _, fieldC, _⟩ := c
  cases fieldC with
  | none => rfl
  | some z =>
    cases fieldB with
    | none => cases hbc
    | some y =>
      cases fieldA with
      | none => cases hab
      | some x =>
        simp only [fieldWeighs, decide_eq_true_eq] at hab hbc ⊢
        exact hbc.trans hab

theorem outweighs_iff : a.outweighs b ↔ b.target.length < a.target.length ∨
    b.target.length = a.target.length ∧ a.fieldWeighs b := by
  simp [outweighs]

theorem outweighs_total (a b : Directive) : a.outweighs b ∨ b.outweighs a := by
  have hfields := fieldWeighs_total a b
  rw [outweighs_iff, outweighs_iff]
  grind

theorem outweighs_trans (hab : a.outweighs b) (hbc : b.outweighs c) : a.outweighs c := by
  have hfields := @fieldWeighs_trans a b c
  rw [outweighs_iff] at *
  grind

/-- A directive that is as special as another has a target as long at least. -/
theorem length_le_of_outweighs (h : a.outweighs b) : b.target.length ≤ a.target.length := by
  rw [outweighs_iff] at h
  omega

end Directive

namespace Filter

variable {f : Filter} {p : Directive → Bool} {d d' : Directive}

/-- Of the directives with a property, none is more special than the given one, and no later one is
as special. -/
def Decides (f : Filter) (p : Directive → Bool) (d : Directive) : Prop :=
  ∃ before behind, f = before ++ d :: behind ∧ p d ∧
    (∀ d' ∈ before, p d' → d.outweighs d') ∧ ∀ d' ∈ behind, p d' → ¬ d'.outweighs d

theorem Decides.mem (h : f.Decides p d) : d ∈ f := by
  obtain ⟨before, behind, rfl, -⟩ := h
  exact List.mem_append_right before List.mem_cons_self

theorem Decides.holds (h : f.Decides p d) : p d := by
  obtain ⟨-, -, -, hp, -⟩ := h
  exact hp

theorem Decides.outweighs (h : f.Decides p d) (hd' : d' ∈ f) (hp : p d') : d.outweighs d' := by
  obtain ⟨before, behind, rfl, -, hbefore, hbehind⟩ := h
  rcases List.mem_append.mp hd' with hd' | hd'
  · exact hbefore d' hd' hp
  rcases List.mem_cons.mp hd' with rfl | hd'
  · simpa using Directive.outweighs_total d' d'
  · exact (Directive.outweighs_total d d').resolve_right (hbehind d' hd' hp)

theorem Decides.unique (h : f.Decides p d) (h' : f.Decides p d') : d = d' := by
  obtain ⟨before, behind, rfl, hd, hbefore, hbehind⟩ := h
  obtain ⟨before', behind', heq, hd', hbefore', hbehind'⟩ := h'
  -- the one of the two that stands further behind would have to be as special and not as special
  rcases List.append_eq_append_iff.mp heq with ⟨between, rfl, hrest⟩ | ⟨between, rfl, hrest⟩
  · cases between with
    | nil => exact (List.cons.inj hrest).1
    | cons e between =>
      obtain ⟨rfl, rfl⟩ := List.cons.inj hrest
      exact absurd (hbefore' d (by simp) hd) (hbehind d' (by simp) hd')
  · cases between with
    | nil => exact (List.cons.inj hrest).1.symm
    | cons e between =>
      obtain ⟨rfl, rfl⟩ := List.cons.inj hrest
      exact absurd (hbefore d' (by simp) hd') (hbehind' d (by simp) hd)

/-- A later directive that is less special, or lacks the property, changes nothing. -/
theorem Decides.concat {last : Directive} (h : f.Decides p d)
    (hlast : p last → ¬ last.outweighs d) : Decides (f ++ [last]) p d := by
  obtain ⟨before, behind, rfl, hd, hbefore, hbehind⟩ := h
  refine ⟨before, behind ++ [last], by simp, hd, hbefore, ?_⟩
  exact List.forall_mem_append.mpr ⟨hbehind, by simpa using hlast⟩

/-- The last directive decides if it is as special as all others. -/
theorem decides_last {last : Directive} (hp : p last) (h : ∀ d ∈ f, p d → last.outweighs d) :
    Decides (f ++ [last]) p last :=
  ⟨f, [], rfl, hp, h, nofun⟩

theorem decisive_concat : decisive (f ++ [d]) p =
    if p d then prevailing (f.decisive p) d else f.decisive p := by
  rw [decisive, List.filter_append, List.foldl_append]
  cases hp : p d <;> simp [hp, decisive]

theorem decisive_eq_none_iff : f.decisive p = none ↔ ∀ d ∈ f, ¬ p d := by
  induction f using List.reverseRecOn with
  | nil => simp [decisive]
  | append_singleton f d ih =>
    rw [decisive_concat]
    split
    · rename_i hp
      have hsome : ∀ best, prevailing best d ≠ none := by
        rintro (_ | best)
        · exact nofun
        · rw [prevailing]
          split <;> exact nofun
      exact iff_of_false (hsome _) fun h => h d (by simp) hp
    · rename_i hp
      rw [ih]
      simp only [List.mem_append, List.mem_singleton, or_imp, forall_and, forall_eq]
      exact (and_iff_left hp).symm

theorem decides_of_decisive (h : f.decisive p = some d) : f.Decides p d := by
  induction f using List.reverseRecOn generalizing d with
  | nil => cases h
  | append_singleton f last ih =>
    -- the last directive takes over if it is as special as the one that was found among the others
    rw [decisive_concat] at h
    by_cases hp : p last
    · rw [if_pos hp, prevailing] at h
      cases hbest : decisive f p with
      | none =>
        rw [hbest] at h
        obtain rfl := Option.some.inj h
        have hnone := decisive_eq_none_iff.mp hbest
        exact decides_last hp fun d hd hpd => absurd hpd (hnone d hd)
      | some best =>
        have hdecides := ih hbest
        rw [hbest, Option.all_some] at h
        by_cases hlast : last.outweighs best
        · rw [if_pos hlast] at h
          obtain rfl := Option.some.inj h
          exact decides_last hp fun d hd hpd =>
            Directive.outweighs_trans hlast (hdecides.outweighs hd hpd)
        · rw [if_neg hlast] at h
          obtain rfl := Option.some.inj h
          exact hdecides.concat fun _ => hlast
    · rw [if_neg hp] at h
      exact (ih h).concat fun hlast => absurd hlast hp

/-- The directive that is found is the one that decides. -/
theorem decisive_eq_some_iff : f.decisive p = some d ↔ f.Decides p d := by
  refine ⟨decides_of_decisive, fun h => ?_⟩
  cases hfound : f.decisive p with
  | none => exact absurd h.holds (decisive_eq_none_iff.mp hfound d h.mem)
  | some found => rw [h.unique (decides_of_decisive hfound)]

/-- An event passes if the directive that decides about it lets its level pass. -/
theorem enables_iff {e : Event} :
    f.enables e ↔ ∃ d, f.Decides (·.applies e) d ∧ d.threshold.admits e.level := by
  rw [enables, Option.any_eq_true]
  simp only [decisive_eq_some_iff]

theorem mem_of_mem_standing : ∀ {f : Filter} {d : Directive}, d ∈ f.standing → d ∈ f
  | first :: rest, d, h => by
    rw [standing] at h
    split at h
    · exact List.mem_cons_of_mem first (mem_of_mem_standing h)
    · rcases List.mem_cons.mp h with rfl | h
      · exact List.mem_cons_self
      · exact List.mem_cons_of_mem first (mem_of_mem_standing h)

/-- Where no directive names a span, the spans around an event do not matter. -/
theorem enablesWithin_eq (h : ∀ d ∈ f, d.span = none) (s : Span) (e : Event) :
    f.enablesWithin s e = f.enables e := by
  have hnone : (f.standing.any fun d => d.concerns s && d.threshold.admits e.level) = false := by
    rw [List.any_eq_false]
    intro d hd
    simp [Directive.concerns, h d (mem_of_mem_standing hd)]
  rw [enablesWithin, hnone, Bool.and_false, Bool.or_false]

end Filter

end Discography.Log
