import Mathlib.Data.List.Forall2

/-!
# Computations that may be refused

What the parts of a computation returned when the whole of it succeeded.

## Main results

* `Outcome.bind_eq_ok`, `Outcome.bind_eq_error`, `Outcome.map_eq_ok`, `Outcome.mapError_eq_ok`: one
  step
* `Outcome.mapM_eq_ok`, `Outcome.exists_mapM`, `Outcome.forM_eq_ok`: one step for every item of a
  list
* `Outcome.exists_forall₂`, `Outcome.exists_of_forall₂_append`: results of the items of a list
* `Outcome.mapM_map`: a step that commutes with maps
-/

namespace Discography.Outcome

variable {ε ε' α β : Type}

@[simp] theorem bind_eq_ok {x : Except ε α} {f : α → Except ε β} {b : β} :
    (x >>= f) = .ok b ↔ ∃ a, x = .ok a ∧ f a = .ok b := by
  cases x <;> simp [bind, Except.bind]

/-- The first step is refused, or the second one after it. -/
theorem bind_eq_error {x : Except ε α} {f : α → Except ε β} {cause : ε} :
    (x >>= f) = .error cause ↔ x = .error cause ∨ ∃ a, x = .ok a ∧ f a = .error cause := by
  cases x <;> simp [bind, Except.bind]

@[simp] theorem pure_eq_ok {a b : α} : (pure a : Except ε α) = .ok b ↔ a = b :=
  ⟨Except.ok.inj, congrArg _⟩

@[simp] theorem map_eq_ok {x : Except ε α} {f : α → β} {b : β} :
    x.map f = .ok b ↔ ∃ a, x = .ok a ∧ f a = b := by
  cases x <;> simp [Except.map]

theorem map_eq_map (f : α → β) (x : Except ε α) : x.map f = f <$> x := rfl

/-- Another wording of a refusal changes nothing about a success. -/
@[simp] theorem mapError_eq_ok {f : ε → ε'} {a : α} :
    ∀ {x : Except ε α}, x.mapError f = .ok a ↔ x = .ok a
  | .ok _ => by simp [Except.mapError]
  | .error _ => by simp [Except.mapError]

@[simp] theorem toOption_eq_some {x : Except ε α} {a : α} : x.toOption = some a ↔ x = .ok a := by
  cases x <;> simp [Except.toOption]

@[simp] theorem toOption_bind (x : Except ε α) (f : α → Except ε β) :
    (x >>= f).toOption = x.toOption.bind fun a => (f a).toOption := by
  cases x <;> rfl

@[simp] theorem toOption_map (x : Except ε α) (f : α → β) :
    (x.map f).toOption = x.toOption.map f := by
  cases x <;> rfl

@[simp] theorem toOption_pure (a : α) : (pure a : Except ε α).toOption = some a := rfl

/-- A success of which a part is known, with what holds of every success. -/
theorem exists_ok_and {P : α → Prop} {x : Except ε α} {f : α → β} {b : β}
    (hx : x.toOption.map f = some b) (hP : ∀ a, x = .ok a → P a) :
    ∃ a, x = .ok a ∧ P a ∧ f a = b := by
  obtain ⟨a, ha, hb⟩ := Option.map_eq_some_iff.1 hx
  exact ⟨a, toOption_eq_some.1 ha, hP a (toOption_eq_some.1 ha), hb⟩

/-- Every item of a list succeeded, in order. -/
theorem mapM_eq_ok {f : α → Except ε β} {items : List α} {results : List β} :
    items.mapM f = .ok results ↔ List.Forall₂ (fun a b => f a = .ok b) items results := by
  induction items generalizing results with
  | nil => simp [pure, Except.pure, eq_comm]
  | cons a items ih =>
    simp only [List.mapM_cons, bind_eq_ok, pure_eq_ok, ih]
    constructor
    · rintro ⟨b, hb, rest, hrest, rfl⟩
      exact .cons hb hrest
    · rintro (_ | ⟨hb, hrest⟩)
      exact ⟨_, hb, _, hrest, rfl⟩

/-- Every item of a list has its result. -/
theorem exists_mem_of_forall₂ {R : α → β → Prop} {items : List α} {results : List β}
    (h : List.Forall₂ R items results) {a : α} (ha : a ∈ items) : ∃ b ∈ results, R a b := by
  induction h with
  | nil => cases ha
  | cons hab _ ih =>
    rcases List.mem_cons.1 ha with rfl | ha
    · exact ⟨_, List.mem_cons_self, hab⟩
    · obtain ⟨b, hb, hR⟩ := ih ha
      exact ⟨b, List.mem_cons_of_mem _ hb, hR⟩

/-- Items that have results each have a list of results. -/
theorem exists_forall₂ {R : α → β → Prop} {items : List α} (h : ∀ a ∈ items, ∃ b, R a b) :
    ∃ results, List.Forall₂ R items results := by
  induction items with
  | nil => exact ⟨[], .nil⟩
  | cons a items ih =>
    obtain ⟨⟨b, hb⟩, hitems⟩ := List.forall_mem_cons.1 h
    obtain ⟨results, hresults⟩ := ih hitems
    exact ⟨b :: results, .cons hb hresults⟩

/-- The results of the items in front are in front of the others. -/
theorem exists_of_forall₂_append {R : α → β → Prop} {items more : List α} {results : List β}
    (h : List.Forall₂ R (items ++ more) results) :
    ∃ first rest, List.Forall₂ R items first ∧ List.Forall₂ R more rest ∧
      results = first ++ rest := by
  induction items generalizing results with
  | nil => exact ⟨[], results, .nil, h, rfl⟩
  | cons a items ih =>
    obtain ⟨b, others, hb, hothers, rfl⟩ := List.forall₂_cons_left_iff.1 h
    obtain ⟨first, rest, hfirst, hrest, rfl⟩ := ih hothers
    exact ⟨b :: first, rest, .cons hb hfirst, hrest, rfl⟩

/-- A list of which every item succeeds does so itself. -/
theorem exists_mapM {f : α → Except ε β} {items : List α} (h : ∀ a ∈ items, ∃ b, f a = .ok b) :
    ∃ results, items.mapM f = .ok results := by
  simp only [mapM_eq_ok]
  exact exists_forall₂ h

/-- What a list is refused for is what one of its items is refused for. -/
theorem exists_of_mapM_eq_error {f : α → Except ε β} {items : List α} {cause : ε}
    (h : items.mapM f = .error cause) : ∃ a ∈ items, f a = .error cause := by
  induction items with
  | nil => cases h
  | cons a items ih =>
    rw [List.mapM_cons, bind_eq_error] at h
    obtain hfirst | ⟨b, -, h⟩ := h
    · exact ⟨a, List.mem_cons_self, hfirst⟩
    · obtain hrest | ⟨results, -, h⟩ := bind_eq_error.1 h
      · obtain ⟨a', ha', hrefused⟩ := ih hrest
        exact ⟨a', List.mem_cons_of_mem a ha', hrefused⟩
      · cases h

/-- No item of a list is refused. -/
theorem forM_eq_ok {f : α → Except ε Unit} {items : List α} {u : Unit} :
    items.forM f = .ok u ↔ ∀ a ∈ items, f a = .ok () := by
  induction items with
  | nil => simp [List.forM, pure, Except.pure]
  | cons a items ih =>
    simp only [List.forM, bind_eq_ok, ih, List.forall_mem_cons]
    exact ⟨fun ⟨_, ha, h⟩ => ⟨ha, h⟩, fun ⟨ha, h⟩ => ⟨(), ha, h⟩⟩

/-- What a list is refused for without results is what one of its items is refused for. -/
theorem exists_of_forM_eq_error {f : α → Except ε Unit} {items : List α} {cause : ε}
    (h : items.forM f = .error cause) : ∃ a ∈ items, f a = .error cause := by
  induction items with
  | nil => cases h
  | cons a items ih =>
    rw [List.forM, bind_eq_error] at h
    obtain hfirst | ⟨u, -, hrest⟩ := h
    · exact ⟨a, List.mem_cons_self, hfirst⟩
    · obtain ⟨a', ha', hrefused⟩ := ih hrest
      exact ⟨a', List.mem_cons_of_mem a ha', hrefused⟩

/-- A step that commutes with maps of its argument and of its result, for every item of a list. -/
theorem mapM_map {m : Type → Type} [Monad m] [LawfulMonad m] {f : α → m β} {a : α → α} {b : β → β}
    (h : ∀ x, f (a x) = b <$> f x) (xs : List α) :
    (xs.map a).mapM f = List.map b <$> xs.mapM f := by
  induction xs with
  | nil => simp
  | cons x xs ih => simp [ih, h]

end Discography.Outcome
