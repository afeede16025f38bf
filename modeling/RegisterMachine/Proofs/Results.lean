import Mathlib

/-! Results of computations that may fail, alone, one after the other, and over lists.
-/

namespace RegisterMachine

variable {ε ε' α β : Type}

theorem bind_eq_ok_iff {first : Except ε α} {next : α → Except ε β} {b : β}
    : first >>= next = .ok b ↔ ∃ a, first = .ok a ∧ next a = .ok b := by
  cases first with
  | ok a => simp [bind, Except.bind]
  | error error => simp [bind, Except.bind]

theorem bind_eq_error_iff {first : Except ε α} {next : α → Except ε β} {error : ε}
    : first >>= next = .error error
      ↔ first = .error error ∨ ∃ a, first = .ok a ∧ next a = .error error := by
  cases first with
  | ok a => simp [bind, Except.bind]
  | error error => simp [bind, Except.bind]

/-- What follows a computation counts only at the results that the computation has. -/
theorem bind_congr_ok {first : Except ε α} {next next' : α → Except ε β}
    (h : ∀ a, first = .ok a → next a = next' a)
    : first >>= next = first >>= next' := by
  cases first with
  | ok a => exact h a rfl
  | error error => rfl

theorem pure_eq_ok_iff {a b : α}
    : (pure a : Except ε α) = .ok b ↔ a = b := by
  simp [pure, Except.pure]

theorem map_eq_ok_iff {f : α → β} {result : Except ε α} {b : β}
    : result.map f = .ok b ↔ ∃ a, result = .ok a ∧ f a = b := by
  cases result <;> simp [Except.map]

theorem map_eq_error_iff {f : α → β} {result : Except ε α} {error : ε}
    : result.map f = .error error ↔ result = .error error := by
  cases result <;> simp [Except.map]

theorem mapError_eq_ok_iff {f : ε → ε'} {result : Except ε α} {a : α}
    : result.mapError f = .ok a ↔ result = .ok a := by
  cases result <;> simp [Except.mapError]

theorem mapError_eq_error_iff {f : ε → ε'} {result : Except ε α} {error : ε'}
    : result.mapError f = .error error ↔ ∃ cause, result = .error cause ∧ f cause = error := by
  cases result <;> simp [Except.mapError]

theorem eq_ok_of_toOption {result : Except ε α} {a : α} (h : result.toOption = some a)
    : result = .ok a := by
  cases result with
  | ok value => exact congrArg Except.ok (Option.some.inj h)
  | error error => cases h

/-- A computation over a list succeeds exactly with the values of its members in order,
by induction on the list.
-/
theorem mapM_eq_ok_iff {f : α → Except ε β} {list : List α} {values : List β}
    : list.mapM f = .ok values ↔ List.Forall₂ (fun a value => f a = .ok value) list values := by
  induction list generalizing values with
  | nil => rw [List.mapM_nil, pure_eq_ok_iff, List.forall₂_nil_left_iff, eq_comm]
  | cons a list ih =>
      simp only [List.mapM_cons, bind_eq_ok_iff, pure_eq_ok_iff, ih, List.forall₂_cons_left_iff]
      constructor
      · intro h
        obtain ⟨value, here, rest, later, rfl⟩ := h
        exact ⟨value, rest, here, later, rfl⟩
      · intro h
        obtain ⟨value, rest, here, later, rfl⟩ := h
        exact ⟨value, here, rest, later, rfl⟩

/-- Every member of a list has a partner in a list that is related to it, by induction on the lists.
-/
theorem exists_of_forall₂ {Related : α → β → Prop} {list : List α} {values : List β}
    (h : List.Forall₂ Related list values)
    : ∀ a ∈ list, ∃ value, Related a value := by
  induction h with
  | nil => exact List.forall_mem_nil _
  | cons related _ ih => exact List.forall_mem_cons.mpr ⟨⟨_, related⟩, ih⟩

/-- Members that are related to some value each are related to a list of values, by induction on the
list.
-/
theorem exists_forall₂ {Related : α → β → Prop} {list : List α}
    (h : ∀ a ∈ list, ∃ value, Related a value)
    : ∃ values, List.Forall₂ Related list values := by
  induction list with
  | nil => exact ⟨[], .nil⟩
  | cons a list ih =>
      obtain ⟨⟨value, here⟩, later⟩ := List.forall_mem_cons.mp h
      obtain ⟨values, rest⟩ := ih later
      exact ⟨value :: values, .cons here rest⟩

/-- Relations of lists compose like those of their members, by induction on the lists. -/
theorem forall₂_comp_iff {γ : Type} {First : α → β → Prop} {Second : β → γ → Prop} {list : List α}
    {values : List γ}
    : List.Forall₂ (fun a value => ∃ b, First a b ∧ Second b value) list values
      ↔ ∃ between, List.Forall₂ First list between ∧ List.Forall₂ Second between values := by
  constructor
  · intro h
    induction h with
    | nil => exact ⟨[], .nil, .nil⟩
    | cons related _ ih =>
        obtain ⟨b, first, second⟩ := related
        obtain ⟨between, firsts, seconds⟩ := ih
        exact ⟨b :: between, .cons first firsts, .cons second seconds⟩
  · intro h
    obtain ⟨between, firsts, seconds⟩ := h
    induction firsts generalizing values with
    | nil =>
        cases seconds
        exact .nil
    | cons first _ ih =>
        cases seconds with
        | cons second seconds => exact .cons ⟨_, first, second⟩ (ih seconds)

/-- A computation over a list fails exactly with the error of the first member that has one,
by induction on the list.
-/
theorem mapM_eq_error_iff {f : α → Except ε β} {list : List α} {error : ε}
    : list.mapM f = .error error
      ↔ ∃ before a after,
          list = before ++ a :: after
          ∧ (∀ earlier ∈ before, ∃ value, f earlier = .ok value)
          ∧ f a = .error error := by
  induction list with
  | nil => simp [pure, Except.pure]
  | cons a list ih =>
      simp only [List.mapM_cons, bind_eq_error_iff, ih]
      constructor
      · intro h
        rcases h with here | ⟨value, here, later⟩
        · exact ⟨[], a, list, rfl, by simp, here⟩
        · rcases later with ⟨before, bad, after, rfl, accepted, failed⟩ | ⟨_, _, impossible⟩
          · exact ⟨a :: before, bad, after, rfl,
              List.forall_mem_cons.mpr ⟨⟨value, here⟩, accepted⟩, failed⟩
          · cases impossible
      · intro h
        obtain ⟨before, bad, after, split, accepted, failed⟩ := h
        rcases before with _ | ⟨first, before⟩
        · obtain ⟨rfl, rfl⟩ := List.cons.inj split
          exact Or.inl failed
        · obtain ⟨rfl, rfl⟩ := List.cons.inj split
          obtain ⟨⟨value, here⟩, accepted⟩ := List.forall_mem_cons.mp accepted
          exact Or.inr ⟨value, here, Or.inl ⟨before, bad, after, rfl, accepted, failed⟩⟩

/-- Values may be mapped one by one or all at the end, by induction on the list. -/
theorem mapM_map_eq {γ : Type} (f : α → Except ε β) (g : β → γ) (list : List α)
    : (list.mapM fun a => (f a).map g) = (list.mapM f).map (List.map g) := by
  induction list with
  | nil => rfl
  | cons a list ih =>
      rw [List.mapM_cons, List.mapM_cons, ih]
      cases f a with
      | error error => rfl
      | ok value => cases list.mapM f <;> rfl

/-- Two computations fail in the same way, or succeed with related values. -/
inductive Agree (Related : α → β → Prop) : Except ε α → Except ε β → Prop
  | ok {a b} (related : Related a b) : Agree Related (.ok a) (.ok b)
  | error (error) : Agree Related (.error error) (.error error)

namespace Agree

variable {Related : α → β → Prop} {first : Except ε α} {second : Except ε β}

theorem refl {Related : α → α → Prop} (h : ∀ a, Related a a) (result : Except ε α)
    : Agree Related result result := by
  cases result with
  | ok a => exact .ok (h a)
  | error error => exact .error error

theorem bind {γ δ : Type} {Related' : γ → δ → Prop} {next : α → Except ε γ}
    {next' : β → Except ε δ} (h : Agree Related first second)
    (hnext : ∀ a b, Related a b → Agree Related' (next a) (next' b))
    : Agree Related' (first >>= next) (second >>= next') := by
  cases h with
  | ok related => exact hnext _ _ related
  | error error => exact .error error

theorem mapError (h : Agree Related first second) (f : ε → ε')
    : Agree Related (first.mapError f) (second.mapError f) := by
  cases h with
  | ok related => exact .ok related
  | error error => exact .error (f error)

end Agree

end RegisterMachine
