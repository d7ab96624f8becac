import Mathlib.Data.List.Forall2

/-!
# Computations that may fail

When the steps of a computation succeed, and what they then give.
-/

namespace EnvCensus

variable {α β ε δ : Type}

theorem ok_bind (a : α) (f : α → Except ε β) : (Except.ok a >>= f) = f a := rfl

theorem bind_eq_ok {x : Except ε α} {f : α → Except ε β} {b : β} :
    (x >>= f) = .ok b ↔ ∃ a, x = .ok a ∧ f a = .ok b := by
  cases x <;> simp [bind, Except.bind]

/-- A step that always gives a result decides nothing. -/
theorem bind_ok_iff {x : Except ε α} {f : α → Except ε β} (total : ∀ a, ∃ b, f a = .ok b) :
    (∃ b, x >>= f = .ok b) ↔ ∃ a, x = .ok a := by
  constructor
  · rintro ⟨b, h⟩
    obtain ⟨a, ha, -⟩ := bind_eq_ok.mp h
    exact ⟨a, ha⟩
  · rintro ⟨a, ha⟩
    obtain ⟨b, hb⟩ := total a
    exact ⟨b, bind_eq_ok.mpr ⟨a, ha, hb⟩⟩

theorem map_eq_ok {x : Except ε α} {f : α → β} {b : β} :
    x.map f = .ok b ↔ ∃ a, x = .ok a ∧ f a = b := by
  cases x <;> simp [Except.map]

theorem map_eq_error {x : Except ε α} {f : α → β} {e : ε} : x.map f = .error e ↔ x = .error e := by
  cases x <;> simp [Except.map]

theorem mapError_eq_ok {x : Except ε α} {f : ε → δ} {a : α} :
    x.mapError f = .ok a ↔ x = .ok a := by
  cases x <;> simp [Except.mapError]

/-- When every element has a result, so has the list, element by element. -/
theorem mapM_forall₂ {g : α → Except ε β} {R : α → β → Prop} {xs : List α}
    (h : ∀ x ∈ xs, ∃ y, g x = .ok y ∧ R x y) :
    ∃ ys, xs.mapM g = .ok ys ∧ List.Forall₂ R xs ys := by
  induction xs with
  | nil => exact ⟨[], rfl, .nil⟩
  | cons x xs ih =>
    obtain ⟨y, hy, hxy⟩ := h x List.mem_cons_self
    obtain ⟨ys, hys, hxs⟩ := ih fun z hz => h z (List.mem_cons_of_mem _ hz)
    refine ⟨y :: ys, ?_, .cons hxy hxs⟩
    rw [List.mapM_cons, hy, hys]
    rfl

/-- Elements with known results make a list of them. -/
theorem mapM_eq_map {g : α → Except ε β} {f : α → β} {xs : List α}
    (each : ∀ x ∈ xs, g x = .ok (f x)) : xs.mapM g = .ok (xs.map f) := by
  induction xs with
  | nil => rfl
  | cons x xs ih =>
    obtain ⟨first, others⟩ := List.forall_mem_cons.mp each
    rw [List.mapM_cons, first, ih others]
    rfl

/-- The results of a list are those of its elements. -/
theorem forall₂_of_mapM {g : α → Except ε β} {xs : List α} {ys : List β}
    (h : xs.mapM g = .ok ys) : List.Forall₂ (fun x y => g x = .ok y) xs ys := by
  induction xs generalizing ys with
  | nil =>
    cases h
    exact .nil
  | cons x xs ih =>
    rw [List.mapM_cons] at h
    obtain ⟨y, hy, h⟩ := bind_eq_ok.mp h
    obtain ⟨rest, hrest, h⟩ := bind_eq_ok.mp h
    cases h
    exact .cons hy (ih hrest)

/-- What relates every element to its result relates the lists. -/
theorem forall₂_mapM {g : α → Except ε β} {R : α → β → Prop} {xs : List α} {ys : List β}
    (h : xs.mapM g = .ok ys) (each : ∀ x ∈ xs, ∀ y, g x = .ok y → R x y) :
    List.Forall₂ R xs ys := by
  have pairs := forall₂_of_mapM h
  clear h
  induction pairs with
  | nil => exact .nil
  | cons first _ ih =>
    obtain ⟨here, others⟩ := List.forall_mem_cons.mp each
    exact .cons (here _ first) (ih others)

/-- Each member of the second list has a partner in the first. -/
theorem mem_of_forall₂ {R : α → β → Prop} {xs : List α} {ys : List β} (h : List.Forall₂ R xs ys)
    {y : β} (hy : y ∈ ys) : ∃ x ∈ xs, R x y := by
  induction h with
  | nil => cases hy
  | cons first _ ih =>
    rcases List.mem_cons.mp hy with rfl | hy
    · exact ⟨_, List.mem_cons_self, first⟩
    · obtain ⟨x, hx, related⟩ := ih hy
      exact ⟨x, List.mem_cons_of_mem _ hx, related⟩

theorem mem_of_mapM {g : α → Except ε β} {xs : List α} {ys : List β} (h : xs.mapM g = .ok ys)
    {y : β} (hy : y ∈ ys) : ∃ x ∈ xs, g x = .ok y :=
  mem_of_forall₂ (forall₂_of_mapM h) hy

theorem mem_mapM {g : α → Except ε β} {xs : List α} {ys : List β} (h : xs.mapM g = .ok ys)
    {x : α} (hx : x ∈ xs) : ∃ y ∈ ys, g x = .ok y := by
  have pairs := forall₂_of_mapM h
  clear h
  induction pairs with
  | nil => cases hx
  | cons first _ ih =>
    rcases List.mem_cons.mp hx with rfl | hx
    · exact ⟨_, List.mem_cons_self, first⟩
    · obtain ⟨y, hy, e⟩ := ih hx
      exact ⟨y, List.mem_cons_of_mem _ hy, e⟩

/-- A list has results just when each of its elements has one. -/
theorem mapM_ok_iff {g : α → Except ε β} {xs : List α} :
    (∃ ys, xs.mapM g = .ok ys) ↔ ∀ x ∈ xs, ∃ y, g x = .ok y := by
  constructor
  · rintro ⟨ys, h⟩ x hx
    obtain ⟨y, -, e⟩ := mem_mapM h hx
    exact ⟨y, e⟩
  · intro each
    obtain ⟨ys, h, -⟩ := mapM_forall₂ (R := fun _ _ => True) fun x hx =>
      (each x hx).imp fun y e => ⟨e, trivial⟩
    exact ⟨ys, h⟩

/-- What is true of the result of every element is true of all results. -/
theorem all_of_mapM {g : α → Except ε β} {P : β → Prop} {xs : List α} {ys : List β}
    (h : xs.mapM g = .ok ys) (each : ∀ x ∈ xs, ∀ y, g x = .ok y → P y) : ∀ y ∈ ys, P y := by
  intro y hy
  obtain ⟨x, hx, e⟩ := mem_of_mapM h hy
  exact each x hx y e

/-! ### Computations that fail alike -/

/-- The computations fail in the same cases and in the same way. -/
def FailAlike (x x' : Except ε α) : Prop := ∀ e, x = .error e ↔ x' = .error e

namespace FailAlike

variable {x x' : Except ε α} {y y' : Except ε β} {γ : Type}

theorem cases_on (h : FailAlike x x') :
    (∃ e, x = .error e ∧ x' = .error e) ∨ ∃ a a', x = .ok a ∧ x' = .ok a' := by
  cases x with
  | error e => exact Or.inl ⟨e, rfl, (h e).mp rfl⟩
  | ok a =>
    cases x' with
    | error e => cases (h e).mpr rfl
    | ok a' => exact Or.inr ⟨a, a', rfl, rfl⟩

theorem mapError (h : FailAlike x x') (f : ε → δ) :
    FailAlike (x.mapError f) (x'.mapError f) := by
  rcases h.cases_on with ⟨e, rfl, rfl⟩ | ⟨a, a', rfl, rfl⟩
  · exact fun _ => Iff.rfl
  · exact fun _ => iff_of_false nofun nofun

/-- Two steps, neither of which depends on the other one's result. -/
theorem both (first : FailAlike x x') (second : FailAlike y y') (g : α → β → γ) :
    FailAlike (do return g (← x) (← y)) (do return g (← x') (← y')) := by
  rcases first.cases_on with ⟨e, rfl, rfl⟩ | ⟨a, a', rfl, rfl⟩
  · exact fun _ => Iff.rfl
  · rcases second.cases_on with ⟨e, rfl, rfl⟩ | ⟨b, b', rfl, rfl⟩
    · exact fun _ => Iff.rfl
    · exact fun _ => iff_of_false nofun nofun

end FailAlike

/-! ### How a computation ends -/

/-- The computation gives a result with the property `P`, or it fails in a way that `E` allows. -/
inductive Ends (E : ε → Prop) (P : α → Prop) : Except ε α → Prop
  | ok {a : α} (h : P a) : Ends E P (.ok a)
  | error {e : ε} (h : E e) : Ends E P (.error e)

namespace Ends

variable {E : ε → Prop} {P : α → Prop} {Q : β → Prop} {x : Except ε α}

theorem any (x : Except ε α) : Ends (fun _ => True) (fun _ => True) x := by
  cases x with
  | ok a => exact .ok trivial
  | error e => exact .error trivial

theorem result (h : Ends E P x) {a : α} (e : x = .ok a) : P a := by
  subst e
  cases h with
  | ok h => exact h

theorem failure (h : Ends E P x) {e : ε} (failed : x = .error e) : E e := by
  subst failed
  cases h with
  | error h => exact h

theorem imp {E' : ε → Prop} {P' : α → Prop} (h : Ends E P x) (errors : ∀ e, E e → E' e)
    (results : ∀ a, P a → P' a) : Ends E' P' x := by
  cases h with
  | ok h => exact .ok (results _ h)
  | error h => exact .error (errors _ h)

theorem bind {f : α → Except ε β} (h : Ends E P x) (next : ∀ a, P a → Ends E Q (f a)) :
    Ends E Q (x >>= f) := by
  cases h with
  | ok h => exact next _ h
  | error h => exact .error h

theorem map {f : α → β} (h : Ends E P x) (next : ∀ a, P a → Q (f a)) : Ends E Q (x.map f) := by
  cases h with
  | ok h => exact .ok (next _ h)
  | error h => exact .error h

theorem mapError {E' : δ → Prop} {f : ε → δ} (h : Ends E P x) (errors : ∀ e, E e → E' (f e)) :
    Ends E' P (x.mapError f) := by
  cases h with
  | ok h => exact .ok h
  | error h => exact .error (errors _ h)

theorem mapM {g : α → Except ε β} {xs : List α} (each : ∀ x ∈ xs, Ends E Q (g x)) :
    Ends E (fun ys => ∀ y ∈ ys, Q y) (xs.mapM g) := by
  induction xs with
  | nil => exact .ok (by simp)
  | cons x xs ih =>
    rw [List.mapM_cons]
    refine (each x List.mem_cons_self).bind fun y first => ?_
    refine (ih fun z hz => each z (List.mem_cons_of_mem _ hz)).bind fun ys rest => ?_
    exact .ok (List.forall_mem_cons.mpr ⟨first, rest⟩)

end Ends

end EnvCensus
