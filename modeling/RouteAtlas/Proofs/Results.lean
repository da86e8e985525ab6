import Mathlib.Data.List.Forall2

/-!
# Steps that may fail

Steps in a row, and one step for each member of a list. The whole succeeds exactly if every part
does, and what it gives is made of what the parts give.
-/

namespace RouteAtlas

variable {ε α β : Type}

theorem exists_bind_ok {x : Except ε α} {f : α → Except ε β} :
    (∃ b, (x >>= f) = .ok b) ↔ ∃ a, x = .ok a ∧ ∃ b, f a = .ok b := by
  cases x with
  | error e => simp [bind, Except.bind]
  | ok a => simp [bind, Except.bind]

theorem exists_map_ok {x : Except ε α} {f : α → β} :
    (∃ b, x.map f = .ok b) ↔ ∃ a, x = .ok a := by
  cases x with
  | error e => simp [Except.map]
  | ok a => simp [Except.map]

theorem exists_fmap_ok {x : Except ε α} {f : α → β} :
    (∃ b, f <$> x = .ok b) ↔ ∃ a, x = .ok a :=
  exists_map_ok

theorem exists_mapM_ok {f : α → Except ε β} {xs : List α} :
    (∃ ys, xs.mapM f = .ok ys) ↔ ∀ x ∈ xs, ∃ y, f x = .ok y := by
  induction xs with
  | nil => simp [pure, Except.pure]
  | cons x rest ih =>
      simp only [List.mapM_cons, exists_bind_ok, List.forall_mem_cons, ← ih]
      simp [pure, Except.pure]

/-- A step that succeeds is followed by another that succeeds with what it gave. -/
theorem bind_eq_ok {x : Except ε α} {f : α → Except ε β} {b : β} (h : (x >>= f) = .ok b) :
    ∃ a, x = .ok a ∧ f a = .ok b := by
  cases x with
  | error e => cases h
  | ok a => exact ⟨a, rfl, h⟩

theorem map_eq_ok {x : Except ε α} {f : α → β} {b : β} (h : x.map f = .ok b) :
    ∃ a, x = .ok a ∧ f a = b := by
  cases x with
  | error e => cases h
  | ok a => exact ⟨a, rfl, Except.ok.inj h⟩

theorem mapM_eq_of_forall₂ {R : α → α → Prop} {f : α → Except ε β} {xs ys : List α}
    (h : List.Forall₂ R xs ys) (same : ∀ x ∈ xs, ∀ y, R x y → f y = f x) :
    ys.mapM f = xs.mapM f := by
  induction h with
  | nil => rfl
  | cons related _ ih =>
      obtain ⟨here, below⟩ := List.forall_mem_cons.mp same
      rw [List.mapM_cons, List.mapM_cons, here _ related, ih below]

/-- What is given for a list is what is given for its members. -/
theorem mem_of_mapM_eq_ok {f : α → Except ε β} {xs : List α} {ys : List β}
    (h : xs.mapM f = .ok ys) (y : β) : y ∈ ys ↔ ∃ x ∈ xs, f x = .ok y := by
  induction xs generalizing ys with
  | nil =>
      obtain rfl := Except.ok.inj h
      simp
  | cons x rest ih =>
      rw [List.mapM_cons] at h
      obtain ⟨first, here, h⟩ := bind_eq_ok h
      obtain ⟨others, later, h⟩ := bind_eq_ok h
      obtain rfl := Except.ok.inj h
      simp [ih later, here, eq_comm]

end RouteAtlas
