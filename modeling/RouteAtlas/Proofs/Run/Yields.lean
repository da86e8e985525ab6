/-!
# Actions with a certain answer

A state can be invisible: from every state that satisfies an invariant an action gives the same
answer, and it leaves a state that satisfies the invariant again. Such actions are composed by their
answers alone, whatever each does to the state.
-/

namespace RouteAtlas

/-- The action answers `a` from every state with the invariant, and keeps the invariant. -/
def Yields {σ α : Type} (Inv : σ → Prop) (action : StateM σ α) (a : α) : Prop :=
  ∀ s, Inv s → (action.run s).1 = a ∧ Inv (action.run s).2

namespace Yields

variable {σ α β ε : Type} {Inv : σ → Prop}

theorem pure (a : α) : Yields Inv (Pure.pure a) a := fun _ kept => ⟨rfl, kept⟩

theorem bind {x : StateM σ α} {f : α → StateM σ β} {a : α} {b : β} (first : Yields Inv x a)
    (second : Yields Inv (f a) b) : Yields Inv (x >>= f) b := by
  intro s holds
  obtain ⟨rfl, kept⟩ := first s holds
  exact second _ kept

theorem map {x : StateM σ α} {a : α} (f : α → β) (h : Yields Inv x a) :
    Yields Inv (f <$> x) (f a) := by
  intro s holds
  obtain ⟨rfl, kept⟩ := h s holds
  exact ⟨rfl, kept⟩

theorem foldlM {f : β → α → StateM σ β} {g : β → α → Id β}
    (step : ∀ b a, Yields Inv (f b a) (g b a)) (as : List α) (b : β) :
    Yields Inv (as.foldlM f b) (as.foldlM g b) := by
  induction as generalizing b with
  | nil => exact pure b
  | cons a rest ih => exact (step b a).bind (ih _)

theorem mapM {f : α → StateM σ β} {g : α → β} (each : ∀ a, Yields Inv (f a) (g a))
    (as : List α) : Yields Inv (as.mapM f) (as.map g) := by
  induction as with
  | nil => exact pure []
  | cons a rest ih =>
      rw [List.mapM_cons, List.map_cons]
      exact (each a).bind (ih.bind (pure _))

/-- What may fail goes on from its success alone. -/
theorem exceptBind {x : ExceptT ε (StateM σ) α} {f : α → ExceptT ε (StateM σ) β} {r : Except ε α}
    {g : α → Except ε β} (first : Yields Inv x.run r)
    (second : ∀ a, r = .ok a → Yields Inv (f a).run (g a)) :
    Yields Inv (x >>= f).run (r >>= g) := by
  rw [ExceptT.run_bind]
  refine first.bind ?_
  cases r with
  | ok a => exact second a rfl
  | error e => exact pure _

theorem bind_ok {x : ExceptT ε (StateM σ) α} {f : α → ExceptT ε (StateM σ) β} {a : α}
    {r : Except ε β} (first : Yields Inv x.run (.ok a)) (second : Yields Inv (f a).run r) :
    Yields Inv (x >>= f).run r := by
  rw [ExceptT.run_bind]
  exact first.bind second

theorem bind_error {x : ExceptT ε (StateM σ) α} {f : α → ExceptT ε (StateM σ) β} {e : ε}
    (first : Yields Inv x.run (.error e)) : Yields Inv (x >>= f).run (.error e) := by
  rw [ExceptT.run_bind]
  exact first.bind (pure _)

/-- The state that is read satisfies the invariant. -/
theorem bind_get {f : σ → ExceptT ε (StateM σ) β} {r : Except ε β}
    (h : ∀ s, Inv s → Yields Inv (f s).run r) :
    Yields Inv ((get : ExceptT ε (StateM σ) σ) >>= f).run r := by
  intro s holds
  exact h s holds s holds

end Yields

end RouteAtlas
