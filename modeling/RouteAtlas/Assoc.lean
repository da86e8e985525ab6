/-!
# Association lists

A list of entries, ordered by the first entry of each key. Entering a key again changes its value
and leaves it in its place.
-/

namespace RouteAtlas

/-- Entries in the order in which their keys first appeared. -/
abbrev Assoc (κ ν : Type) := List (κ × ν)

namespace Assoc

variable {κ ν : Type} [DecidableEq κ]

/-- The value of a key. -/
def get? (key : κ) : Assoc κ ν → Option ν
  | [] => none
  | (k, v) :: rest => if k = key then some v else get? key rest

/-- Changes the value of a key, or enters the key at the end. -/
def alter (key : κ) (f : Option ν → ν) : Assoc κ ν → Assoc κ ν
  | [] => [(key, f none)]
  | (k, v) :: rest => if k = key then (k, f (some v)) :: rest else (k, v) :: alter key f rest

/-- Gives a key a value. -/
def put (key : κ) (value : ν) : Assoc κ ν → Assoc κ ν := alter key fun _ => value

/-- Adds members to the list that a key holds. -/
def extend {α : Type} (key : κ) (members : List α) : Assoc κ (List α) → Assoc κ (List α) :=
  alter key fun old => old.getD [] ++ members

/-- Enters pairs one after the other. -/
def putAll (entries : List (κ × ν)) (a : Assoc κ ν) : Assoc κ ν :=
  entries.foldl (fun a e => put e.1 e.2 a) a

theorem get?_alter (key other : κ) (f : Option ν → ν) (a : Assoc κ ν) :
    get? other (alter key f a) = if key = other then some (f (get? key a)) else get? other a := by
  induction a with
  | nil => simp [alter, get?]
  | cons e rest ih =>
    obtain ⟨k, v⟩ := e
    by_cases hk : k = key
    · subst hk
      by_cases ho : k = other <;> simp [alter, get?, ho]
    · by_cases ho : k = other
      · subst ho
        simp [alter, get?, hk, Ne.symm hk]
      · simp [alter, get?, hk, ho, ih]

theorem get?_put (key other : κ) (value : ν) (a : Assoc κ ν) :
    get? other (put key value a) = if key = other then some value else get? other a :=
  get?_alter key other _ a

/-- A key that is present keeps its place; a new key comes last. -/
theorem keys_alter (key : κ) (f : Option ν → ν) (a : Assoc κ ν) :
    (alter key f a).map Prod.fst =
      if key ∈ a.map Prod.fst then a.map Prod.fst else a.map Prod.fst ++ [key] := by
  induction a with
  | nil => simp [alter]
  | cons e rest ih =>
    obtain ⟨k, v⟩ := e
    by_cases hk : k = key
    · simp [alter, hk]
    · simp only [alter, hk, if_false, List.map_cons, ih, List.mem_cons, Ne.symm hk, false_or]
      split <;> simp

/-- An entry after a change was there before, or is the changed one. -/
theorem mem_alter {key : κ} {f : Option ν → ν} {a : Assoc κ ν} {e : κ × ν}
    (h : e ∈ alter key f a) : e ∈ a ∨ ∃ old, e.2 = f old := by
  induction a with
  | nil =>
    obtain rfl : e = (key, f none) := by simpa [alter] using h
    exact .inr ⟨none, rfl⟩
  | cons first rest ih =>
    obtain ⟨k, v⟩ := first
    by_cases hk : k = key
    · simp only [alter, hk, if_pos, List.mem_cons] at h
      rcases h with rfl | h
      · exact .inr ⟨some v, rfl⟩
      · exact .inl (List.mem_cons_of_mem _ h)
    · simp only [alter, hk, if_false, List.mem_cons] at h
      rcases h with rfl | h
      · exact .inl List.mem_cons_self
      · exact (ih h).imp_left (List.mem_cons_of_mem _)

/-- A list grows at its end, and the lists of other keys stay. -/
theorem getD_extend {α : Type} (key other : κ) (members : List α) (a : Assoc κ (List α)) :
    (get? other (extend key members a)).getD [] =
      (get? other a).getD [] ++ if key = other then members else [] := by
  by_cases h : key = other
  · subst h
    simp [extend, get?_alter]
  · simp [extend, get?_alter, h]

/-- Changing a value moves no key. -/
theorem keys_prefix_alter (key : κ) (f : Option ν → ν) (a : Assoc κ ν) :
    a.map Prod.fst <+: (alter key f a).map Prod.fst := by
  rw [keys_alter]
  split
  · exact List.prefix_refl _
  · exact List.prefix_append _ _

theorem keys_prefix_putAll (entries : List (κ × ν)) (a : Assoc κ ν) :
    a.map Prod.fst <+: (putAll entries a).map Prod.fst := by
  induction entries generalizing a with
  | nil => exact List.prefix_refl _
  | cons e rest ih =>
    have first := keys_prefix_alter e.1 (fun _ => e.2) a
    exact first.trans (ih (put e.1 e.2 a))

end Assoc

end RouteAtlas
