import RouteAtlas.Markup

/-!
# Templates

A template is what is fixed in a page: its fixed pieces, and a hole for each value between them.
Rendering a page fills the holes of its template with the values, escaped.
-/

namespace RouteAtlas.Markup

/-- The fixed pieces of a page in order, with a hole for each value between them. -/
abbrev Template := List (Option String)

/-- Fills the holes of a template with texts, in order. -/
def fill : Template → List Text → Text
  | [], _ => []
  | some piece :: rest, ts => Text.ofString piece ++ fill rest ts
  | none :: rest, ts => ts.headD [] ++ fill rest ts.tail

/-- What a template says of a part. -/
def piece? : Markup → Option String
  | fixed s => some s
  | value _ => none

/-- The value of a part. -/
def value? : Markup → Option Text
  | fixed _ => none
  | value t => some t

/-- Parts are what a template and the values for its holes make. -/
structure Shows (parts : List Markup) (template : Template) (values : List Text) : Prop where
  pieces : parts.map piece? = template
  values : parts.filterMap value? = values

section Shows

variable {parts qs : List Markup} {f g : Template} {ts us : List Text}

theorem Shows.append (hp : Shows parts f ts) (hq : Shows qs g us) :
    Shows (parts ++ qs) (f ++ g) (ts ++ us) where
  pieces := by rw [List.map_append, hp.pieces, hq.pieces]
  values := by rw [List.filterMap_append, hp.values, hq.values]

theorem Shows.flatMap {α : Type} {p : α → List Markup} {f : α → Template} {ts : α → List Text}
    (h : ∀ x, Shows (p x) (f x) (ts x)) (xs : List α) :
    Shows (xs.flatMap p) (xs.flatMap f) (xs.flatMap ts) := by
  induction xs with
  | nil => exact ⟨rfl, rfl⟩
  | cons x rest ih => exact (h x).append ih

/-- There is one value for each hole. -/
theorem Shows.count_none (h : Shows parts f ts) : f.count none = ts.length := by
  obtain ⟨rfl, rfl⟩ := h
  induction parts with
  | nil => rfl
  | cons part rest ih =>
      cases part with
      | fixed s =>
          calc
            ((Markup.fixed s :: rest).map piece?).count none = (rest.map piece?).count none :=
              List.count_cons_of_ne (by simp [piece?])
            _ = (rest.filterMap value?).length := ih
      | value t =>
          calc
            ((Markup.value t :: rest).map piece?).count none = (rest.map piece?).count none + 1 :=
              List.count_cons_self
            _ = (rest.filterMap value?).length + 1 := by rw [ih]

/-- Rendering fills the holes with the values, escaped. -/
theorem Shows.render (h : Shows parts f ts) : Markup.render parts = fill f (ts.map escape) := by
  obtain ⟨rfl, rfl⟩ := h
  induction parts with
  | nil => rfl
  | cons part rest ih =>
      cases part with
      | fixed s => exact congrArg (Text.ofString s ++ ·) ih
      | value t => exact congrArg (escape t ++ ·) ih

end Shows

end RouteAtlas.Markup
