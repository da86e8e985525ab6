import RouteAtlas.Proofs.Markup.Reference
import RouteAtlas.Proofs.Text.Pieces

/-!
# Tags

A reader of markup finds the tags of a page one code point at a time. Between tags it waits for a
`<`; inside a tag it waits for a `>`, but not inside a quoted value. Escaped text leaves the reader
where it is, so the tags of a page are those of its fixed pieces.
-/

namespace RouteAtlas.Markup

/-- Where a reader of markup is: between tags, or in a tag of which it has read something, or in a
quoted value of that tag. -/
inductive Place
  | between
  | tag (sofar : Text)
  | quoted (sofar : Text) (quote : CodePoint)
deriving DecidableEq

/-- What one code point does: the reader moves on, and may have read a whole tag. -/
def Place.step : Place → CodePoint → Place × List Text
  | .between, c => if c = '<' then (.tag [c], []) else (.between, [])
  | .tag sofar, c =>
    if c = '>' then (.between, [sofar ++ [c]])
    else if c = '"' ∨ c = '\'' then (.quoted (sofar ++ [c]) c, [])
    else (.tag (sofar ++ [c]), [])
  | .quoted sofar quote, c =>
    if c = quote then (.tag (sofar ++ [c]), []) else (.quoted (sofar ++ [c]) quote, [])

/-- Where a text leads the reader, and the tags that it reads on the way. -/
def Place.scan : Place → Text → Place × List Text
  | p, [] => (p, [])
  | p, c :: r =>
    let (q, closed) := p.step c
    let (last, later) := q.scan r
    (last, closed ++ later)

/-- The tags of a text. -/
def tagsIn (t : Text) : List Text := (Place.between.scan t).2

/-- The text ends outside of any tag. -/
def IsClosed (t : Text) : Prop := (Place.between.scan t).1 = .between

instance (t : Text) : Decidable (IsClosed t) := inferInstanceAs (Decidable (_ = _))

namespace Place

theorem scan_append (p : Place) (s t : Text) :
    p.scan (s ++ t) =
      (((p.scan s).1.scan t).1, (p.scan s).2 ++ ((p.scan s).1.scan t).2) := by
  induction s generalizing p with
  | nil => rfl
  | cons c r ih => simp only [List.cons_append, scan, ih, List.append_assoc]

/-- Between tags, text without marks changes nothing. -/
theorem scan_between {t : Text} (plain : ∀ c ∈ t, ¬ IsMark c) :
    between.scan t = (between, []) := by
  induction t with
  | nil => rfl
  | cons c r ih =>
      rw [List.forall_mem_cons] at plain
      have notOpening : c ≠ '<' := fun opening => plain.1 (.inl opening)
      simp [scan, step, notOpening, ih plain.2]

/-- In a quoted value, text without marks is part of the value. -/
theorem scan_quoted {quote : CodePoint} (isMark : IsMark quote) {t : Text}
    (plain : ∀ c ∈ t, ¬ IsMark c) (sofar : Text) :
    (quoted sofar quote).scan t = (quoted (sofar ++ t) quote, []) := by
  induction t generalizing sofar with
  | nil => simp [scan]
  | cons c r ih =>
      rw [List.forall_mem_cons] at plain
      have inside : c ≠ quote := by
        rintro rfl
        exact plain.1 isMark
      simp [scan, step, inside, ih plain.2]

end Place

section Closed

theorem IsClosed.scan_append {s : Text} (h : IsClosed s) (t : Text) :
    Place.between.scan (s ++ t) =
      ((Place.between.scan t).1, tagsIn s ++ (Place.between.scan t).2) := by
  rw [Place.scan_append, show (Place.between.scan s).1 = .between from h]
  rfl

theorem IsClosed.append {s t : Text} (hs : IsClosed s) (ht : IsClosed t) : IsClosed (s ++ t) := by
  rw [IsClosed, hs.scan_append]
  exact ht

theorem isClosed_ofString_append {s t : String} (hs : IsClosed (Text.ofString s))
    (ht : IsClosed (Text.ofString t)) : IsClosed (Text.ofString (s ++ t)) := by
  rw [Text.ofString_append]
  exact hs.append ht

theorem isClosed_ofString {s : String} {cs : List Char} (h : s = String.ofList cs)
    (closed : IsClosed (cs.map CodePoint.ofChar)) : IsClosed (Text.ofString s) := by
  rw [Text.ofString_eq_map h]
  exact closed

/-- The tags of closed texts add up. -/
theorem tagsIn_append {s : Text} (h : IsClosed s) (t : Text) :
    tagsIn (s ++ t) = tagsIn s ++ tagsIn t := by
  rw [tagsIn, h.scan_append]
  rfl

end Closed

end RouteAtlas.Markup
