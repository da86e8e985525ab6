import RouteAtlas.Proofs.Markup.Reference
import RouteAtlas.Proofs.Text.Pieces

/-!
# Elements

A page is read as a sequence of tags, each with the text that follows it. Nothing is quoted in such
a reading: every `<` begins a tag and the next `>` ends it. Reading tags and texts back gives what
was written, as long as they hold no such marks themselves (`elements_append`).
-/

namespace RouteAtlas.Markup

/-- A tag without its brackets, and the text up to the next tag. -/
structure Element where
  tag : Text
  content : Text
deriving DecidableEq

namespace Element

/-- What stands behind the `<` of the element. -/
def piece (e : Element) : Text := e.tag ++ CodePoint.ofChar '>' :: e.content

/-- The element as it stands in a page. -/
def toText (e : Element) : Text := CodePoint.ofChar '<' :: e.piece

/-- The element that stands behind a `<`. -/
def ofPiece (t : Text) : Element where
  tag := t.takeWhile (· ≠ CodePoint.ofChar '>')
  content := (t.dropWhile (· ≠ CodePoint.ofChar '>')).drop 1

/-- The tag holds no brackets, and the text begins no tag. -/
structure IsPlain (e : Element) : Prop where
  tag : ∀ c ∈ e.tag, c ≠ '<' ∧ c ≠ '>'
  content : ∀ c ∈ e.content, c ≠ '<'

instance (e : Element) : Decidable e.IsPlain :=
  decidable_of_iff ((∀ c ∈ e.tag, c ≠ '<' ∧ c ≠ '>') ∧ ∀ c ∈ e.content, c ≠ '<')
    ⟨fun h => ⟨h.1, h.2⟩, fun h => ⟨h.tag, h.content⟩⟩

theorem ofPiece_piece {e : Element} (h : e.IsPlain) : ofPiece e.piece = e := by
  have before : ∀ c ∈ e.tag, decide (c ≠ CodePoint.ofChar '>') = true :=
    fun c mem => decide_eq_true (h.tag c mem).2
  rw [ofPiece, piece, List.takeWhile_append_of_pos before, List.dropWhile_append_of_pos before]
  simp

theorem not_mem_piece {e : Element} (h : e.IsPlain) : CodePoint.ofChar '<' ∉ e.piece := by
  rw [piece, List.mem_append, List.mem_cons]
  rintro (inTag | bracket | inContent)
  · exact (h.tag _ inTag).1 rfl
  · exact absurd bracket (by decide)
  · exact h.content _ inContent rfl

end Element

/-- The elements of a page. What stands before the first tag belongs to none. -/
def elements (page : Text) : List Element := (page.splitAt '<').tail.map Element.ofPiece

/-- Elements behind a text are read after those of the text. -/
theorem elements_append (t : Text) {es : List Element} (h : ∀ e ∈ es, e.IsPlain) :
    elements (t ++ es.flatMap Element.toText) = elements t ++ es := by
  cases es with
  | nil => simp
  | cons first rest =>
      have pieces : rest.flatMap Element.toText =
          (rest.map Element.piece).flatMap (CodePoint.ofChar '<' :: ·) := by
        rw [List.flatMap_map]
        rfl
      have inner : ∀ piece ∈ first.piece :: rest.map Element.piece,
          CodePoint.ofChar '<' ∉ piece := by
        rw [← List.map_cons, List.forall_mem_map]
        exact fun e mem => Element.not_mem_piece (h e mem)
      have cut : Text.splitAt (CodePoint.ofChar '<')
            (t ++ CodePoint.ofChar '<' :: (first.piece ++ rest.flatMap Element.toText)) =
          t.splitAt (CodePoint.ofChar '<') ++ (first :: rest).map Element.piece := by
        rw [Text.splitAt_append, pieces, Text.splitAt_append_flatMap _ _ inner, List.map_cons]
      have read : ((first :: rest).map Element.piece).map Element.ofPiece = first :: rest := by
        rw [List.map_map]
        exact (List.map_congr_left fun e mem => Element.ofPiece_piece (h e mem)).trans
          (List.map_id' _)
      rw [List.flatMap_cons, Element.toText, List.cons_append, elements, cut,
        List.tail_append_of_ne_nil (Text.splitAt_ne_nil t), List.map_append, read]
      rfl

/-- Escaped text begins no tag. -/
theorem ne_of_mem_escape {t : Text} {c : CodePoint} (h : c ∈ escape t) : c ≠ '<' ∧ c ≠ '>' :=
  ⟨fun opening => plain_escape t c h (.inl opening),
    fun closing => plain_escape t c h (.inr (.inl closing))⟩

end RouteAtlas.Markup
