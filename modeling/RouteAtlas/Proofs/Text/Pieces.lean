import RouteAtlas.Text

/-!
# Pieces of texts

What cutting a text at a separator, joining texts with it and looking for a part have to do with
each other.
-/

namespace RouteAtlas.Text

theorem hasPart_iff {part t : Text} : hasPart part t = true ↔ part <:+: t := by
  induction t with
  | nil => simp [hasPart]
  | cons c r ih =>
      rw [hasPart, Bool.or_eq_true, ih, List.isPrefixOf_iff_prefix, List.infix_cons_iff]

theorem ofString_append (s t : String) : ofString (s ++ t) = ofString s ++ ofString t := by
  rw [ofString, String.toList_append, List.map_append]
  rfl

section Chars

-- The kernel is quick with a list of characters, and slow with a long literal.

/-- The code points of a string are at hand once its characters are. -/
theorem ofString_eq_map {s : String} {cs : List Char} (h : s = String.ofList cs) :
    ofString s = cs.map CodePoint.ofChar := by
  rw [h, ofString, String.toList_ofList]

theorem append_eq_map {s t : Text} {cs ds : List Char} (hs : s = cs.map CodePoint.ofChar)
    (ht : t = ds.map CodePoint.ofChar) : s ++ t = (cs ++ ds).map CodePoint.ofChar := by
  rw [hs, ht, List.map_append]

theorem ofString_append_eq_map {s t : String} {cs ds : List Char}
    (hs : ofString s = cs.map CodePoint.ofChar) (ht : ofString t = ds.map CodePoint.ofChar) :
    ofString (s ++ t) = (cs ++ ds).map CodePoint.ofChar :=
  (ofString_append s t).trans (append_eq_map hs ht)

end Chars

section Cut

variable {sep : CodePoint}

theorem splitAt_ne_nil (t : Text) : splitAt sep t ≠ [] := by
  cases t with
  | nil => simp [splitAt]
  | cons c r =>
      rw [splitAt]
      split
      · simp
      · split <;> simp

/-- Cutting a text with a separator in it is cutting both sides. -/
theorem splitAt_append (s t : Text) :
    splitAt sep (s ++ sep :: t) = splitAt sep s ++ splitAt sep t := by
  induction s with
  | nil => simp [splitAt]
  | cons c r ih =>
      by_cases h : c = sep
      · simp [splitAt, h, ih]
      · cases pieces : splitAt sep r with
        | nil => exact absurd pieces (splitAt_ne_nil r)
        | cons piece rest => simp [splitAt, h, ih, pieces]

theorem splitAt_of_not_mem {t : Text} (h : sep ∉ t) : splitAt sep t = [t] := by
  induction t with
  | nil => rfl
  | cons c r ih =>
      rw [List.mem_cons, not_or] at h
      simp [splitAt, Ne.symm h.1, ih h.2]

/-- No piece holds the separator. -/
theorem not_mem_of_mem_splitAt {t piece : Text} (h : piece ∈ splitAt sep t) : sep ∉ piece := by
  induction t generalizing piece with
  | nil =>
      obtain rfl : piece = [] := by simpa [splitAt] using h
      simp
  | cons c r ih =>
      rw [splitAt] at h
      split at h
      · rcases List.mem_cons.mp h with rfl | later
        · simp
        · exact ih later
      · next different =>
          cases pieces : splitAt sep r with
          | nil => exact absurd pieces (splitAt_ne_nil r)
          | cons first rest =>
              rw [pieces] at h ih
              rcases List.mem_cons.mp h with rfl | later
              · rw [List.mem_cons, not_or]
                exact ⟨Ne.symm different, ih List.mem_cons_self⟩
              · exact ih (List.mem_cons_of_mem _ later)

/-- What is in a piece was in the text. -/
theorem mem_of_mem_splitAt {t piece : Text} (h : piece ∈ splitAt sep t) {c : CodePoint}
    (mem : c ∈ piece) : c ∈ t := by
  induction t generalizing piece with
  | nil =>
      obtain rfl : piece = [] := by simpa [splitAt] using h
      simp at mem
  | cons d r ih =>
      rw [splitAt] at h
      split at h
      · rcases List.mem_cons.mp h with rfl | later
        · simp at mem
        · exact List.mem_cons_of_mem _ (ih later mem)
      · cases pieces : splitAt sep r with
        | nil => exact absurd pieces (splitAt_ne_nil r)
        | cons first rest =>
            rw [pieces] at h ih
            rcases List.mem_cons.mp h with rfl | later
            · rcases List.mem_cons.mp mem with rfl | mem
              · exact List.mem_cons_self
              · exact List.mem_cons_of_mem _ (ih List.mem_cons_self mem)
            · exact List.mem_cons_of_mem _ (ih (List.mem_cons_of_mem _ later) mem)

/-- Cutting undoes writing each text behind a separator. -/
theorem splitAt_append_flatMap (first : Text) (rest : List Text)
    (h : ∀ t ∈ first :: rest, sep ∉ t) :
    splitAt sep (first ++ rest.flatMap (sep :: ·)) = first :: rest := by
  induction rest generalizing first with
  | nil => simp [splitAt_of_not_mem (h first List.mem_cons_self)]
  | cons second rest ih =>
      rw [List.flatMap_cons, List.cons_append, splitAt_append,
        splitAt_of_not_mem (h first List.mem_cons_self),
        ih second fun t mem => h t (List.mem_cons_of_mem _ mem)]
      rfl

theorem join_cons (first : Text) (rest : List Text) :
    join [sep] (first :: rest) = first ++ rest.flatMap (sep :: ·) := by
  induction rest generalizing first with
  | nil => simp [join]
  | cons second rest ih =>
      rw [join, ih second]
      · simp
      · simp

end Cut

end RouteAtlas.Text
