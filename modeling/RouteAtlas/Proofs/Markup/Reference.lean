import RouteAtlas.Markup

/-!
# References

An escaped text says nothing to a reader of markup: it can neither open nor close a tag or a quoted
value, and every `&` in it begins one of five references. Putting back what the references stand for
gives the text itself, so escaping loses nothing.
-/

namespace RouteAtlas.Markup

/-- The references, each with the code point that it stands for. -/
def references : List (Text × CodePoint) :=
  [("&amp;", '&'), ("&lt;", '<'), ("&gt;", '>'), ("&#34;", '"'), ("&#39;", '\'')]

/-- Reads references back, after `skip` more code points of the reference before. -/
def unescapeAfter : (skip : Nat) → Text → Text
  | _, [] => []
  | skip + 1, _ :: r => unescapeAfter skip r
  | 0, c :: r =>
    match references.find? fun e => e.1.isPrefixOf (c :: r) with
    | some e => e.2 :: unescapeAfter (e.1.length - 1) r
    | none => c :: unescapeAfter 0 r

/-- Puts back the code points that references stand for. -/
def unescape : Text → Text := unescapeAfter 0

/-- The code point opens or closes a tag or a quoted value. -/
def IsMark (c : CodePoint) : Prop := c = '<' ∨ c = '>' ∨ c = '"' ∨ c = '\''

instance (c : CodePoint) : Decidable (IsMark c) := inferInstanceAs (Decidable (_ ∨ _))

/-- A text in which nothing is markup. -/
structure IsInert (t : Text) : Prop where
  plain : ∀ c ∈ t, ¬ IsMark c
  ampersand : ∀ after, CodePoint.ofChar '&' :: after <:+ t →
    ∃ e ∈ references, e.1 <+: CodePoint.ofChar '&' :: after

theorem escape_cons (c : CodePoint) (t : Text) : escape (c :: t) = escape [c] ++ escape t := by
  simp [escape]

/-- A code point is escaped by its reference, if it has one. -/
theorem escape_singleton (c : CodePoint) :
    (escape [c], c) ∈ references ∨ escape [c] = [c] ∧ ∀ e ∈ references, c ≠ e.2 := by
  by_cases marked : c ∈ references.map Prod.snd
  · left
    simp only [references, List.map_cons, List.map_nil, List.mem_cons, List.not_mem_nil, or_false]
      at marked
    rcases marked with rfl | rfl | rfl | rfl | rfl <;> decide
  · right
    have other : ∀ e ∈ references, c ≠ e.2 :=
      fun e mem same => marked (List.mem_map.mpr ⟨e, mem, same.symm⟩)
    have none : reference? c = none := by
      simp only [references, List.forall_mem_cons] at other
      simp [reference?, other]
    exact ⟨by simp [escape, none], other⟩

/-- A reference is an `&` and a name without marks and without another `&`. -/
theorem exists_name_of_mem_references {r : Text} {c : CodePoint} (h : (r, c) ∈ references) :
    ∃ name, r = CodePoint.ofChar '&' :: name ∧ CodePoint.ofChar '&' ∉ name ∧
      ∀ d ∈ name, ¬ IsMark d := by
  have shape : ∀ e ∈ references, e.1 = CodePoint.ofChar '&' :: e.1.tail ∧
      CodePoint.ofChar '&' ∉ e.1.tail ∧ ∀ d ∈ e.1.tail, ¬ IsMark d := by decide
  exact ⟨r.tail, shape _ h⟩

section Unescape

theorem unescape_reference_append {e : Text × CodePoint} (h : e ∈ references) (t : Text) :
    unescape (e.1 ++ t) = e.2 :: unescape t := by
  simp only [references, List.mem_cons, List.not_mem_nil, or_false] at h
  rcases h with rfl | rfl | rfl | rfl | rfl <;> rfl

/-- Only an `&` can begin a reference. -/
theorem unescape_cons {c : CodePoint} (h : c ≠ '&') (t : Text) :
    unescape (c :: t) = c :: unescape t := by
  have none : references.find? (fun e => e.1.isPrefixOf (c :: t)) = none := by
    rw [List.find?_eq_none]
    rintro ⟨reference, d⟩ mem begins
    obtain ⟨name, rfl, -, -⟩ := exists_name_of_mem_references mem
    rw [List.isPrefixOf_iff_prefix, List.cons_prefix_cons] at begins
    exact h begins.1.symm
  rw [unescape, unescapeAfter, none]

/-- Escaping loses nothing. -/
theorem unescape_escape (t : Text) : unescape (escape t) = t := by
  induction t with
  | nil => rfl
  | cons c r ih =>
      rw [escape_cons]
      rcases escape_singleton c with mem | ⟨same, other⟩
      · rw [unescape_reference_append mem, ih]
      · have notAmpersand : c ≠ '&' := other ("&amp;", '&') (by decide)
        rw [same, List.singleton_append, unescape_cons notAmpersand, ih]

end Unescape

section Inert

theorem plain_escape (t : Text) : ∀ c ∈ escape t, ¬ IsMark c := by
  induction t with
  | nil => simp [escape]
  | cons c r ih =>
      rw [escape_cons]
      intro d mem
      rcases List.mem_append.mp mem with here | below
      · rcases escape_singleton c with reference | ⟨same, other⟩
        · obtain ⟨name, shape, -, plain⟩ := exists_name_of_mem_references reference
          rw [shape] at here
          rcases List.mem_cons.mp here with rfl | inName
          · decide
          · exact plain d inName
        · rw [same] at here
          obtain rfl := List.mem_singleton.mp here
          simp only [references, List.forall_mem_cons] at other
          simp [IsMark, other]
      · exact ih d below

private theorem suffix_of_not_mem {α : Type} {x : α} {s front t : List α} (h : x ∉ front)
    (suffix : x :: s <:+ front ++ t) : x :: s <:+ t := by
  induction front with
  | nil => exact suffix
  | cons y rest ih =>
      rw [List.mem_cons, not_or] at h
      rcases List.suffix_cons_iff.mp suffix with whole | later
      · exact absurd (List.cons.inj whole).1 h.1
      · exact ih h.2 later

/-- An `&` of an escaped text is the first code point of the reference for a code point. -/
theorem ampersand_escape (t : Text) : ∀ after, CodePoint.ofChar '&' :: after <:+ escape t →
    ∃ e ∈ references, e.1 <+: CodePoint.ofChar '&' :: after := by
  induction t with
  | nil => simp [escape]
  | cons c r ih =>
      intro after suffix
      rw [escape_cons] at suffix
      rcases escape_singleton c with reference | ⟨same, other⟩
      · obtain ⟨name, shape, alone, -⟩ := exists_name_of_mem_references reference
        rw [shape, List.cons_append] at suffix
        rcases List.suffix_cons_iff.mp suffix with first | later
        · refine ⟨_, reference, ?_⟩
          rw [first, shape]
          exact List.prefix_append (_ :: name) (escape r)
        · exact ih after (suffix_of_not_mem alone later)
      · have notAmpersand : c ≠ '&' := other ("&amp;", '&') (by decide)
        rw [same] at suffix
        apply ih after
        apply suffix_of_not_mem _ suffix
        exact fun mem => notAmpersand (List.mem_singleton.mp mem).symm

theorem isInert_escape (t : Text) : IsInert (escape t) := ⟨plain_escape t, ampersand_escape t⟩

end Inert

end RouteAtlas.Markup
