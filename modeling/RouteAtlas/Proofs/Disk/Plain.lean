import RouteAtlas.Proofs.Disk.Path

/-!
# Plain places

A name is plain if following it leads into a folder: it is not empty and no dots. The names of a
plain place hold no slash either, so the text of the place has the same names again. Following names
by text alone keeps to plain places.
-/

namespace RouteAtlas

/-- All names of a place lead from a folder to something in it, and none holds a slash. -/
def Place.IsPlain (p : Place) : Prop := ∀ n ∈ p, Name.IsPlain n ∧ slash ∉ n

namespace Place

variable {p : Place}

/-- The text of a place is the text of its names below the top. -/
theorem toText_eq_textBelow (p : Place) : p.toText = Path.textBelow [slash] p := by
  cases p with
  | nil => rfl
  | cons n p =>
      cases names : (n :: p).reverse with
      | nil => exact absurd (List.reverse_eq_nil_iff.mp names) (List.cons_ne_nil n p)
      | cons first rest =>
          rw [toText_cons, Path.textBelow, names, Text.join_cons]
          simp

theorem isPlain_of_map_respell (h : IsProper (p.map Name.respell)) : p.IsPlain := by
  intro n mem
  have proper := h (Name.respell n) (List.mem_map_of_mem mem)
  refine ⟨Name.isPlain_respell_iff.mp proper.isPlain, ?_⟩
  intro inName
  exact proper.slash (Name.mem_respell_of_plain (by decide) inName)

theorem IsPlain.tail (h : p.IsPlain) : IsPlain p.tail := fun n mem => h n (List.mem_of_mem_tail mem)

theorem IsPlain.cons {n : Text} (h : p.IsPlain) (plain : Name.IsPlain n) (free : slash ∉ n) :
    IsPlain (n :: p) :=
  List.forall_mem_cons.mpr ⟨⟨plain, free⟩, h⟩

theorem IsPlain.step (h : p.IsPlain) {name : Text} (free : slash ∉ name) :
    (p.step name).IsPlain := by
  unfold Place.step
  split
  · exact h
  · next notDot =>
      split
      · exact h.tail
      · next notDots => exact h.cons ⟨notDot, notDots⟩ free

/-- Following names by text alone comes to a plain place. -/
theorem IsPlain.walk (h : p.IsPlain) {names : List Text} (free : ∀ n ∈ names, slash ∉ n) :
    (p.walk names).IsPlain := by
  induction names generalizing p with
  | nil => exact h
  | cons n names ih =>
      rw [List.forall_mem_cons] at free
      exact ih (h.step free.1) free.2

theorem walk_of_isPlain {names : List Text} (plain : ∀ n ∈ names, Name.IsPlain n) :
    p.walk names = names.reverse ++ p := by
  induction names generalizing p with
  | nil => rfl
  | cons n names ih =>
      rw [List.forall_mem_cons] at plain
      have first : p.step n = n :: p := by rw [step, if_neg plain.1.1, if_neg plain.1.2]
      have rest := @ih (n :: p) plain.2
      rw [walk] at rest ⊢
      rw [List.foldl_cons, first, rest]
      simp

/-- Names that are spelled as the file tree spells them stay so. -/
theorem map_respell_walk {names : List Text} (spelled : p.map Name.respell = p)
    (names_spelled : ∀ n ∈ names, Name.respell n = n) :
    (p.walk names).map Name.respell = p.walk names := by
  induction names generalizing p with
  | nil => exact spelled
  | cons n names ih =>
      rw [List.forall_mem_cons] at names_spelled
      refine ih ?_ names_spelled.2
      unfold Place.step
      split
      · exact spelled
      · split
        · rw [List.map_tail, spelled]
        · rw [List.map_cons, spelled, names_spelled.1]

theorem IsPlain.map_respell (h : p.IsPlain) : IsPlain (p.map Name.respell) := by
  intro n mem
  obtain ⟨m, inPlace, rfl⟩ := List.mem_map.mp mem
  refine ⟨Name.isPlain_respell_iff.mpr (h m inPlace).1, ?_⟩
  intro inName
  exact (h m inPlace).2 (Name.mem_of_mem_respellAfter (by simp) (by decide) inName)

theorem IsPlain.filter_splitAt_toText (h : p.IsPlain) (ne : p ≠ []) :
    (Text.splitAt slash p.toText).filter (fun n => n ≠ [] ∧ n ≠ Text.ofString ".") = p.reverse := by
  rw [splitAt_toText fun n mem => (h n mem).2, if_neg ne, List.filter_cons_of_neg (by simp),
    List.filter_eq_self]
  intro n mem
  rw [decide_eq_true_eq, ← not_or]
  exact (h n (List.mem_reverse.mp mem)).1.1

/-- Reading the text of a plain place gives its names back. -/
theorem IsPlain.ofText_toText (h : p.IsPlain) (ne : p ≠ []) :
    Path.ofText p.toText = ⟨[slash], p.reverse⟩ := by
  have root : Path.rootOf p.toText = [slash] := by
    rw [toText_of_ne_nil ne]
    cases names : p.reverse with
    | nil => exact absurd (List.reverse_eq_nil_iff.mp names) ne
    | cons n ns =>
        obtain ⟨plain, noSlash⟩ := h n (List.mem_reverse.mp (names ▸ List.mem_cons_self))
        cases n with
        | nil => exact absurd (.inl rfl) plain.1
        | cons c n =>
            have other : c ≠ slash := fun same => noSlash (same ▸ List.mem_cons_self)
            simp [Path.rootOf, other]
  rw [Path.ofText, root, h.filter_splitAt_toText ne]

end Place

end RouteAtlas
