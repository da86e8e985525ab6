import RouteAtlas.Disk.Real
import RouteAtlas.Proofs.Disk.Place

/-!
# Paths as texts

Reading a path text gives a proper path. Its own text, spelled by the file tree, has the names of
the path again, apart from empty names and single dots, and begins with a slash if the path begins
at the top.
-/

namespace RouteAtlas

/-- Cutting a path text at its slashes and spelling it anew can be done in either order. -/
theorem Name.splitAt_respell (t : Text) :
    Text.splitAt slash (Name.respell t) = (Text.splitAt slash t).map Name.respell := by
  cases pieces : Text.splitAt slash t with
  | nil => exact absurd pieces (Text.splitAt_ne_nil t)
  | cons first rest =>
      have whole := Text.join_splitAt slash t
      rw [pieces, Text.join_cons] at whole
      have free : ∀ piece ∈ respell first :: rest.map respell, slash ∉ piece := by
        intro piece mem inPiece
        rw [← List.map_cons, List.mem_map] at mem
        obtain ⟨old, isPiece, rfl⟩ := mem
        have before := mem_of_mem_respellAfter (by simp) (by decide) inPiece
        rw [← pieces] at isPiece
        exact Text.not_mem_of_mem_splitAt isPiece before
      rw [← whole, Place.respell_append_flatMap, Text.splitAt_append_flatMap _ _ free,
        List.map_cons]

namespace Path

/-- A path as reading a text gives it. -/
structure IsProper (p : Path) : Prop where
  root : p.root = [] ∨ p.root = [slash] ∨ p.root = [slash, slash]
  names : ∀ n ∈ p.names, ¬ (n = [] ∨ n = Text.ofString ".") ∧ slash ∉ n

theorem ofText_isProper (t : Text) : (ofText t).IsProper where
  root := by
    rw [ofText, rootOf]
    split
    · exact .inl rfl
    · exact .inr (.inr rfl)
    · exact .inr (.inl rfl)
  names n mem := by
    obtain ⟨isPiece, kept⟩ := List.mem_filter.mp mem
    rw [decide_eq_true_eq, ← not_or] at kept
    exact ⟨kept, Text.not_mem_of_mem_splitAt isPiece⟩

theorem IsProper.expandHome {d : Disk} {p q : Path} (proper : p.IsProper)
    (h : d.expandHome p = .ok q) : q.IsProper := by
  unfold Disk.expandHome at h
  split at h
  · next first rest names =>
      split at h
      · exact Except.ok.inj h ▸ proper
      · split at h
        · obtain rfl := Except.ok.inj h
          have home := ofText_isProper d.home
          refine ⟨home.root, ?_⟩
          intro n mem
          rcases List.mem_append.mp mem with inHome | inRest
          · exact home.names n inHome
          · exact proper.names n (names ▸ List.mem_cons_of_mem _ inRest)
        · simp at h
  · exact Except.ok.inj h ▸ proper

section Proper

variable {p : Path}

theorem toText_of_names {first : Text} {rest : List Text} (names : p.names = first :: rest) :
    p.toText = p.root ++ (first ++ rest.flatMap (slash :: ·)) := by
  rw [toText, if_neg (by simp [names]), names, Text.join_cons]

/-- The names in the text of a path, empty ones and single dots left out, are those of the path. -/
theorem IsProper.filter_splitAt (proper : p.IsProper) :
    (Text.splitAt slash p.toText).filter (fun m => m ≠ [] ∧ m ≠ Text.ofString ".") = p.names := by
  have keep : p.names.filter (fun m => m ≠ [] ∧ m ≠ Text.ofString ".") = p.names := by
    rw [List.filter_eq_self]
    intro n mem
    rw [decide_eq_true_eq, ← not_or]
    exact (proper.names n mem).1
  cases names : p.names with
  | nil =>
      rcases proper.root with root | root | root
      · rw [toText, if_pos ⟨root, names⟩]
        decide
      · rw [toText, if_neg (by simp [root]), root, names]
        decide
      · rw [toText, if_neg (by simp [root]), root, names]
        decide
  | cons first rest =>
      have free : ∀ n ∈ first :: rest, slash ∉ n := fun n mem => (proper.names n (names ▸ mem)).2
      have pieces := Text.splitAt_append_flatMap first rest free
      rw [names] at keep
      rw [toText_of_names names]
      rcases proper.root with root | root | root
      · rw [root, List.nil_append, pieces, keep]
      · rw [root, List.singleton_append, ← List.nil_append (slash :: _), Text.splitAt_append,
          pieces, List.filter_append, keep]
        rfl
      · rw [root, List.cons_append, List.singleton_append, ← List.nil_append (slash :: slash :: _),
          Text.splitAt_append, ← List.nil_append (slash :: (first ++ _)), Text.splitAt_append,
          pieces, List.filter_append, List.filter_append, keep]
        rfl

theorem IsProper.filter_splitAt_respell (proper : p.IsProper) :
    (Text.splitAt slash (Name.respell p.toText)).filter
      (fun m => m ≠ [] ∧ m ≠ Text.ofString ".") = p.names.map Name.respell := by
  rw [Name.splitAt_respell, List.filter_map, ← proper.filter_splitAt]
  congr 1
  apply List.filter_congr
  intro n _
  rw [Function.comp, decide_eq_decide, ← not_or, ← not_or, Name.respell_stays_iff]

/-- The spelling of a path begins with a slash if the path begins at the top. -/
theorem IsProper.head?_respell (proper : p.IsProper) :
    (Name.respell p.toText).head? = some slash ↔ p.isAbsolute = true := by
  have plain : slash.escapedByte? = none := by decide
  have slashFirst (t : Text) : (Name.respell (slash :: t)).head? = some slash := by
    rw [← List.nil_append (slash :: t), Name.respell_append [] plain]
    rfl
  cases names : p.names with
  | nil =>
      rcases proper.root with root | root | root
      · rw [toText, if_pos ⟨root, names⟩, isAbsolute, root]
        decide
      · rw [toText, if_neg (by simp [root]), isAbsolute, root, names]
        decide
      · rw [toText, if_neg (by simp [root]), isAbsolute, root, names]
        decide
  | cons first rest =>
      rw [toText_of_names names]
      rcases proper.root with root | root | root
      · rw [isAbsolute, root, List.nil_append, Place.respell_append_flatMap]
        have first_ne : Name.respell first ≠ [] := fun empty =>
          (proper.names first (names ▸ List.mem_cons_self)).1
            (Name.respell_stays_iff.mp (.inl empty))
        have free : slash ∉ Name.respell first := fun mem =>
          (proper.names first (names ▸ List.mem_cons_self)).2
            (Name.mem_of_mem_respellAfter (by simp) (by decide) mem)
        cases spelled : Name.respell first with
        | nil => exact absurd spelled first_ne
        | cons c r =>
            have notSlash : c ≠ slash := by
              rintro rfl
              exact free (spelled ▸ List.mem_cons_self)
            simp [notSlash]
      · rw [isAbsolute, root, List.singleton_append]
        simp [slashFirst]
      · rw [isAbsolute, root, List.cons_append, List.singleton_append]
        simp [slashFirst]

end Proper

end Path

end RouteAtlas
