import RouteAtlas.Import
import RouteAtlas.Proofs.Disk.Plain

/-!
# Paths that an import can lead to

Following a specifier by text alone keeps to plain names: no empty ones and no dots. So every path
that is tried from the file at a place is the text of a place again, unless the specifier leads to
the top (`exists_place_of_mem_candidates`).
-/

namespace RouteAtlas

namespace Import

theorem mem_candidates_of_resolve {d : Disk} {importer specifier q : Text}
    (h : resolve d importer specifier = some q) :
    q ∈ candidates (folderOf d.current importer) specifier := by
  unfold resolve locate at h
  split at h
  · exact List.mem_of_find?_eq_some h
  · simp at h

/-- The folder of the file at a plain place is the place around it. -/
theorem folderOf_toText (current : Place) {p : Place} (h : p.IsPlain) (ne : p ≠ []) :
    folderOf current p.toText = ⟨[slash], p.tail⟩ := by
  have plain : ∀ n ∈ p.reverse, Name.IsPlain n := fun n mem => (h n (List.mem_reverse.mp mem)).1
  rw [folderOf, h.ofText_toText ne]
  simp [Path.isAbsolute, Place.walk_of_isPlain plain]

/-- Following a specifier from a place gives the text of the place that it leads to. -/
theorem follow_eq_toText (folder : Place) (specifier : Text) :
    Folder.follow ⟨[slash], folder⟩ specifier =
      (folder.walk (Text.splitAt slash specifier)).toText := by
  rw [Folder.follow, Place.toText_eq_textBelow]

theorem toText_append_name {p : Place} (ne : p ≠ []) (n : Text) :
    p.toText ++ slash :: n = Place.toText (n :: p) := by
  rw [Place.toText_of_ne_nil ne, Place.toText_cons]
  simp

theorem toText_cons_append (n : Text) (p : Place) (ending : Text) :
    Place.toText (n :: p) ++ ending = Place.toText ((n ++ ending) :: p) := by
  rw [Place.toText_cons, Place.toText_cons]
  simp

/-- An ending of a path is an ending of its last name, or a name after a slash. -/
theorem mem_endings {ending : Text} (h : ending ∈ endings) :
    (slash ∉ ending ∧ (∀ c ∈ ending, c.escapedByte? = none) ∧ (ending = [] ∨ 3 ≤ ending.length)) ∨
      ∃ n, ending = slash :: n ∧ Name.IsPlain n ∧ slash ∉ n ∧ ∀ c ∈ n, c.escapedByte? = none := by
  simp only [endings, List.mem_cons, List.not_mem_nil, or_false] at h
  rcases h with rfl | rfl | rfl | rfl | rfl
  · exact .inl (by decide)
  · exact .inl (by decide)
  · exact .inl (by decide)
  · exact .inr ⟨Text.ofString "index.ts", by decide, ⟨by decide, by decide⟩, by decide, by decide⟩
  · exact .inr ⟨Text.ofString "index.js", by decide, ⟨by decide, by decide⟩, by decide, by decide⟩

/-- A plain name with an ending is plain. -/
theorem isPlain_append {n ending : Text} (plain : Name.IsPlain n)
    (length : ending = [] ∨ 3 ≤ ending.length) : Name.IsPlain (n ++ ending) := by
  rcases length with rfl | long
  · rw [List.append_nil]
    exact plain
  · have differs (s : Text) (short : s.length ≤ 2) : n ++ ending ≠ s := by
      intro same
      have := congrArg List.length same
      rw [List.length_append] at this
      omega
    exact ⟨not_or.mpr ⟨differs _ (by decide), differs _ (by decide)⟩, differs _ (by decide)⟩

/-- A plain place stays plain when its innermost name gets an ending. -/
theorem isPlain_cons_append {n ending : Text} {p : Place} (plain : Place.IsPlain (n :: p))
    (free : slash ∉ ending) (length : ending = [] ∨ 3 ≤ ending.length) :
    Place.IsPlain ((n ++ ending) :: p) := by
  obtain ⟨⟨isName, noSlash⟩, outer⟩ := List.forall_mem_cons.mp plain
  refine Place.IsPlain.cons outer (isPlain_append isName length) ?_
  rw [List.mem_append]
  exact not_or.mpr ⟨noSlash, free⟩

/-- An ending at the path of a plain place leads to the path of one. -/
theorem exists_place_of_append {p : Place} (h : p.IsPlain) (ne : p ≠ []) {ending : Text}
    (mem : ending ∈ endings) :
    ∃ q : Place, p.toText ++ ending = q.toText ∧ q.IsPlain ∧ q ≠ [] ∧
      (p.map Name.respell = p → q.map Name.respell = q) := by
  rcases mem_endings mem with ⟨free, unescaped, length⟩ | ⟨n, rfl, plain, free, unescaped⟩
  · cases p with
    | nil => exact absurd rfl ne
    | cons n p =>
        refine ⟨(n ++ ending) :: p, toText_cons_append n p ending,
          isPlain_cons_append h free length, List.cons_ne_nil _ _, ?_⟩
        intro spelled
        rw [List.map_cons, List.cons.injEq] at spelled
        rw [List.map_cons, spelled.2, Name.respell_append_plain n unescaped, spelled.1]
  · refine ⟨n :: p, toText_append_name ne n, h.cons plain free, List.cons_ne_nil _ _, ?_⟩
    intro spelled
    rw [List.map_cons, spelled, Name.respell_of_plain unescaped]

/-- Every path that is tried for the file at a plain place is the text of a plain place, if the
specifier does not lead to the top. It is spelled as the file tree spells it if the place is and no
escape stands in the specifier. -/
theorem exists_place_of_mem_candidates {folder : Place} (h : folder.IsPlain) {specifier q : Text}
    (ne : folder.walk (Text.splitAt slash specifier) ≠ [])
    (mem : q ∈ candidates ⟨[slash], folder⟩ specifier) :
    ∃ p : Place, q = p.toText ∧ p.IsPlain ∧ p ≠ [] ∧
      (folder.map Name.respell = folder → (∀ c ∈ specifier, c.escapedByte? = none) →
        p.map Name.respell = p) := by
  obtain ⟨ending, isEnding, rfl⟩ := List.mem_map.mp mem
  have plain := h.walk fun n mem => Text.not_mem_of_mem_splitAt (t := specifier) mem
  obtain ⟨p, same, plainEnd, neEnd, spelledEnd⟩ := exists_place_of_append plain ne isEnding
  rw [follow_eq_toText]
  refine ⟨p, same, plainEnd, neEnd, ?_⟩
  intro spelled unescaped
  apply spelledEnd
  apply Place.map_respell_walk spelled
  intro n mem
  exact Name.respell_of_plain fun c inName => unescaped c (Text.mem_of_mem_splitAt mem inName)

/-- A specifier that leads to the top leads to one name at most. -/
theorem names_of_mem_candidates_top {folder : Place} {specifier q : Text}
    (top : folder.walk (Text.splitAt slash specifier) = [])
    (mem : q ∈ candidates ⟨[slash], folder⟩ specifier) :
    Name.respell q = q ∧ q.head? = some slash ∧
      ((Text.splitAt slash q).filter fun n => n ≠ [] ∧ n ≠ Text.ofString ".").length ≤ 1 := by
  obtain ⟨ending, isEnding, rfl⟩ := List.mem_map.mp mem
  have follow : Folder.follow ⟨[slash], folder⟩ specifier = [slash] := by
    rw [follow_eq_toText, top]
    rfl
  have all : ∀ ending ∈ endings, Name.respell ([slash] ++ ending) = [slash] ++ ending ∧
      ([slash] ++ ending).head? = some slash ∧
      ((Text.splitAt slash ([slash] ++ ending)).filter
        fun n => n ≠ [] ∧ n ≠ Text.ofString ".").length ≤ 1 := by
    decide
  rw [follow]
  exact all ending isEnding

end Import

end RouteAtlas
