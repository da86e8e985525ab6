import RouteAtlas.Proofs.Disk.Name

/-!
# Places of a well-formed file tree

In a file tree all names are proper and the names in a folder differ. So the text of a place leads
back to the place, and no other text that the file tree spells does.
-/

namespace RouteAtlas

namespace Entry

mutual

/-- All names at and below the entry are proper, and those in one folder differ. -/
def WellFormed : Entry → Prop
  | .file _ => True
  | .link _ => True
  | .folder es => (es.map Prod.fst).Nodup ∧ WellFormedAmong es

/-- All names among some entries and below them are proper, and those in one folder differ. -/
def WellFormedAmong : List (Text × Entry) → Prop
  | [] => True
  | (n, e) :: rest => Name.IsProper n ∧ e.WellFormed ∧ WellFormedAmong rest

end

mutual

/-- Whether an entry is well formed can be computed. -/
def decidableWellFormed : (e : Entry) → Decidable e.WellFormed
  | .file _ => isTrue trivial
  | .link _ => isTrue trivial
  | .folder es =>
    match decidableWellFormedAmong es with
    | isTrue h => if different : (es.map Prod.fst).Nodup then isTrue ⟨different, h⟩
      else isFalse fun wf => different wf.1
    | isFalse h => isFalse fun wf => h wf.2

/-- Whether some entries are well formed can be computed. -/
def decidableWellFormedAmong : (es : List (Text × Entry)) → Decidable (WellFormedAmong es)
  | [] => isTrue trivial
  | (n, e) :: rest =>
    match decidableWellFormed e, decidableWellFormedAmong rest with
    | isTrue h, isTrue k => if proper : Name.IsProper n then isTrue ⟨proper, h, k⟩
      else isFalse fun wf => proper wf.1
    | isFalse h, _ => isFalse fun wf => h wf.2.1
    | _, isFalse k => isFalse fun wf => k wf.2.2

end

instance (e : Entry) : Decidable e.WellFormed := e.decidableWellFormed

/-- The entry is a link. -/
def IsLink (e : Entry) : Prop := ∃ target, e = .link target

theorem mem_of_among {n : Text} {e : Entry} {es : List (Text × Entry)}
    (h : among n es = some e) : (n, e) ∈ es := by
  induction es with
  | nil => simp [among] at h
  | cons first rest ih =>
      obtain ⟨k, f⟩ := first
      rw [among] at h
      split at h
      · next same =>
          obtain rfl := Option.some.inj h
          exact same ▸ List.mem_cons_self
      · exact List.mem_cons_of_mem _ (ih h)

/-- Where names differ, the entry with a name is any entry with that name. -/
theorem among_eq_some_iff {n : Text} {e : Entry} {es : List (Text × Entry)}
    (different : (es.map Prod.fst).Nodup) : among n es = some e ↔ (n, e) ∈ es := by
  refine ⟨mem_of_among, ?_⟩
  intro mem
  induction es with
  | nil => simp at mem
  | cons first rest ih =>
      obtain ⟨k, f⟩ := first
      rw [List.map_cons, List.nodup_cons] at different
      rcases List.mem_cons.mp mem with same | later
      · obtain ⟨rfl, rfl⟩ := Prod.mk.inj same
        simp [among]
      · have other : k ≠ n := by
          rintro rfl
          exact different.1 (List.mem_map.mpr ⟨(k, e), later, rfl⟩)
        rw [among, if_neg other]
        exact ih different.2 later

theorem wellFormed_of_mem {n : Text} {e : Entry} {es : List (Text × Entry)}
    (wf : WellFormedAmong es) (mem : (n, e) ∈ es) : Name.IsProper n ∧ e.WellFormed := by
  induction es with
  | nil => simp at mem
  | cons first rest ih =>
      obtain ⟨k, f⟩ := first
      rcases List.mem_cons.mp mem with same | later
      · obtain ⟨rfl, rfl⟩ := Prod.mk.inj same
        exact ⟨wf.1, wf.2.1⟩
      · exact ih wf.2.2 later

theorem at?_append (ns ms : List Text) (e : Entry) :
    at? (ns ++ ms) e = (at? ns e).bind (at? ms) := by
  induction ns generalizing e with
  | nil => rfl
  | cons n ns ih =>
      rw [List.cons_append, at?, at?, Option.bind_assoc]
      congr
      funext f
      exact ih f

theorem wellFormed_at? {ns : List Text} {e f : Entry} (wf : e.WellFormed) (h : at? ns e = some f) :
    f.WellFormed ∧ ∀ n ∈ ns, Name.IsProper n := by
  induction ns generalizing e with
  | nil =>
      obtain rfl := Option.some.inj h
      exact ⟨wf, by simp⟩
  | cons n ns ih =>
      obtain ⟨g, found, below⟩ := Option.bind_eq_some_iff.mp h
      cases e with
      | file bytes => simp [entries, among] at found
      | link target => simp [entries, among] at found
      | folder es =>
          obtain ⟨proper, wfBelow⟩ := wellFormed_of_mem wf.2 (mem_of_among found)
          obtain ⟨wfEnd, properBelow⟩ := ih wfBelow below
          exact ⟨wfEnd, List.forall_mem_cons.mpr ⟨proper, properBelow⟩⟩

end Entry

namespace Disk

/-- All names of the file tree are proper, those in one folder differ, and the current folder is
there. -/
structure WellFormed (d : Disk) : Prop where
  root : d.root.WellFormed
  current : ∃ es, d.entryAt? d.current = some (.folder es)

section Places

variable {d : Disk}

theorem entryAt?_cons (d : Disk) (n : Text) (p : Place) :
    d.entryAt? (n :: p) = (d.entryAt? p).bind fun e => Entry.among n e.entries := by
  rw [entryAt?, List.reverse_cons, Entry.at?_append]
  congr
  funext e
  rw [Entry.at?]
  cases Entry.among n e.entries <;> rfl

/-- What has a name below a place is in a folder at that place. -/
theorem exists_folder_of_entryAt?_cons {n : Text} {p : Place} {e : Entry}
    (h : d.entryAt? (n :: p) = some e) :
    ∃ es, d.entryAt? p = some (.folder es) ∧ Entry.among n es = some e := by
  rw [entryAt?_cons] at h
  obtain ⟨f, above, found⟩ := Option.bind_eq_some_iff.mp h
  cases f with
  | file bytes => simp [Entry.entries, Entry.among] at found
  | link target => simp [Entry.entries, Entry.among] at found
  | folder es => exact ⟨es, above, found⟩

/-- What is above a place that is there is a folder. -/
theorem exists_folder_of_entryAt?_append {rel p : Place} (ne : rel ≠ []) {e : Entry}
    (h : d.entryAt? (rel ++ p) = some e) : ∃ es, d.entryAt? p = some (.folder es) := by
  induction rel generalizing e with
  | nil => exact absurd rfl ne
  | cons n rel ih =>
      obtain ⟨es, above, -⟩ := exists_folder_of_entryAt?_cons h
      cases rel with
      | nil => exact ⟨es, above⟩
      | cons m rel => exact ih (List.cons_ne_nil m rel) above

/-- What is below a folder is at the names from there. -/
theorem at?_folder {p : Place} {es : List (Text × Entry)} (h : d.entryAt? p = some (.folder es))
    (names : List Text) : Entry.at? names (.folder es) = d.entryAt? (names.reverse ++ p) := by
  rw [entryAt?, List.reverse_append, List.reverse_reverse, Entry.at?_append]
  rw [entryAt?] at h
  rw [h, Option.bind_some]

theorem WellFormed.proper {p : Place} {e : Entry} (wf : d.WellFormed) (h : d.entryAt? p = some e) :
    ∀ n ∈ p, Name.IsProper n := by
  intro n mem
  exact (Entry.wellFormed_at? wf.root h).2 n (List.mem_reverse.mpr mem)

theorem WellFormed.current_proper (wf : d.WellFormed) : ∀ n ∈ d.current, Name.IsProper n := by
  obtain ⟨es, there⟩ := wf.current
  exact wf.proper there

theorem WellFormed.names_nodup {p : Place} {es : List (Text × Entry)} (wf : d.WellFormed)
    (h : d.entryAt? p = some (.folder es)) : (es.map Prod.fst).Nodup :=
  (Entry.wellFormed_at? wf.root h).1.1

/-- An entry of a folder is what is at its name below the folder. -/
theorem WellFormed.entryAt?_cons_iff {p : Place} {es : List (Text × Entry)} (wf : d.WellFormed)
    (h : d.entryAt? p = some (.folder es)) {n : Text} {e : Entry} :
    d.entryAt? (n :: p) = some e ↔ (n, e) ∈ es := by
  rw [entryAt?_cons, h, Option.bind_some, Entry.entries,
    Entry.among_eq_some_iff (wf.names_nodup h)]

end Places

end Disk

namespace Place

/-- All names of a place are proper. -/
def IsProper (p : Place) : Prop := ∀ n ∈ p, Name.IsProper n

theorem toText_cons (n : Text) (p : Place) :
    toText (n :: p) = (n :: p).reverse.flatMap (slash :: ·) := rfl

theorem toText_of_ne_nil {p : Place} (ne : p ≠ []) : p.toText = p.reverse.flatMap (slash :: ·) := by
  cases p with
  | nil => exact absurd rfl ne
  | cons n p => rfl

/-- The names in the text of a place follow an empty one, and are empty for the top. -/
theorem splitAt_toText {p : Place} (h : ∀ n ∈ p, slash ∉ n) :
    Text.splitAt slash p.toText = [] :: if p = [] then [[]] else p.reverse := by
  cases p with
  | nil => rfl
  | cons n p =>
      rw [toText_cons, if_neg (List.cons_ne_nil n p)]
      have free : ∀ m ∈ [] :: (n :: p).reverse, slash ∉ m := by
        intro m mem
        rcases List.mem_cons.mp mem with rfl | mem
        · simp
        · exact h m (List.mem_reverse.mp mem)
      exact Text.splitAt_append_flatMap [] _ free

/-- Proper places are told apart by their texts. -/
theorem IsProper.toText_inj {p q : Place} (hp : p.IsProper) (hq : q.IsProper)
    (h : p.toText = q.toText) : p = q := by
  have pieces := congrArg (Text.splitAt slash) h
  rw [splitAt_toText fun n mem => (hp n mem).slash, splitAt_toText fun n mem => (hq n mem).slash,
    List.cons.injEq] at pieces
  have names := pieces.2
  split at names
  · next top =>
      split at names
      · next top' => rw [top, top']
      · have empty : ([] : Text) ∈ q := List.mem_reverse.mp (names ▸ List.mem_singleton_self _)
        exact absurd rfl (hq [] empty).ne_nil
  · split at names
    · have empty : ([] : Text) ∈ p := List.mem_reverse.mp (names ▸ List.mem_singleton_self _)
      exact absurd rfl (hp [] empty).ne_nil
    · exact List.reverse_inj.mp names

theorem respell_append_flatMap (first : Text) (rest : List Text) :
    Name.respell (first ++ rest.flatMap (slash :: ·)) =
      Name.respell first ++ (rest.map Name.respell).flatMap (slash :: ·) := by
  have plain : slash.escapedByte? = none := by decide
  induction rest generalizing first with
  | nil => simp
  | cons second rest ih =>
      rw [List.flatMap_cons, List.cons_append, Name.respell_append first plain, ih second]
      rfl

/-- The text of a place is spelled name by name. -/
theorem respell_toText (p : Place) : Name.respell p.toText = toText (p.map Name.respell) := by
  cases p with
  | nil => exact Name.respell_of_plain (by decide)
  | cons n p =>
      have names := respell_append_flatMap [] (n :: p).reverse
      rw [List.map_reverse] at names
      exact names

theorem head?_toText (p : Place) (h : ∀ n ∈ p, slash ∉ n) : p.toText.head? = some slash := by
  cases hp : p.reverse with
  | nil =>
      obtain rfl := List.reverse_eq_nil_iff.mp hp
      rfl
  | cons n ns =>
      have ne : p ≠ [] := by
        rintro rfl
        simp at hp
      rw [toText_of_ne_nil ne, hp]
      rfl

/-- The text of a place whose names are proper once they are spelled anew has their spelling. -/
theorem spelling_toText {p : Place} (h : IsProper (p.map Name.respell)) :
    Disk.spelling p.toText = .ok (toText (p.map Name.respell)) := by
  have members : ∀ c ∈ toText (p.map Name.respell),
      c = slash ∨ ∃ n ∈ p.map Name.respell, c ∈ n := by
    intro c mem
    by_cases top : p.map Name.respell = []
    · rw [top] at mem
      exact .inl (List.mem_singleton.mp mem)
    · rw [toText_of_ne_nil top, List.mem_flatMap] at mem
      obtain ⟨m, inPlace, mem⟩ := mem
      rcases List.mem_cons.mp mem with rfl | inName
      · exact .inl rfl
      · exact .inr ⟨m, List.mem_reverse.mp inPlace, inName⟩
  have stays : ∀ c ∈ p.toText, c.escapedByte? = none → c ∈ toText (p.map Name.respell) := by
    intro c mem plain
    rw [← respell_toText]
    exact Name.mem_respell_of_plain plain mem
  have bytes : p.toText.all CodePoint.hasBytes = true := by
    rw [List.all_eq_true]
    intro c mem
    cases escape : c.escapedByte? with
    | some b => simp [CodePoint.hasBytes, escape]
    | none =>
        rcases members c (stays c mem escape) with rfl | ⟨n, inPlace, inName⟩
        · decide
        · exact (h n inPlace).bytes c inName
  have nul : CodePoint.ofChar '\x00' ∉ p.toText := by
    intro mem
    rcases members _ (stays _ mem (by decide)) with same | ⟨n, inPlace, inName⟩
    · revert same
      decide
    · exact (h n inPlace).nul inName
  rw [Disk.spelling, if_pos bytes, if_neg nul, respell_toText]

theorem IsProper.map_respell {p : Place} (h : p.IsProper) : p.map Name.respell = p := by
  have same : p.map Name.respell = p.map id := List.map_congr_left fun n mem => (h n mem).spelled
  rw [same, List.map_id]

end Place

end RouteAtlas
