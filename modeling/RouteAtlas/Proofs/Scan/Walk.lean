import Mathlib.Data.List.Sort
import RouteAtlas.Proofs.Disk.Follow
import RouteAtlas.Proofs.Text.Order
import RouteAtlas.Scan

/-!
# The walk of a source tree

A walk finds the entries below a folder that lead to no folder and whose paths are not excluded
(`mem_filesOf_iff`): leaving out an excluded folder loses nothing, since everything below it is
excluded with it. It finds them in a strict order (`pairwise_filesOf`), so that it is the only list
with these members in that order.
-/

namespace RouteAtlas

/-- A property of the entries of a folder that follows from the entries of the folders in it. -/
theorem Entry.folder_induction {motive : List (Text × Entry) → Prop}
    (step : ∀ es, (∀ n fs, (n, Entry.folder fs) ∈ es → motive fs) → motive es)
    (es : List (Text × Entry)) : motive es :=
  step es fun _ fs _ => folder_induction step fs
termination_by sizeOf es
decreasing_by
  have smaller := List.sizeOf_lt_of_mem ‹_ ∈ es›
  simp only [Prod.mk.sizeOf_spec, Entry.folder.sizeOf_spec] at smaller
  omega

namespace Scan

/-- The order of a walk, on chains of names below its folder, outermost first: the files of a folder
come before what is in the folders of it, and each in the order of the names. -/
inductive Before : List Text → List Text → Prop
  | files {m n : Text} (names : m.Precedes n) : Before [m] [n]
  | fileFirst (m n k : Text) (ns : List Text) : Before [m] (n :: k :: ns)
  | folders {m n : Text} (names : m.Precedes n) (k l : Text) (ms ns : List Text) :
      Before (m :: k :: ms) (n :: l :: ns)
  | inside (n : Text) {ms ns : List Text} (below : Before ms ns) : Before (n :: ms) (n :: ns)

theorem Before.asymm {ms ns : List Text} (h : Before ms ns) : ¬ Before ns ms := by
  intro k
  induction h with
  | files names =>
      cases k with
      | files names' => exact names.asymm names'
      | inside _ below => cases below
  | fileFirst m n k' ns' =>
      cases k with
      | inside _ below => cases below
  | folders names k l ms ns =>
      cases k with
      | folders names' => exact names.asymm names'
      | inside _ below => exact Text.Precedes.irrefl _ names
  | inside n below ih =>
      cases k with
      | files names => exact Text.Precedes.irrefl _ names
      | fileFirst => cases below
      | folders names => exact Text.Precedes.irrefl _ names
      | inside _ below' => exact ih below'

/-- The order of a walk on places below its folder. -/
def BeforeBelow (folder p q : Place) : Prop :=
  ∃ ms ns, p = List.reverse ms ++ folder ∧ q = List.reverse ns ++ folder ∧ Before ms ns

theorem BeforeBelow.asymm {folder p q : Place} (h : BeforeBelow folder p q) :
    ¬ BeforeBelow folder q p := by
  rintro ⟨ns', ms', rfl, rfl, before'⟩
  obtain ⟨ms, ns, sameMs, sameNs, before⟩ := h
  obtain rfl := List.reverse_inj.mp (List.append_cancel_right sameMs)
  obtain rfl := List.reverse_inj.mp (List.append_cancel_right sameNs)
  exact before.asymm before'

instance (folder : Place) : Std.Irrefl (BeforeBelow folder) where
  irrefl _ h := h.asymm h

instance (folder : Place) : Std.Antisymm (BeforeBelow folder) where
  antisymm _ _ h k := absurd k h.asymm

section Excluded

theorem prefix_foldl_below (above : Text) (names : List Text) :
    above <+: names.foldl below above := by
  induction names generalizing above with
  | nil => exact List.prefix_refl above
  | cons n names ih =>
      have first : above <+: below above n := by
        unfold below
        split
        · next empty => exact empty ▸ List.nil_prefix
        · rw [List.append_assoc]
          exact List.prefix_append above _
      exact first.trans (ih (below above n))

/-- What is below an excluded path is excluded. -/
theorem isExcluded_of_prefix {s t : Text} {excluded : List Text} (h : s <+: t)
    (out : isExcluded s excluded = true) : isExcluded t excluded = true := by
  simp only [isExcluded, List.any_eq_true, Bool.and_eq_true, Text.hasPart_iff] at out ⊢
  obtain ⟨part, mem, notEmpty, occurs⟩ := out
  exact ⟨part, mem, notEmpty, occurs.trans h.isInfix⟩

end Excluded

variable {d : Disk} {choice : Choice} {folder : Place} {above : Text} {es : List (Text × Entry)}

theorem filesOf_folder :
    filesOf d choice folder above (.folder es) =
      (kept choice above (fileNames d folder es)).map (· :: folder) ++
        ((filesAmong d choice folder above es).mergeSort fun a b => Text.le a.1 b.1).flatMap
          Prod.snd := by
  rw [filesOf]

/-- With the files of a folder and what is found below its folders in order, nothing is left to
sort. -/
theorem filesOf_of_sorted (names : List Text) {folders : List (Text × List Place)}
    (files : (fileNames d folder es).Perm names)
    (inOrder : names.Pairwise fun s t => Text.le s t = true)
    (among : filesAmong d choice folder above es = folders)
    (amongInOrder : folders.Pairwise fun a b => Text.le a.1 b.1 = true) :
    filesOf d choice folder above (.folder es) =
      (names.filter fun n => !isExcluded (below above n) choice.excluded).map (· :: folder) ++
        folders.flatMap Prod.snd := by
  rw [filesOf_folder, kept, Text.sort_eq_of_perm files inOrder, among,
    List.mergeSort_of_pairwise amongInOrder]

theorem mem_filesAmong_iff {name : Text} {ps : List Place} :
    (name, ps) ∈ filesAmong d choice folder above es ↔
      ∃ fs, (name, Entry.folder fs) ∈ es ∧ isExcluded (below above name) choice.excluded = false ∧
        ps = filesOf d choice (name :: folder) (below above name) (.folder fs) := by
  induction es with
  | nil => simp [filesAmong]
  | cons first rest ih =>
      obtain ⟨n, e⟩ := first
      cases e with
      | file bytes => simp [filesAmong, ih]
      | link target => simp [filesAmong, ih]
      | folder fs =>
          rw [filesAmong]
          split
          · next out =>
              rw [ih]
              constructor
              · rintro ⟨gs, mem, rest⟩
                exact ⟨gs, List.mem_cons_of_mem _ mem, rest⟩
              · rintro ⟨gs, mem, keep, rest⟩
                rcases List.mem_cons.mp mem with same | later
                · obtain ⟨rfl, -⟩ := Prod.mk.inj same
                  simp [keep] at out
                · exact ⟨gs, later, keep, rest⟩
          · next keep =>
              rw [List.mem_cons, ih]
              constructor
              · rintro (same | ⟨gs, mem, rest⟩)
                · obtain ⟨rfl, rfl⟩ := Prod.mk.inj same
                  exact ⟨fs, List.mem_cons_self, by simpa using keep, rfl⟩
                · exact ⟨gs, List.mem_cons_of_mem _ mem, rest⟩
              · rintro ⟨gs, mem, keep', places⟩
                rcases List.mem_cons.mp mem with same | later
                · obtain ⟨rfl, sameFolder⟩ := Prod.mk.inj same
                  obtain rfl := Entry.folder.inj sameFolder
                  exact .inl (by rw [places])
                · exact .inr ⟨gs, later, keep', places⟩

theorem names_filesAmong_sublist :
    ((filesAmong d choice folder above es).map Prod.fst).Sublist (es.map Prod.fst) := by
  induction es with
  | nil => simp [filesAmong]
  | cons first rest ih =>
      obtain ⟨n, e⟩ := first
      cases e with
      | file bytes =>
          rw [filesAmong]
          · exact ih.cons n
          · simp
      | link target =>
          rw [filesAmong]
          · exact ih.cons n
          · simp
      | folder fs =>
          rw [filesAmong]
          split
          · exact ih.cons n
          · exact ih.cons_cons n

/-- Whether an entry leads to a folder is what its path says. -/
theorem leadsToFolder_eq (wf : d.WellFormed)
    (there : d.entryAt? (folder.map Name.respell) = some (.folder es)) {n : Text} {e : Entry}
    (mem : (n, e) ∈ es) : leadsToFolder d folder n e = d.isFolder (Place.toText (n :: folder)) := by
  have found := (wf.entryAt?_cons_iff there).mpr mem
  have spelled : (n :: folder).map Name.respell = n :: folder.map Name.respell := by
    rw [List.map_cons, (wf.proper found n List.mem_cons_self).spelled]
  rw [← spelled] at found
  cases e with
  | file bytes =>
      simp [leadsToFolder, Disk.isFolder, Disk.entry_toText wf found (by simp [Entry.IsLink])]
  | link target => rfl
  | folder fs =>
      simp [leadsToFolder, Disk.isFolder, Disk.entry_toText wf found (by simp [Entry.IsLink])]

/-- A chain of names that a walk finds below a folder: an entry is there, it leads to no folder, and
its path is not excluded. -/
structure IsFound (d : Disk) (choice : Choice) (folder : Place) (above : Text)
    (es : List (Text × Entry)) (names : List Text) : Prop where
  ne_nil : names ≠ []
  reached : ∃ e, Entry.at? names (.folder es) = some e
  noFolder : d.isFolder (Place.toText (names.reverse ++ folder)) = false
  kept : isExcluded (names.foldl below above) choice.excluded = false

theorem mem_fileNames_iff (wf : d.WellFormed)
    (there : d.entryAt? (folder.map Name.respell) = some (.folder es)) {n : Text} :
    n ∈ fileNames d folder es ↔
      (∃ e, Entry.among n es = some e) ∧ d.isFolder (Place.toText (n :: folder)) = false := by
  have different := wf.names_nodup there
  rw [fileNames, List.mem_map]
  constructor
  · rintro ⟨⟨n, e⟩, mem, rfl⟩
    obtain ⟨inFolder, notFolder⟩ := List.mem_filter.mp mem
    rw [leadsToFolder_eq wf there inFolder, Bool.not_eq_true'] at notFolder
    exact ⟨⟨e, (Entry.among_eq_some_iff different).mpr inFolder⟩, notFolder⟩
  · rintro ⟨⟨e, found⟩, notFolder⟩
    have inFolder := (Entry.among_eq_some_iff different).mp found
    refine ⟨(n, e), List.mem_filter.mpr ⟨inFolder, ?_⟩, rfl⟩
    rw [leadsToFolder_eq wf there inFolder, notFolder]
    rfl

theorem mem_kept_iff {names : List Text} {n : Text} :
    n ∈ kept choice above names ↔
      n ∈ names ∧ isExcluded (below above n) choice.excluded = false := by
  rw [kept, List.mem_filter, Text.sort, List.mem_mergeSort, Bool.not_eq_true']

/-- A folder in a folder is at its name. -/
theorem entryAt?_cons_folder (wf : d.WellFormed)
    (there : d.entryAt? (folder.map Name.respell) = some (.folder es)) {n : Text}
    {fs : List (Text × Entry)} (mem : (n, Entry.folder fs) ∈ es) :
    d.entryAt? ((n :: folder).map Name.respell) = some (.folder fs) := by
  have found := (wf.entryAt?_cons_iff there).mpr mem
  rw [List.map_cons, (wf.proper found n List.mem_cons_self).spelled]
  exact found

/-- Below a folder in a folder, a walk finds what it finds from there. -/
theorem isFound_cons_iff (wf : d.WellFormed)
    (there : d.entryAt? (folder.map Name.respell) = some (.folder es)) {n m : Text}
    {names : List Text} :
    IsFound d choice folder above es (n :: m :: names) ↔
      ∃ fs, (n, Entry.folder fs) ∈ es ∧ isExcluded (below above n) choice.excluded = false ∧
        IsFound d choice (n :: folder) (below above n) fs (m :: names) := by
  have different := wf.names_nodup there
  have place : (n :: m :: names).reverse ++ folder = (m :: names).reverse ++ n :: folder := by simp
  constructor
  · rintro ⟨-, ⟨e, reached⟩, noFolder, keep⟩
    obtain ⟨f, found, further⟩ := Option.bind_eq_some_iff.mp reached
    cases f with
    | file bytes => simp [Entry.at?, Entry.entries, Entry.among] at further
    | link target => simp [Entry.at?, Entry.entries, Entry.among] at further
    | folder fs =>
        refine ⟨fs, (Entry.among_eq_some_iff different).mp found, ?_, ?_⟩
        · by_contra out
          rw [Bool.not_eq_false] at out
          have outBelow :=
            isExcluded_of_prefix (prefix_foldl_below (below above n) (m :: names)) out
          exact Bool.false_ne_true (keep.symm.trans outBelow)
        · exact ⟨List.cons_ne_nil m names, ⟨e, further⟩, place ▸ noFolder, keep⟩
  · rintro ⟨fs, mem, -, -, ⟨e, further⟩, noFolder, keep⟩
    refine ⟨List.cons_ne_nil n _, ⟨e, ?_⟩, place ▸ noFolder, keep⟩
    rw [Entry.at?, Entry.entries, (Entry.among_eq_some_iff different).mpr mem]
    exact further

theorem isFound_singleton_iff (wf : d.WellFormed)
    (there : d.entryAt? (folder.map Name.respell) = some (.folder es)) {n : Text} :
    IsFound d choice folder above es [n] ↔ n ∈ kept choice above (fileNames d folder es) := by
  rw [mem_kept_iff, mem_fileNames_iff wf there]
  constructor
  · rintro ⟨-, ⟨e, reached⟩, noFolder, keep⟩
    obtain ⟨f, found, -⟩ := Option.bind_eq_some_iff.mp reached
    exact ⟨⟨⟨f, found⟩, noFolder⟩, keep⟩
  · rintro ⟨⟨⟨e, found⟩, noFolder⟩, keep⟩
    refine ⟨List.cons_ne_nil n [], ⟨e, ?_⟩, noFolder, keep⟩
    rw [Entry.at?, Entry.entries, found]
    rfl

/-- A walk finds the chains of names that are to be found and no others. -/
theorem mem_filesOf_iff (wf : d.WellFormed)
    (there : d.entryAt? (folder.map Name.respell) = some (.folder es)) {p : Place} :
    p ∈ filesOf d choice folder above (.folder es) ↔
      ∃ names, IsFound d choice folder above es names ∧ p = List.reverse names ++ folder := by
  induction es using Entry.folder_induction generalizing folder above p with
  | step es ih =>
      rw [filesOf_folder, List.mem_append, List.mem_map, List.mem_flatMap]
      constructor
      · rintro (⟨n, mem, rfl⟩ | ⟨⟨n, ps⟩, mem, inside⟩)
        · exact ⟨[n], (isFound_singleton_iff wf there).mpr mem, rfl⟩
        · obtain ⟨fs, inFolder, keep, rfl⟩ := mem_filesAmong_iff.mp (List.mem_mergeSort.mp mem)
          obtain ⟨names, found, rfl⟩ :=
            (ih n fs inFolder (entryAt?_cons_folder wf there inFolder)).mp inside
          cases names with
          | nil => exact absurd rfl found.ne_nil
          | cons m names =>
              exact ⟨n :: m :: names, (isFound_cons_iff wf there).mpr ⟨fs, inFolder, keep, found⟩,
                by simp⟩
      · rintro ⟨names, found, rfl⟩
        cases names with
        | nil => exact absurd rfl found.ne_nil
        | cons n names =>
            cases names with
            | nil => exact .inl ⟨n, (isFound_singleton_iff wf there).mp found, rfl⟩
            | cons m names =>
                obtain ⟨fs, inFolder, keep, further⟩ := (isFound_cons_iff wf there).mp found
                refine .inr ⟨(n, _), List.mem_mergeSort.mpr
                  (mem_filesAmong_iff.mpr ⟨fs, inFolder, keep, rfl⟩), ?_⟩
                exact (ih n fs inFolder (entryAt?_cons_folder wf there inFolder)).mpr
                  ⟨m :: names, further, by simp⟩

theorem pairwise_kept {names : List Text} (different : names.Nodup) :
    (kept choice above names).Pairwise Text.Precedes := by
  have sorted := Text.pairwise_precedes_mergeSort id (by rwa [List.map_id])
  exact List.Pairwise.filter _ sorted

/-- What a walk finds in a folder of its folder is below the name of it. -/
theorem below_of_mem_filesAmong (wf : d.WellFormed)
    (there : d.entryAt? (folder.map Name.respell) = some (.folder es)) {x : Text × List Place}
    (mem : x ∈ filesAmong d choice folder above es) {p : Place} (inside : p ∈ x.2) :
    ∃ k ns, p = List.reverse (x.1 :: k :: ns) ++ folder := by
  obtain ⟨n, ps⟩ := x
  obtain ⟨fs, inFolder, -, rfl⟩ := mem_filesAmong_iff.mp mem
  obtain ⟨names, found, rfl⟩ :=
    (mem_filesOf_iff wf (entryAt?_cons_folder wf there inFolder)).mp inside
  cases names with
  | nil => exact absurd rfl found.ne_nil
  | cons k ns => exact ⟨k, ns, by simp⟩

/-- A walk goes in order. -/
theorem pairwise_filesOf (wf : d.WellFormed)
    (there : d.entryAt? (folder.map Name.respell) = some (.folder es)) :
    (filesOf d choice folder above (.folder es)).Pairwise (BeforeBelow folder) := by
  induction es using Entry.folder_induction generalizing folder above with
  | step es ih =>
      have different := wf.names_nodup there
      have fileNames : (fileNames d folder es).Nodup :=
        (List.filter_sublist.map Prod.fst).nodup different
      have folderNames : ((filesAmong d choice folder above es).map Prod.fst).Nodup :=
        names_filesAmong_sublist.nodup different
      rw [filesOf_folder, List.pairwise_append, List.pairwise_map, List.pairwise_flatMap]
      refine ⟨?_, ⟨?_, ?_⟩, ?_⟩
      · exact (pairwise_kept fileNames).imp fun names => ⟨_, _, rfl, rfl, .files names⟩
      · rintro ⟨n, ps⟩ mem
        obtain ⟨fs, inFolder, -, rfl⟩ := mem_filesAmong_iff.mp (List.mem_mergeSort.mp mem)
        refine (ih n fs inFolder (entryAt?_cons_folder wf there inFolder)).imp ?_
        rintro p q ⟨ms, ns, rfl, rfl, before⟩
        exact ⟨n :: ms, n :: ns, by simp, by simp, .inside n before⟩
      · refine (Text.pairwise_precedes_mergeSort Prod.fst folderNames).imp_of_mem ?_
        intro x y memX memY names p inX q inY
        obtain ⟨k, ms, rfl⟩ := below_of_mem_filesAmong wf there (List.mem_mergeSort.mp memX) inX
        obtain ⟨l, ns, rfl⟩ := below_of_mem_filesAmong wf there (List.mem_mergeSort.mp memY) inY
        exact ⟨_, _, rfl, rfl, .folders names k l ms ns⟩
      · intro p mem q inFolders
        obtain ⟨m, -, rfl⟩ := List.mem_map.mp mem
        obtain ⟨x, memX, inX⟩ := List.mem_flatMap.mp inFolders
        obtain ⟨k, ns, rfl⟩ := below_of_mem_filesAmong wf there (List.mem_mergeSort.mp memX) inX
        exact ⟨[m], _, rfl, rfl, .fileFirst m x.1 k ns⟩

end Scan

end RouteAtlas
