import RouteAtlas.Proofs.Disk.Alike
import RouteAtlas.Proofs.Scan.Walk

/-!
# The source files of a tree

A scan of a folder is the walk that leaves nothing out, filtered: by the endings and excluded texts,
and by which paths lead to a file. It gives no path twice, goes in the order of the walk, and does
not depend on the order in which folders list their entries. It gives no answer at all exactly when
a path that it looks at leads to a name that is too long.
-/

namespace RouteAtlas.Scan

section Filter

variable {α ε : Type} {f : α → Except ε Bool} {xs : List α}

theorem filterM_of_ok {g : α → Bool} (h : ∀ x ∈ xs, f x = .ok (g x)) :
    xs.filterM f = .ok (xs.filter g) := by
  have aux : ∀ found : List α, xs.filterAuxM f found = .ok ((xs.filter g).reverse ++ found) := by
    induction xs with
    | nil => intro found; rfl
    | cons x xs ih =>
        intro found
        rw [List.forall_mem_cons] at h
        rw [List.filterAuxM, h.1]
        simp only [bind, Except.bind]
        rw [ih h.2]
        cases keep : g x <;> simp [keep]
  rw [List.filterM, aux]
  simp [bind, Except.bind, pure, Except.pure]

/-- A filter that gives an answer has one about each element. -/
theorem exists_ok_of_filterM {ys : List α} (h : xs.filterM f = .ok ys) :
    ∀ x ∈ xs, ∃ b, f x = .ok b := by
  have aux : ∀ found ys : List α, xs.filterAuxM f found = .ok ys → ∀ x ∈ xs, ∃ b, f x = .ok b := by
    clear h
    induction xs with
    | nil => simp
    | cons x xs ih =>
        intro found ys h
        rw [List.filterAuxM] at h
        cases first : f x with
        | error e => simp [first, bind, Except.bind] at h
        | ok b =>
            simp only [first, bind, Except.bind] at h
            exact List.forall_mem_cons.mpr ⟨⟨b, first⟩, ih _ _ h⟩
  rw [List.filterM] at h
  cases all : xs.filterAuxM f [] with
  | error e => simp [all, bind, Except.bind] at h
  | ok zs => exact aux [] zs all

end Filter

/-- The chain of names that leads from a folder to a place below it, outermost first. -/
def chain (folder p : Place) : List Text := (p.take (p.length - folder.length)).reverse

theorem chain_append (folder : Place) (names : List Text) :
    chain folder (names.reverse ++ folder) = names := by
  simp [chain]

/-- The chains of names of all entries below a folder that lead to no folder, in the order of a walk
that leaves nothing out. -/
def walk (d : Disk) (top : Place) (es : List (Text × Entry)) : List (List Text) :=
  (filesOf d ⟨[], []⟩ top [] (.folder es)).map (chain top)

/-- The path to the end of a chain of names below a place. -/
def pathTo (top : Place) (names : List Text) : Text := Place.toText (names.reverse ++ top)

/-- The last name of a chain has an ending looked for. -/
def hasEnding (choice : Choice) (names : List Text) : Bool :=
  choice.extensions.any fun x => Text.endsWith (names.getLastD []) x

/-- A chain of names to look at: an entry is there, its name has an ending looked for, and its path
below the top contains no excluded text. -/
structure IsSought (choice : Choice) (es : List (Text × Entry)) (names : List Text) : Prop where
  ne_nil : names ≠ []
  reached : ∃ e, Entry.at? names (.folder es) = some e
  ending : ∃ x ∈ choice.extensions, x <:+ names.getLastD []
  kept : ∀ part ∈ choice.excluded, part ≠ [] → ¬ part <:+: Text.join [slash] names

/-- The part of the whole walk whose paths are not excluded, have an ending looked for and lead to a
file. -/
def filteredWalk (d : Disk) (choice : Choice) (top : Place) (es : List (Text × Entry)) :
    List (List Text) :=
  (walk d top es).filter fun names =>
    !isExcluded (Text.join [slash] names) choice.excluded && hasEnding choice names &&
      d.isFile (pathTo top names)

/-- The paths are what a scan of a folder is to give. -/
structure IsScan (d : Disk) (choice : Choice) (top : Place) (es : List (Text × Entry))
    (paths : List Text) : Prop where
  eq_walk : paths = (filteredWalk d choice top es).map (pathTo top)
  mem_iff : ∀ t, t ∈ paths ↔ ∃ names, IsSought choice es names ∧
    (∃ bytes, d.entry (pathTo top names) = .ok (.file bytes)) ∧ t = pathTo top names
  nodup : paths.Nodup
  ordered : paths.Pairwise fun s t => ∃ ms ns, s = pathTo top ms ∧ t = pathTo top ns ∧ Before ms ns

section Paths

theorem foldl_below {above : Text} (ne : above ≠ []) (names : List Text) :
    names.foldl below above = above ++ names.flatMap (slash :: ·) := by
  induction names generalizing above with
  | nil => simp
  | cons n names ih =>
      rw [List.foldl_cons, below, if_neg ne, ih (by simp)]
      simp

/-- The path below the top is its names with slashes between them. -/
theorem foldl_below_nil {names : List Text} (ne : ∀ n ∈ names, n ≠ []) :
    names.foldl below [] = Text.join [slash] names := by
  cases names with
  | nil => rfl
  | cons n names =>
      rw [List.foldl_cons, below, if_pos rfl, foldl_below (ne n List.mem_cons_self), Text.join_cons]

theorem headD_reverse_append {names : List Text} (ne : names ≠ []) (top : Place) :
    (names.reverse ++ top).headD [] = names.getLastD [] := by
  obtain ⟨init, last, rfl⟩ : ∃ init last, names = init ++ [last] :=
    ⟨_, _, (List.dropLast_append_getLast ne).symm⟩
  simp

theorem isExcluded_eq_false_iff {path : Text} {excluded : List Text} :
    isExcluded path excluded = false ↔ ∀ part ∈ excluded, part ≠ [] → ¬ part <:+: path := by
  simp [isExcluded, Text.hasPart_iff, Bool.eq_false_iff]

theorem hasEnding_iff {choice : Choice} {names : List Text} :
    hasEnding choice names = true ↔ ∃ x ∈ choice.extensions, x <:+ names.getLastD [] := by
  simp [hasEnding, Text.endsWith, List.isSuffixOf_iff_suffix]

end Paths

section Folder

variable {d : Disk} {choice : Choice} {top : Place} {es : List (Text × Entry)}

section Reached

variable (wf : d.WellFormed) (there : d.entryAt? (top.map Name.respell) = some (.folder es))
include wf there

/-- The names that a walk goes down are proper, and so are those of its top as the file tree spells
them. -/
theorem isProper_of_reached {names : List Text}
    (reached : ∃ e, Entry.at? names (.folder es) = some e) :
    Place.IsProper (names.reverse ++ top.map Name.respell) := by
  obtain ⟨e, found⟩ := reached
  rw [Disk.at?_folder there] at found
  exact wf.proper found

theorem proper_of_reached {names : List Text}
    (reached : ∃ e, Entry.at? names (.folder es) = some e) : Place.IsProper names := by
  intro n mem
  apply isProper_of_reached wf there reached
  exact List.mem_append_left _ (List.mem_reverse.mpr mem)

/-- Only the names of the top can be spelled in another way than the file tree spells them. -/
theorem map_respell_of_reached {names : List Text}
    (reached : ∃ e, Entry.at? names (.folder es) = some e) :
    (names.reverse ++ top).map Name.respell = names.reverse ++ top.map Name.respell := by
  have proper := proper_of_reached wf there reached
  rw [List.map_append, List.map_reverse, proper.map_respell]

/-- Chains of names below a place are told apart by their paths, however these are spelled. -/
theorem eq_of_respell_pathTo {ms ns : List Text}
    (hm : ∃ e, Entry.at? ms (.folder es) = some e) (hn : ∃ e, Entry.at? ns (.folder es) = some e)
    (h : Name.respell (pathTo top ms) = Name.respell (pathTo top ns)) : ms = ns := by
  rw [pathTo, pathTo, Place.respell_toText, Place.respell_toText,
    map_respell_of_reached wf there hm, map_respell_of_reached wf there hn] at h
  have places := (isProper_of_reached wf there hm).toText_inj (isProper_of_reached wf there hn) h
  exact List.reverse_inj.mp (List.append_cancel_right places)

/-- From its top, a walk finds what is there, leads to no folder and is not excluded. -/
theorem isFound_top_iff {names : List Text} :
    IsFound d choice top [] es names ↔
      names ≠ [] ∧ (∃ e, Entry.at? names (.folder es) = some e) ∧
        d.isFolder (pathTo top names) = false ∧
        isExcluded (Text.join [slash] names) choice.excluded = false := by
  constructor
  · rintro ⟨ne, reached, noFolder, keep⟩
    have proper := proper_of_reached wf there reached
    exact ⟨ne, reached, noFolder, foldl_below_nil (fun n mem => (proper n mem).ne_nil) ▸ keep⟩
  · rintro ⟨ne, reached, noFolder, keep⟩
    have proper := proper_of_reached wf there reached
    exact ⟨ne, reached, noFolder, (foldl_below_nil fun n mem => (proper n mem).ne_nil).symm ▸ keep⟩

theorem mem_walk_iff {names : List Text} :
    names ∈ walk d top es ↔
      names ≠ [] ∧ (∃ e, Entry.at? names (.folder es) = some e) ∧
        d.isFolder (pathTo top names) = false := by
  rw [walk, List.mem_map]
  constructor
  · rintro ⟨p, mem, rfl⟩
    obtain ⟨names, found, rfl⟩ := (mem_filesOf_iff wf there).mp mem
    obtain ⟨ne, reached, noFolder, -⟩ := (isFound_top_iff wf there).mp found
    rw [chain_append]
    exact ⟨ne, reached, noFolder⟩
  · rintro ⟨ne, reached, noFolder⟩
    refine ⟨names.reverse ++ top, (mem_filesOf_iff wf there).mpr ⟨names, ?_, rfl⟩,
      chain_append top names⟩
    exact (isFound_top_iff wf there).mpr ⟨ne, reached, noFolder, rfl⟩

theorem pairwise_walk :
    (walk d top es).Pairwise Before := by
  rw [walk, List.pairwise_map]
  refine (pairwise_filesOf wf there).imp ?_
  rintro p q ⟨ms, ns, rfl, rfl, before⟩
  rw [chain_append, chain_append]
  exact before

/-- Leaving excluded folders out at once leaves out what filtering the whole walk does. -/
theorem filesOf_eq_filter :
    filesOf d choice top [] (.folder es) =
      ((walk d top es).filter fun names =>
        !isExcluded (Text.join [slash] names) choice.excluded).map fun names =>
          names.reverse ++ top := by
  refine (pairwise_filesOf wf there).eq_of_mem_iff (r := BeforeBelow top) ?_ ?_
  · rw [List.pairwise_map]
    exact ((pairwise_walk wf there).filter _).imp fun before => ⟨_, _, rfl, rfl, before⟩
  · intro p
    rw [mem_filesOf_iff wf there, List.mem_map]
    constructor
    · rintro ⟨names, found, rfl⟩
      obtain ⟨ne, reached, noFolder, keep⟩ := (isFound_top_iff wf there).mp found
      refine ⟨names, List.mem_filter.mpr ⟨?_, by rw [keep]; rfl⟩, rfl⟩
      exact (mem_walk_iff wf there).mpr ⟨ne, reached, noFolder⟩
    · rintro ⟨names, mem, rfl⟩
      obtain ⟨inWalk, keep⟩ := List.mem_filter.mp mem
      obtain ⟨ne, reached, noFolder⟩ := (mem_walk_iff wf there).mp inWalk
      rw [Bool.not_eq_true'] at keep
      exact ⟨names, (isFound_top_iff wf there).mpr ⟨ne, reached, noFolder, keep⟩, rfl⟩

/-- What is sought and leads to no folder is what a walk finds with an ending looked for. -/
theorem isSought_iff {names : List Text}
    (noFolder : d.isFolder (pathTo top names) = false) :
    IsSought choice es names ↔
      names.reverse ++ top ∈ filesOf d choice top [] (.folder es) ∧
        hasEnding choice names = true := by
  rw [filesOf_eq_filter wf there, List.mem_map, hasEnding_iff]
  constructor
  · rintro ⟨ne, reached, ending, keep⟩
    refine ⟨⟨names, List.mem_filter.mpr ⟨?_, ?_⟩, rfl⟩, ending⟩
    · exact (mem_walk_iff wf there).mpr ⟨ne, reached, noFolder⟩
    · rw [isExcluded_eq_false_iff.mpr keep]
      rfl
  · rintro ⟨⟨names', mem, same⟩, ending⟩
    obtain rfl := List.reverse_inj.mp (List.append_cancel_right same)
    obtain ⟨inWalk, keep⟩ := List.mem_filter.mp mem
    obtain ⟨ne, reached, -⟩ := (mem_walk_iff wf there).mp inWalk
    rw [Bool.not_eq_true', isExcluded_eq_false_iff] at keep
    exact ⟨ne, reached, ending, keep⟩

end Reached

/-- The place is a source file: its name has an ending looked for, and its path leads to a file. -/
def isSourceFile (d : Disk) (choice : Choice) (p : Place) : Bool :=
  (choice.extensions.any fun x => Text.endsWith (p.headD []) x) && d.isFile p.toText

theorem isSource_of_ne {p : Place}
    (short : (choice.extensions.any fun x => Text.endsWith (p.headD []) x) = true →
      d.entry p.toText ≠ .error .nameTooLong) :
    isSource d choice p = .ok (isSourceFile d choice p) := by
  unfold isSource isSourceFile
  cases ending : choice.extensions.any fun x => Text.endsWith (p.headD []) x with
  | false => rfl
  | true =>
      rw [if_pos rfl, Bool.true_and, Disk.hasFile, Disk.isFile]
      split
      · next bytes isFile => rw [isFile]
      · next e noFile isEntry =>
          rw [isEntry]
          cases e with
          | file bytes => exact absurd rfl (noFile bytes)
          | link target => rfl
          | folder fs => rfl
      · next tooLong => exact absurd tooLong (short ending)
      · next c _ isError => rw [isError]

theorem ne_of_isSource {p : Place} {b : Bool} (h : isSource d choice p = .ok b)
    (ending : (choice.extensions.any fun x => Text.endsWith (p.headD []) x) = true) :
    d.entry p.toText ≠ .error .nameTooLong := by
  intro tooLong
  rw [isSource, if_pos ending, Disk.hasFile, tooLong] at h
  simp at h

theorem hasEnding_eq {names : List Text} (ne : names ≠ []) :
    (choice.extensions.any fun x => Text.endsWith ((names.reverse ++ top).headD []) x) =
      hasEnding choice names := by
  rw [headD_reverse_append ne, hasEnding]

theorem isFile_iff {t : Text} : d.isFile t = true ↔ ∃ bytes, d.entry t = .ok (.file bytes) := by
  unfold Disk.isFile
  split
  · next bytes isFile => simp [isFile]
  · next notFile => simpa using notFile

section Filtered

variable (wf : d.WellFormed) (there : d.entryAt? (top.map Name.respell) = some (.folder es))
include wf there

/-- The source files among what the walk finds are the filtered walk. -/
theorem sourceFiles_eq :
    ((filesOf d choice top [] (.folder es)).filter (isSourceFile d choice)).map Place.toText =
      (filteredWalk d choice top es).map (pathTo top) := by
  rw [filesOf_eq_filter wf there, List.filter_map, List.map_map, List.filter_filter, filteredWalk]
  have same : (walk d top es).filter (fun names =>
        (isSourceFile d choice ∘ fun names => names.reverse ++ top) names &&
          !isExcluded (Text.join [slash] names) choice.excluded) =
      (walk d top es).filter fun names =>
        !isExcluded (Text.join [slash] names) choice.excluded && hasEnding choice names &&
          d.isFile (pathTo top names) := by
    refine List.filter_congr ?_
    intro names mem
    rw [Function.comp, isSourceFile, hasEnding_eq ((mem_walk_iff wf there).mp mem).1, Bool.and_comm,
      Bool.and_assoc]
    rfl
  rw [same]
  rfl

theorem mem_filteredWalk_iff {names : List Text} :
    names ∈ filteredWalk d choice top es ↔
      IsSought choice es names ∧ ∃ bytes, d.entry (pathTo top names) = .ok (.file bytes) := by
  rw [filteredWalk, List.mem_filter, Bool.and_eq_true, Bool.and_eq_true, Bool.not_eq_true',
    isExcluded_eq_false_iff, hasEnding_iff, isFile_iff, mem_walk_iff wf there]
  constructor
  · rintro ⟨⟨ne, reached, -⟩, ⟨keep, ending⟩, isFile⟩
    exact ⟨⟨ne, reached, ending, keep⟩, isFile⟩
  · rintro ⟨⟨ne, reached, ending, keep⟩, bytes, isFile⟩
    have noFolder : d.isFolder (pathTo top names) = false := by rw [Disk.isFolder, isFile]
    exact ⟨⟨ne, reached, noFolder⟩, ⟨keep, ending⟩, bytes, isFile⟩

theorem pairwise_filteredWalk :
    (filteredWalk d choice top es).Pairwise Before :=
  (pairwise_walk wf there).filter _

/-- The filtered walk is what a scan is to give. -/
theorem isScan_filteredWalk :
    IsScan d choice top es ((filteredWalk d choice top es).map (pathTo top)) where
  eq_walk := rfl
  mem_iff t := by
    rw [List.mem_map]
    constructor
    · rintro ⟨names, mem, rfl⟩
      obtain ⟨sought, isFile⟩ := (mem_filteredWalk_iff wf there).mp mem
      exact ⟨names, sought, isFile, rfl⟩
    · rintro ⟨names, sought, isFile, rfl⟩
      exact ⟨names, (mem_filteredWalk_iff wf there).mpr ⟨sought, isFile⟩, rfl⟩
  nodup := by
    rw [List.Nodup, List.pairwise_map]
    refine (pairwise_filteredWalk wf there).imp_of_mem ?_
    intro ms ns memMs memNs before same
    have sought := ((mem_filteredWalk_iff wf there).mp memMs).1
    have sought' := ((mem_filteredWalk_iff wf there).mp memNs).1
    obtain rfl := eq_of_respell_pathTo wf there sought.reached sought'.reached
      (congrArg Name.respell same)
    exact before.asymm before
  ordered := by
    rw [List.pairwise_map]
    exact (pairwise_filteredWalk wf there).imp fun before => ⟨_, _, rfl, rfl, before⟩

end Filtered

/-- A scan of a folder that is there looks at what the walk finds. -/
theorem run_eq {path : Text} {p : Path} (home : d.expandHome (Path.ofText path) = .ok p)
    (place : d.realPlace p = .ok top) (there : d.entry top.toText = .ok (.folder es)) :
    run d choice path =
      match (filesOf d choice top [] (.folder es)).filterM (isSource d choice) with
      | .ok files => .ok (files.map Place.toText)
      | .error e => .error (.unusable e) := by
  have exists_top : d.doesExist top.toText = .ok true := by rw [Disk.doesExist, there]
  cases files : (filesOf d choice top [] (.folder es)).filterM (isSource d choice) with
  | ok found => simp only [run, home, Except.bind, place, sources, exists_top, there, files]
  | error e => simp only [run, home, Except.bind, place, sources, exists_top, there, files]

/-- A scan of a folder that is there gives an answer exactly when nothing it looks at leads to a
name that is too long, and then the source files that the walk finds. -/
theorem run_eq_ok_iff (wf : d.WellFormed) {path : Text} {p : Path}
    (home : d.expandHome (Path.ofText path) = .ok p) (place : d.realPlace p = .ok top)
    (there : d.entryAt? (top.map Name.respell) = some (.folder es)) {paths : List Text} :
    run d choice path = .ok paths ↔
      (∀ names, IsSought choice es names → d.entry (pathTo top names) ≠ .error .nameTooLong) ∧
        paths = ((filesOf d choice top [] (.folder es)).filter (isSourceFile d choice)).map
          Place.toText := by
  rw [run_eq home place (Disk.entry_toText wf there (by simp [Entry.IsLink]))]
  constructor
  · intro h
    cases files : (filesOf d choice top [] (.folder es)).filterM (isSource d choice) with
    | error e => simp [files] at h
    | ok found =>
        have all := exists_ok_of_filterM files
        have short : ∀ q ∈ filesOf d choice top [] (.folder es),
            isSource d choice q = .ok (isSourceFile d choice q) := fun q mem =>
          isSource_of_ne (ne_of_isSource (all q mem).choose_spec)
        refine ⟨?_, ?_⟩
        · intro names sought tooLong
          have noFolder : d.isFolder (pathTo top names) = false := by rw [Disk.isFolder, tooLong]
          obtain ⟨mem, ending⟩ := (isSought_iff wf there noFolder).mp sought
          rw [← hasEnding_eq sought.ne_nil] at ending
          exact ne_of_isSource (all _ mem).choose_spec ending tooLong
        · rw [filterM_of_ok short] at h
          exact (Except.ok.inj h).symm
  · rintro ⟨short, rfl⟩
    have all : ∀ q ∈ filesOf d choice top [] (.folder es),
        isSource d choice q = .ok (isSourceFile d choice q) := by
      intro q mem
      obtain ⟨names, found, rfl⟩ := (mem_filesOf_iff wf there).mp mem
      refine isSource_of_ne ?_
      intro ending
      rw [hasEnding_eq found.ne_nil] at ending
      exact short names ((isSought_iff wf there found.noFolder).mpr ⟨mem, ending⟩)
    rw [filterM_of_ok all]

/-- Every answer of a scan is what a scan is to give. -/
theorem isScan_of_run (wf : d.WellFormed) {path : Text} {p : Path}
    (home : d.expandHome (Path.ofText path) = .ok p) (place : d.realPlace p = .ok top)
    (there : d.entryAt? (top.map Name.respell) = some (.folder es)) {paths : List Text}
    (answer : run d choice path = .ok paths) : IsScan d choice top es paths := by
  obtain ⟨-, rfl⟩ := (run_eq_ok_iff wf home place there).mp answer
  rw [sourceFiles_eq wf there]
  exact isScan_filteredWalk wf there

/-- Without links, no path that a scan looks at leads to a name that is too long. -/
theorem exists_run_of_isLinkFree (free : d.IsLinkFree) (wf : d.WellFormed) {path : Text} {p : Path}
    (home : d.expandHome (Path.ofText path) = .ok p) (place : d.realPlace p = .ok top)
    (there : d.entryAt? (top.map Name.respell) = some (.folder es)) :
    ∃ paths, run d choice path = .ok paths := by
  refine ⟨_, (run_eq_ok_iff wf home place there).mpr ⟨?_, rfl⟩⟩
  intro names sought
  obtain ⟨e, found⟩ := sought.reached
  rw [Disk.at?_folder there] at found
  have direct : ¬ e.IsLink := by
    rintro ⟨target, rfl⟩
    exact free _ _ found
  rw [← map_respell_of_reached wf there sought.reached] at found
  rw [pathTo, Disk.entry_toText wf found direct]
  simp

/-- The order in which folders list their entries does not matter to a walk. -/
theorem filesOf_alike {d' : Disk} (alike : d.Alike d') (wf : d.WellFormed) (wf' : d'.WellFormed)
    (there : d.entryAt? (top.map Name.respell) = some (.folder es)) {es' : List (Text × Entry)}
    (there' : d'.entryAt? (top.map Name.respell) = some (.folder es')) :
    filesOf d' choice top [] (.folder es') = filesOf d choice top [] (.folder es) := by
  refine (pairwise_filesOf wf' there').eq_of_mem_iff (pairwise_filesOf wf there) ?_
  intro p
  have same (names : List Text) :
      IsFound d' choice top [] es' names ↔ IsFound d choice top [] es names := by
    rw [isFound_top_iff wf' there', isFound_top_iff wf there, Disk.at?_folder there',
      Disk.at?_folder there, alike.exists_entryAt?_iff, alike.isFolder]
  rw [mem_filesOf_iff wf' there', mem_filesOf_iff wf there]
  exact exists_congr fun names => and_congr_left fun _ => same names

theorem run_alike {d' : Disk} (alike : d.Alike d') (wf : d.WellFormed) (wf' : d'.WellFormed)
    {path : Text} {p : Path} (home : d.expandHome (Path.ofText path) = .ok p)
    (isFolder : d.entry p.toText = .ok (.folder es)) : run d' choice path = run d choice path := by
  have proper := (Path.ofText_isProper path).expandHome home
  obtain ⟨es', isFolder'⟩ := alike.exists_folder isFolder
  obtain ⟨top, place, there, -⟩ :=
    Disk.exists_realPlace wf proper isFolder (by simp [Entry.IsLink])
  obtain ⟨top', place', there', -⟩ :=
    Disk.exists_realPlace wf' proper isFolder' (by simp [Entry.IsLink])
  rw [alike.realPlace wf wf' proper isFolder, place] at place'
  obtain rfl := Except.ok.inj place'
  have isSource_eq : isSource d' choice = isSource d choice := by
    funext q
    rw [isSource, isSource, alike.hasFile]
  rw [run_eq home place (Disk.entry_toText wf there (by simp [Entry.IsLink])),
    run_eq ((alike.expandHome _).trans home) ((alike.realPlace wf wf' proper isFolder).trans place)
      (Disk.entry_toText wf' there' (by simp [Entry.IsLink])),
    filesOf_alike alike wf wf' there there', isSource_eq]

end Folder

/-- The scan of a path to a folder does what it is to do. It gives an answer exactly when no entry
that it looks at leads to a name that is too long; every answer is the whole walk of the folder,
filtered; and it is the same in every file tree that differs only in the order in which folders list
their entries. -/
structure ScansFolder (d : Disk) (choice : Choice) (path : Text) (top : Place)
    (es : List (Text × Entry)) : Prop where
  answers_iff : (∃ paths, run d choice path = .ok paths) ↔
    ∀ names, IsSought choice es names → d.entry (pathTo top names) ≠ .error .nameTooLong
  isScan : ∀ paths, run d choice path = .ok paths → IsScan d choice top es paths
  listing : ∀ d' : Disk, d'.WellFormed → d.Alike d' → run d' choice path = run d choice path

/-- Every path that leads to a folder is scanned as its real place is walked. -/
theorem run_folder {d : Disk} (wf : d.WellFormed) (choice : Choice) {path : Text} {p : Path}
    {es : List (Text × Entry)} (home : d.expandHome (Path.ofText path) = .ok p)
    (isFolder : d.entry p.toText = .ok (.folder es)) :
    ∃ top, d.realPlace p = .ok top ∧ d.entry top.toText = .ok (.folder es) ∧
      ScansFolder d choice path top es := by
  have proper := (Path.ofText_isProper path).expandHome home
  obtain ⟨top, place, there, -⟩ :=
    Disk.exists_realPlace wf proper isFolder (by simp [Entry.IsLink])
  have answers (paths : List Text) :=
    @run_eq_ok_iff d choice top es wf path p home place there paths
  refine ⟨top, place, Disk.entry_toText wf there (by simp [Entry.IsLink]), ⟨?_, ?_⟩, ?_, ?_⟩
  · rintro ⟨paths, answer⟩
    exact ((answers paths).mp answer).1
  · intro short
    exact ⟨_, (answers _).mpr ⟨short, rfl⟩⟩
  · intro paths answer
    exact isScan_of_run wf home place there answer
  · intro d' wf' alike
    exact run_alike alike wf wf' home isFolder

/-- The entries of a folder with an excluded folder in it, a link to a folder and one to a file. -/
def projectEntries : List (Text × Entry) :=
  [("routes", .folder [("users.ts", .file .empty), ("notes.md", .file .empty)]),
    ("shared", .link "../lib"), ("main.ts", .file .empty), ("alias.ts", .link "routes/users.ts"),
    ("node_modules", .folder [("dep.ts", .file .empty)])]

/-- A file tree with such a folder in it. -/
def project : Disk where
  entries := [("srv", .folder [("app", .folder projectEntries),
    ("lib", .folder [("util.ts", .file .empty)])])]
  current := ["srv"]
  home := "/srv"

theorem run_folder_project :
    project.WellFormed ∧
      project.expandHome (Path.ofText "~/app") = .ok ⟨[slash], ["srv", "app"]⟩ ∧
      project.entry "/srv/app" = .ok (.folder projectEntries) ∧
      run project ⟨["node_modules"], [".ts"]⟩ "~/app" =
        .ok ["/srv/app/alias.ts", "/srv/app/main.ts", "/srv/app/routes/users.ts"] ∧
      ∃ top, project.realPlace ⟨[slash], ["srv", "app"]⟩ = .ok top ∧
        project.entry top.toText = .ok (.folder projectEntries) ∧
        ScansFolder project ⟨["node_modules"], [".ts"]⟩ "~/app" top projectEntries := by
  have wf : project.WellFormed := ⟨by decide, _, rfl⟩
  have place : project.realPlace ⟨[slash], ["srv", "app"]⟩ = .ok ["app", "srv"] := rfl
  have routes : filesOf project ⟨["node_modules"], [".ts"]⟩ ["routes", "app", "srv"] "routes"
      (.folder [("users.ts", .file .empty), ("notes.md", .file .empty)]) = _ :=
    filesOf_of_sorted ["notes.md", "users.ts"] (.swap _ _ _) (by decide) rfl .nil
  have among : filesAmong project ⟨["node_modules"], [".ts"]⟩ ["app", "srv"] [] projectEntries =
      [(("routes" : Text), _)] :=
    congrArg (fun found => [(("routes" : Text), found)]) routes
  have top : filesOf project ⟨["node_modules"], [".ts"]⟩ ["app", "srv"] []
      (.folder projectEntries) = _ :=
    filesOf_of_sorted ["alias.ts", "main.ts"] (.swap _ _ _) (by decide) among
      (List.pairwise_singleton _ _)
  refine ⟨wf, rfl, rfl, ?_, run_folder wf _ rfl rfl⟩
  rw [run_eq rfl place rfl, top]
  rfl

/-- The entries of a folder with a source file and a link to a name of 256 letters. -/
def oversizedEntries : List (Text × Entry) :=
  [("app.js", .file .empty), ("x.js", .link (List.replicate 256 'a'))]

/-- A file tree with such a folder in it. -/
def oversized : Disk where
  entries := [("srv", .folder oversizedEntries)]
  current := []
  home := "/srv"

set_option maxRecDepth 8000 in
/-- A link to a name that is too long leaves a scan without an answer, whatever else it finds. -/
theorem run_oversized :
    oversized.WellFormed ∧ oversized.entry "/srv" = .ok (.folder oversizedEntries) ∧
      IsSought ⟨[], [".js"]⟩ oversizedEntries ["app.js"] ∧
      oversized.entry (pathTo ["srv"] ["app.js"]) = .ok (.file .empty) ∧
      run oversized ⟨[], [".js"]⟩ "/srv" = .error (.unusable ⟨.nameTooLong, "/srv/x.js"⟩) := by
  have place : oversized.realPlace ⟨[slash], ["srv"]⟩ = .ok ["srv"] := rfl
  have top : filesOf oversized ⟨[], [".js"]⟩ ["srv"] [] (.folder oversizedEntries) = _ :=
    filesOf_of_sorted ["app.js", "x.js"] (.refl _) (by decide) rfl .nil
  refine ⟨⟨by decide, _, rfl⟩, rfl, ?_, rfl, ?_⟩
  · exact ⟨by decide, ⟨_, rfl⟩, ⟨".js", by decide, by decide⟩, by simp⟩
  · rw [run_eq rfl place rfl, top]
    rfl

end RouteAtlas.Scan
