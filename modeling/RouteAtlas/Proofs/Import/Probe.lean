import RouteAtlas.Proofs.Disk.Lexical
import RouteAtlas.Proofs.Import.Candidate

/-!
# Probing for an import

The path of an import is found by text alone: it is the normal form of the specifier behind the
folder of the importer, and the first file among this path and the paths with an ending is taken.
The specifier is followed name by name whether or not there is anything on the way, so only where it
leads counts (`resolve_eq_firstProbe`). Endings are put behind the last name of the path. A
specifier that goes down from the folder therefore stays in it, and one that names the folder itself
is tried with the folder's own name, which leads to files beside the folder (`isBelow_of_resolve`).
-/

namespace RouteAtlas

namespace Path

theorem names_append {root : Text} (isRoot : IsRoot root) (t : Text) :
    (ofText (root ++ t)).names = (ofText t).names := by
  have skip (t : Text) : (ofText (slash :: t)).names = (ofText t).names := by
    simp [ofText, Text.splitAt]
  rcases isRoot with rfl | rfl
  · exact skip t
  · exact (skip _).trans (skip t)

theorem names_textBelow {root : Text} (isRoot : IsRoot root) {p : Place} (plain : p.IsPlain) :
    (ofText (textBelow root p)).names = p.reverse := by
  by_cases top : p = []
  · subst top
    rcases isRoot with rfl | rfl <;> decide
  · have read := congrArg names (plain.ofText_toText top)
    rw [Place.toText_eq_textBelow, textBelow, names_append (.inl rfl)] at read
    rw [textBelow, names_append isRoot, read]

theorem isAbsolute_ofText {t : Text} : (ofText t).isAbsolute = true ↔ t.head? = some slash := by
  constructor
  · intro absolute
    by_cases top : t.head? = some slash
    · exact top
    · simp [isAbsolute, ofText, rootOf_of_head?_ne top] at absolute
  · intro top
    simp [isAbsolute, ofText, (isRoot_rootOf top).ne_nil]

theorem head?_textBelow {root : Text} (isRoot : IsRoot root) (p : Place) :
    (textBelow root p).head? = some slash := by
  rcases isRoot with rfl | rfl <;> rfl

/-- The path leads into a folder and not only to it: its names are those of the folder and further
ones, none of which leads out again. -/
def IsBelow (folder t : Text) : Prop :=
  (ofText t).isAbsolute = (ofText folder).isAbsolute ∧
    ∃ names, names ≠ [] ∧ (∀ n ∈ names, Name.IsPlain n) ∧
      (ofText t).names = (ofText folder).names ++ names

theorem IsBelow.length_lt {folder t : Text} (h : IsBelow folder t) :
    (ofText folder).names.length < (ofText t).names.length := by
  obtain ⟨-, names, ne, -, further⟩ := h
  rw [further, List.length_append]
  have some_name := List.length_pos_iff.mpr ne
  omega

end Path

namespace Import

/-! ## Folders -/

/-- The path text of a folder. -/
def Folder.toText (f : Folder) : Text := Path.textBelow f.root f.place

/-- A folder as the path of a file gives it. -/
structure Folder.IsPlain (f : Folder) : Prop where
  root : Path.IsRoot f.root
  place : f.place.IsPlain

theorem Folder.IsPlain.names {f : Folder} (h : f.IsPlain) :
    (Path.ofText f.toText).names = f.place.reverse :=
  Path.names_textBelow h.root h.place

/-- What the code that reads texts does with a specifier is following it from the folder. -/
theorem Folder.IsPlain.normalize_joinText {f : Folder} (h : f.IsPlain) {specifier : Text}
    (other : specifier.head? ≠ some slash) :
    Path.normalize (Path.joinText f.toText specifier) = f.follow specifier :=
  Path.normalize_joinText h.root h.place other

/-- The absolute path of a file is the text of a place, and the folder of the file is around it. -/
theorem exists_place_of_folderOf {current : Place} (here : current.IsPlain) (file : Text) :
    ∃ root place, Path.IsRoot root ∧ place.IsPlain ∧
      Path.absoluteText current file = Path.textBelow root place ∧
      folderOf current file = ⟨root, place.tail⟩ := by
  have free : ∀ n ∈ Text.splitAt slash file, slash ∉ n := fun _ mem =>
    Text.not_mem_of_mem_splitAt mem
  by_cases top : file.head? = some slash
  · have isRoot := Path.isRoot_rootOf top
    have absolute : (Path.ofText file).isAbsolute = true := by
      simp [Path.isAbsolute, Path.ofText, isRoot.ne_nil]
    refine ⟨Path.rootOf file, Place.walk [] (Text.splitAt slash file), isRoot,
      Place.isPlain_nil.walk free, ?_, ?_⟩
    · rw [Path.absoluteText, if_pos top, Path.normalize_of_head? top]
    · rw [folderOf, if_pos absolute, Path.ofText, Place.walk_filter]
  · have relative : (Path.ofText file).isAbsolute ≠ true := by
      simp [Path.isAbsolute, Path.ofText, Path.rootOf_of_head?_ne top]
    refine ⟨[slash], current.walk (Text.splitAt slash file), .inl rfl, here.walk free, ?_, ?_⟩
    · rw [Path.absoluteText, if_neg top, Place.toText_eq_textBelow,
        Path.normalize_joinText (.inl rfl) here top]
    · rw [folderOf, if_neg relative, Path.ofText, Place.walk_filter]

theorem folderOf_isPlain {current : Place} (here : current.IsPlain) (file : Text) :
    (folderOf current file).IsPlain := by
  obtain ⟨root, place, isRoot, plain, -, folder⟩ := exists_place_of_folderOf here file
  rw [folder]
  exact ⟨isRoot, plain.tail⟩

/-- The folder of a file is its absolute path without the last name. -/
theorem dirText_absoluteText {current : Place} (here : current.IsPlain) (file : Text) :
    Path.dirText (Path.absoluteText current file) = (folderOf current file).toText := by
  obtain ⟨root, place, isRoot, plain, absolute, folder⟩ := exists_place_of_folderOf here file
  rw [absolute, folder, Path.dirText_textBelow isRoot plain]
  rfl

theorem root_folderOf_of_single {current : Place} (here : current.IsPlain) {file : Text}
    (single : (Path.absoluteText current file).startsWith "//" = false) :
    (folderOf current file).root = [slash] := by
  obtain ⟨root, place, isRoot, -, absolute, folder⟩ := exists_place_of_folderOf here file
  rw [folder]
  rcases isRoot with rfl | rfl
  · rfl
  · rw [absolute] at single
    cases single

/-! ## The first file that is there -/

variable {d : Disk}

theorem map_endings (t : Text) :
    endings.map (t ++ ·) = [t, t ++ ".ts", t ++ ".js", t ++ "/index.ts", t ++ "/index.js"] :=
  congrArg (· :: _) (List.append_nil t)

theorem head?_of_relative {specifier : Text} (relative : specifier.startsWith "." = true) :
    specifier.head? ≠ some slash := by
  cases specifier with
  | nil => simp
  | cons c rest =>
      intro first
      obtain rfl := Option.some.inj first
      cases relative

theorem resolve_of_relative {importer specifier : Text}
    (relative : specifier.startsWith "." = true) :
    resolve d importer specifier =
      (endings.map ((folderOf d.current importer).follow specifier ++ ·)).find? d.isFile := by
  rw [resolve, locate, if_pos relative, candidates]

/-- Going down and up again leads nowhere. -/
theorem walk_splitAt_detour (p : Place) {name : Text} (plain : Name.IsPlain name)
    (free : slash ∉ name) (rest : Text) :
    p.walk (Text.splitAt slash ("./" ++ name ++ "/../" ++ rest)) =
      p.walk (Text.splitAt slash ("./" ++ rest)) := by
  have detour : ("./" ++ name ++ "/../" ++ rest : Text) =
      Text.ofString "." ++ slash :: (name ++ slash :: (Text.ofString ".." ++ slash :: rest)) := by
    rw [List.append_assoc, List.append_assoc]
    rfl
  have direct : ("./" ++ rest : Text) = Text.ofString "." ++ slash :: rest := rfl
  have stay : p.walk (Text.splitAt slash ".") = p := rfl
  have down : p.walk [name] = name :: p := Place.walk_of_isPlain (by simpa using plain)
  have up : Place.walk (name :: p) (Text.splitAt slash "..") = p := rfl
  rw [detour, direct, Text.splitAt_append, Text.splitAt_append, Text.splitAt_append,
    Text.splitAt_append, Text.splitAt_of_not_mem free, Place.walk_append, Place.walk_append,
    Place.walk_append, Place.walk_append, stay, down, up]

/-- Relative to the folder of the importer, a specifier leads to the first file among the path that
its names lead to and the paths with an ending. Which names are on the way does not matter. -/
theorem resolve_eq_firstProbe (here : d.current.IsPlain) {importer specifier : Text}
    (single : (Path.absoluteText d.current importer).startsWith "//" = false)
    (relative : specifier.startsWith "." = true) :
    let folder := Path.dirText (Path.absoluteText d.current importer)
    let start : Place := (Path.ofText folder).names.reverse
    let s := (start.walk (Text.splitAt slash specifier)).toText
    folder = start.toText ∧
      Path.normalize (Path.joinText folder specifier) = s ∧
      resolve d importer specifier =
        [s, s ++ ".ts", s ++ ".js", s ++ "/index.ts", s ++ "/index.js"].find? d.isFile ∧
      (∀ other : Text, other.startsWith "." = true →
        start.walk (Text.splitAt slash other) = start.walk (Text.splitAt slash specifier) →
          resolve d importer other = resolve d importer specifier) ∧
      ∀ name rest : Text, Name.IsPlain name → slash ∉ name →
        resolve d importer ("./" ++ name ++ "/../" ++ rest) =
          resolve d importer ("./" ++ rest) := by
  intro folder start s
  have plain := folderOf_isPlain here importer
  have root := root_folderOf_of_single here single
  have folder_eq : folder = (folderOf d.current importer).toText :=
    dirText_absoluteText here importer
  have start_eq : start = (folderOf d.current importer).place := by
    show (Path.ofText folder).names.reverse = _
    rw [folder_eq, plain.names, List.reverse_reverse]
  have follow (t : Text) : (folderOf d.current importer).follow t =
      (start.walk (Text.splitAt slash t)).toText := by
    rw [Folder.follow, root, start_eq, Place.toText_eq_textBelow]
  refine ⟨?_, ?_, ?_, ?_, ?_⟩
  · rw [folder_eq, start_eq, Place.toText_eq_textBelow, Folder.toText, root]
  · rw [folder_eq, plain.normalize_joinText (head?_of_relative relative), follow]
  · rw [resolve_of_relative relative, follow, map_endings]
  · intro other otherRelative same
    rw [resolve_of_relative otherRelative, resolve_of_relative relative, follow, follow, same]
  · intro name rest isName free
    rw [resolve_of_relative rfl, resolve_of_relative rfl, follow, follow,
      walk_splitAt_detour start isName free]

/-- A file tree in which the first path of an import is a folder, the second one too, and the third
a link to a file. Beside the folder of the importer is a file of the same name. -/
def crossing : Disk where
  entries := [("srv", .folder [("app.js", .file .empty), ("app", .folder [
    ("main.js", .file .empty), ("b", .folder [("index.ts", .file .empty)]), ("b.ts", .folder []),
    ("b.js", .link "main.js")])])]
  current := ["srv"]
  home := "/srv"

theorem isPlain_crossing : crossing.current.IsPlain := by
  simp only [crossing, Place.IsPlain, List.mem_singleton, forall_eq]
  exact ⟨⟨by decide, by decide⟩, by decide⟩

theorem resolve_eq_firstProbe_crossing :
    crossing.current.IsPlain ∧
      (Path.absoluteText crossing.current "app/../app/main.js").startsWith "//" = false ∧
      Text.startsWith "./a/../b" "." = true ∧ crossing.doesExist "/srv/app/a" = .ok false ∧
      resolve crossing "app/../app/main.js" "./a/../b" = some "/srv/app/b.js" ∧
      resolve crossing "app/../app/main.js" "./b" = some "/srv/app/b.js" := by
  have single : (Path.absoluteText crossing.current "app/../app/main.js").startsWith "//" = false :=
    rfl
  have relative : Text.startsWith "./a/../b" "." = true := rfl
  obtain ⟨-, -, probed, same, -⟩ := resolve_eq_firstProbe isPlain_crossing single relative
  have found : resolve crossing "app/../app/main.js" "./a/../b" = some "/srv/app/b.js" :=
    probed.trans (by decide +kernel)
  refine ⟨isPlain_crossing, single, relative, rfl, found, ?_⟩
  exact (same "./b" rfl rfl).trans found

/-! ## Files below the folder, and beside it -/

section Below

variable {root : Text} (isRoot : Path.IsRoot root) {place : Place} {names : List Text}

include isRoot

/-- Names below a folder are below its path. -/
theorem isBelow_textBelow (plain : Place.IsPlain (names.reverse ++ place)) (ne : names ≠ []) :
    Path.IsBelow (Path.textBelow root place) (Path.textBelow root (names.reverse ++ place)) := by
  have around : place.IsPlain := fun n mem => plain n (List.mem_append_right _ mem)
  refine ⟨?_, names, ne, fun n mem => ?_, ?_⟩
  · rw [Path.isAbsolute_ofText.mpr (Path.head?_textBelow isRoot _),
      Path.isAbsolute_ofText.mpr (Path.head?_textBelow isRoot _)]
  · exact (plain n (List.mem_append_left _ (List.mem_reverse.mpr mem))).1
  · rw [Path.names_textBelow isRoot plain, Path.names_textBelow isRoot around]
    simp

/-- A file in a folder at or below another one is below that one. -/
theorem isBelow_append_name (plain : Place.IsPlain (names.reverse ++ place))
    (ne : names.reverse ++ place ≠ []) {n : Text} (isName : Name.IsPlain n) (free : slash ∉ n) :
    Path.IsBelow (Path.textBelow root place)
      (Path.textBelow root (names.reverse ++ place) ++ slash :: n) := by
  rw [← Path.textBelow_cons root n ne, ← List.cons_append, ← List.reverse_concat]
  refine isBelow_textBelow isRoot ?_ (by simp)
  rw [List.reverse_concat, List.cons_append]
  exact plain.cons isName free

/-- An ending of a path below a folder leads to a path below the folder. -/
theorem isBelow_append_ending (plain : Place.IsPlain (names.reverse ++ place)) (ne : names ≠ [])
    {ending : Text} (mem : ending ∈ endings) :
    Path.IsBelow (Path.textBelow root place)
      (Path.textBelow root (names.reverse ++ place) ++ ending) := by
  rcases mem_endings mem with ⟨free, -, length⟩ | ⟨n, rfl, isName, free, -⟩
  · -- the ending makes the innermost name longer
    obtain ⟨before, last, rfl⟩ := List.eq_nil_or_concat names |>.resolve_left ne
    rw [List.concat_eq_append, List.reverse_concat, List.cons_append] at plain ⊢
    obtain ⟨front, ends⟩ := Path.exists_textBelow_cons root (before.reverse ++ place)
    rw [ends, List.append_assoc, ← ends, ← List.cons_append, ← List.reverse_concat]
    refine isBelow_textBelow isRoot ?_ (by simp)
    rw [List.reverse_concat, List.cons_append]
    exact isPlain_cons_append plain free length
  · exact isBelow_append_name isRoot plain (by simp [ne]) isName free

/-- The paths that are tried beside a folder are not below it. -/
theorem not_isBelow_append (plain : place.IsPlain) (ne : place ≠ []) {ending : Text}
    (free : slash ∉ ending) (length : ending = [] ∨ 3 ≤ ending.length) :
    ¬ Path.IsBelow (Path.textBelow root place) (Path.textBelow root place ++ ending) := by
  intro below
  cases place with
  | nil => exact ne rfl
  | cons n place =>
      have deeper := below.length_lt
      obtain ⟨front, ends⟩ := Path.exists_textBelow_cons root place
      rw [ends, List.append_assoc, ← ends, ← ends, Path.names_textBelow isRoot plain,
        Path.names_textBelow isRoot (isPlain_cons_append plain free length)] at deeper
      simp at deeper

/-- Everything that is tried at the top, apart from the top itself, is below the top. -/
theorem isBelow_top {ending : Text} (mem : ending ∈ endings) (ne : ending ≠ []) :
    Path.IsBelow (Path.textBelow root []) (Path.textBelow root [] ++ ending) := by
  have all : ∀ ending ∈ endings, ending ≠ [] → (Path.ofText ending).names ≠ [] ∧
      ∀ n ∈ (Path.ofText ending).names,
        ¬(n = [] ∨ n = Text.ofString ".") ∧ n ≠ Text.ofString ".." := by
    decide
  obtain ⟨some_name, isName⟩ := all ending mem ne
  refine ⟨?_, (Path.ofText ending).names, some_name, isName, ?_⟩
  · rw [Path.isAbsolute_ofText.mpr (Path.head?_textBelow isRoot []), Path.isAbsolute_ofText]
    rcases isRoot with rfl | rfl <;> rfl
  · rw [Path.names_textBelow isRoot Place.isPlain_nil, Path.textBelow, List.append_assoc,
      Path.names_append isRoot]
    rfl

/-- The top of the file tree is a folder. -/
theorem isFile_top (d : Disk) : d.isFile (Path.textBelow root []) = false := by
  rcases isRoot with rfl | rfl <;> rfl

/-- Of the paths that are tried for a folder itself, a file is below the folder if it is in it, or
if the folder is the top. -/
theorem isBelow_append_iff (plain : place.IsPlain) {ending : Text} (mem : ending ∈ endings)
    (isFile : d.isFile (Path.textBelow root place ++ ending) = true) :
    Path.IsBelow (Path.textBelow root place) (Path.textBelow root place ++ ending) ↔
      place = [] ∨ ending = Text.ofString "/index.ts" ∨ ending = Text.ofString "/index.js" := by
  by_cases top : place = []
  · subst top
    refine iff_of_true (isBelow_top isRoot mem ?_) (.inl rfl)
    rintro rfl
    rw [List.append_nil, isFile_top isRoot] at isFile
    cases isFile
  · have itself : Place.IsPlain (([] : List Text).reverse ++ place) := plain
    have inside {n : Text} (isName : Name.IsPlain n) (free : slash ∉ n) :
        Path.IsBelow (Path.textBelow root place) (Path.textBelow root place ++ slash :: n) :=
      isBelow_append_name isRoot itself top isName free
    rw [or_iff_right top]
    simp only [endings, List.mem_cons, List.not_mem_nil, or_false] at mem
    rcases mem with rfl | rfl | rfl | rfl | rfl
    · exact iff_of_false (not_isBelow_append isRoot plain top (by decide) (by decide)) (by decide)
    · exact iff_of_false (not_isBelow_append isRoot plain top (by decide) (by decide)) (by decide)
    · exact iff_of_false (not_isBelow_append isRoot plain top (by decide) (by decide)) (by decide)
    · exact iff_of_true (inside ⟨by decide, by decide⟩ (by decide)) (by decide)
    · exact iff_of_true (inside ⟨by decide, by decide⟩ (by decide)) (by decide)

end Below

theorem isFile_of_resolve {importer specifier q : Text}
    (h : resolve d importer specifier = some q) : d.isFile q = true := by
  unfold resolve locate at h
  split at h
  · exact List.find?_some h
  · cases h

/-- Without two dots, names lead down, and only those that name something count. -/
theorem walk_of_noDots (p : Place) {names : List Text} (noDots : Text.ofString ".." ∉ names) :
    p.walk names = (names.filter fun n => n ≠ [] ∧ n ≠ Text.ofString ".").reverse ++ p := by
  rw [← Place.walk_filter]
  apply Place.walk_of_isPlain
  intro n mem
  obtain ⟨isPiece, kept⟩ := List.mem_filter.mp mem
  rw [decide_eq_true_eq, ← not_or] at kept
  exact ⟨kept, fun dots => noDots (dots ▸ isPiece)⟩

/-- A specifier without two dots leads below the folder of the importer if one of its names names
something. If none does it leads to the folder itself, and then one of the paths around this one is
taken; below the folder are only those in it, unless the folder is the top. -/
theorem isBelow_of_resolve (here : d.current.IsPlain) {importer specifier q : Text}
    (noDots : Text.ofString ".." ∉ Text.splitAt slash specifier)
    (found : resolve d importer specifier = some q) :
    let folder := Path.dirText (Path.absoluteText d.current importer)
    ((∃ n ∈ Text.splitAt slash specifier, n ≠ [] ∧ n ≠ Text.ofString ".") → Path.IsBelow folder q) ∧
      ((∀ n ∈ Text.splitAt slash specifier, n = [] ∨ n = Text.ofString ".") →
        q ∈ [folder, folder ++ ".ts", folder ++ ".js", folder ++ "/index.ts",
          folder ++ "/index.js"] ∧
          (Path.IsBelow folder q ↔ (Path.ofText folder).names = [] ∨
            q = folder ++ "/index.ts" ∨ q = folder ++ "/index.js")) := by
  intro folder
  obtain ⟨isRoot, around⟩ := folderOf_isPlain here importer
  have folder_eq : folder = (folderOf d.current importer).toText :=
    dirText_absoluteText here importer
  obtain ⟨ending, isEnding, rfl⟩ := List.mem_map.mp (mem_candidates_of_resolve found)
  have isFile := isFile_of_resolve found
  have plain := around.walk fun n mem => Text.not_mem_of_mem_splitAt (t := specifier) mem
  rw [Folder.follow, walk_of_noDots _ noDots] at isFile ⊢
  rw [walk_of_noDots _ noDots] at plain
  rw [folder_eq, Folder.toText]
  constructor
  · rintro ⟨n, isPiece, named⟩
    refine isBelow_append_ending isRoot plain (List.ne_nil_of_mem (a := n) ?_) isEnding
    exact List.mem_filter.mpr ⟨isPiece, decide_eq_true named⟩
  · intro unnamed
    have no_names : (Text.splitAt slash specifier).filter
        (fun n => n ≠ [] ∧ n ≠ Text.ofString ".") = [] := by
      rw [List.filter_eq_nil_iff]
      intro n mem
      rw [decide_eq_true_eq, ← not_or, not_not]
      exact unnamed n mem
    rw [no_names, List.reverse_nil, List.nil_append] at isFile ⊢
    refine ⟨?_, ?_⟩
    · rw [← map_endings]
      exact List.mem_map_of_mem isEnding
    · rw [isBelow_append_iff isRoot around isEnding isFile, Path.names_textBelow isRoot around,
        List.reverse_eq_nil_iff, List.append_right_inj, List.append_right_inj]

theorem isBelow_of_resolve_crossing :
    crossing.current.IsPlain ∧
      (Text.ofString ".." ∉ Text.splitAt slash "././/b" ∧
        resolve crossing "/srv/app/main.js" "././/b" = some "/srv/app/b.js" ∧
        Path.IsBelow (Path.dirText (Path.absoluteText crossing.current "/srv/app/main.js"))
          "/srv/app/b.js") ∧
      Text.ofString ".." ∉ Text.splitAt slash "./" ∧
        resolve crossing "/srv/app/b/index.ts" "./" = some "/srv/app/b.js" ∧
        ¬ Path.IsBelow (Path.dirText (Path.absoluteText crossing.current "/srv/app/b/index.ts"))
          "/srv/app/b.js" := by
  have down : resolve crossing "/srv/app/main.js" "././/b" = some "/srv/app/b.js" := by
    decide +kernel
  have beside : resolve crossing "/srv/app/b/index.ts" "./" = some "/srv/app/b.js" := by
    decide +kernel
  have noDots : Text.ofString ".." ∉ Text.splitAt slash "././/b" := by decide
  have noDotsBeside : Text.ofString ".." ∉ Text.splitAt slash "./" := by decide
  obtain ⟨below, -⟩ := isBelow_of_resolve isPlain_crossing noDots down
  obtain ⟨-, around⟩ := isBelow_of_resolve isPlain_crossing noDotsBeside beside
  obtain ⟨-, inside⟩ := around (by decide)
  refine ⟨isPlain_crossing, ⟨noDots, down, below ⟨"b", by decide, by decide⟩⟩, noDotsBeside,
    beside, ?_⟩
  have folder : Path.dirText (Path.absoluteText crossing.current "/srv/app/b/index.ts") =
      Text.ofString "/srv/app/b" := rfl
  rw [folder] at inside ⊢
  exact inside.not.mpr (by decide)

/-- A specifier that names the folder of the importer leads to a file beside the folder. -/
theorem resolve_beside :
    Text.ofString ".." ∉ Text.splitAt slash "." ∧
      resolve crossing "/srv/app/main.js" "." = some "/srv/app.js" ∧
      ¬ Path.IsBelow (Path.dirText (Path.absoluteText crossing.current "/srv/app/main.js"))
        "/srv/app.js" := by
  refine ⟨by decide, rfl, ?_⟩
  intro below
  have names : (Path.ofText "/srv/app.js").names.length = 2 := rfl
  have folder : (Path.ofText (Path.dirText
      (Path.absoluteText crossing.current "/srv/app/main.js"))).names.length = 2 := rfl
  have deeper := below.length_lt
  omega

end Import

end RouteAtlas
