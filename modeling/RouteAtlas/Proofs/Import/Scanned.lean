import RouteAtlas.Proofs.Document.Mounting
import RouteAtlas.Proofs.Facts.Edges
import RouteAtlas.Proofs.Facts.WellFormed
import RouteAtlas.Proofs.Import.Candidate
import RouteAtlas.Proofs.Scan.Sources

/-!
# Imports of scanned files

A scan makes the path of a file from the names it walks over, an import from the text of a
specifier. In a file tree without links both name the same place, so they differ at most in how
names are spelled: with code points, as the file tree spells them, or with escapes of their bytes.
-/

namespace RouteAtlas

namespace Scan

/-- A path leads to a file at the end of a chain of names that a scan of a folder is to find. -/
def LeadsToSource (d : Disk) (choice : Choice) (top : Place) (es : List (Text × Entry)) (q : Text)
    (names : List Text) : Prop :=
  IsSought choice es names ∧
    ∃ bytes, d.lead true q = .ok (.entry (names.reverse ++ top.map Name.respell) (.file bytes))

end Scan

namespace Import

variable {d : Disk}

/-- An import of the file at a plain place that leads to a file below the top has the path of a
plain place: the place of the file, up to spelling. -/
theorem exists_place_of_resolve (free : d.IsLinkFree) {p : Place} (plain : p.IsPlain) (ne : p ≠ [])
    {specifier q : Text} (h : resolve d p.toText specifier = some q) {place : Place} {e : Entry}
    (lead : d.lead true q = .ok (.entry place e)) (deep : 2 ≤ place.length) :
    ∃ r : Place, q = r.toText ∧ r.map Name.respell = place ∧
      (p.map Name.respell = p → (∀ c ∈ specifier, c.escapedByte? = none) →
        r.map Name.respell = r) := by
  have mem := mem_candidates_of_resolve h
  rw [folderOf_toText d.current plain ne] at mem
  obtain ⟨u, n, spelled, follows, -⟩ := Disk.follows_of_lead lead
  obtain rfl := Disk.spelling_eq spelled
  have ways := follows.filter
  by_cases top : Place.walk p.tail (Text.splitAt slash specifier) = []
  · obtain ⟨respelled, head, few⟩ := names_of_mem_candidates_top top mem
    rw [respelled, if_pos head] at ways
    have short : place.length ≤ 0 + 1 :=
      Nat.le_trans (ways.length_le free) (Nat.add_le_add_left few 0)
    omega
  · obtain ⟨r, rfl, plainEnd, neEnd, spelledEnd⟩ :=
      exists_place_of_mem_candidates plain.tail top mem
    refine ⟨r, rfl, ?_, ?_⟩
    · have plainRespelled := plainEnd.map_respell
      have neRespelled : r.map Name.respell ≠ [] := mt List.map_eq_nil_iff.mp neEnd
      rw [Place.respell_toText, plainRespelled.filter_splitAt_toText neRespelled,
        if_pos (Place.head?_toText _ fun n mem => (plainRespelled n mem).2)] at ways
      have straight := ways.eq_append free fun n mem =>
        (plainRespelled n (List.mem_reverse.mp mem)).1
      simpa using straight.symm
    · intro spelledPlace unescaped
      apply spelledEnd _ unescaped
      rw [List.map_tail, spelledPlace]

section Scanned

variable {choice : Scan.Choice} {top : Place} {es : List (Text × Entry)} {paths : List Text}
  {importer specifier q : Text} {names : List Text} (wf : d.WellFormed) (free : d.IsLinkFree)
  (there : d.entryAt? (top.map Name.respell) = some (.folder es)) (below : top ≠ [])
  (scan : Scan.IsScan d choice top es paths) (scanned : importer ∈ paths)
  (found : resolve d importer specifier = some q)
  (leads : Scan.LeadsToSource d choice top es q names)

include wf there in
theorem isPlain_of_reached (reached : ∃ e, Entry.at? names (.folder es) = some e) :
    Place.IsPlain (names.reverse ++ top) := by
  apply Place.isPlain_of_map_respell
  rw [Scan.map_respell_of_reached wf there reached]
  exact Scan.isProper_of_reached wf there reached

include wf there scan leads in
/-- The scan has a path for every file that is a source for it. -/
theorem mem_of_leadsToSource : Scan.pathTo top names ∈ paths := by
  obtain ⟨sought, bytes, lead⟩ := leads
  obtain ⟨u, n, -, -, found⟩ := Disk.follows_of_lead lead
  rw [← Scan.map_respell_of_reached wf there sought.reached] at found
  refine (scan.mem_iff _).mpr ⟨names, sought, ⟨bytes, ?_⟩, rfl⟩
  exact Disk.entry_toText wf found (by simp [Entry.IsLink])

include wf free there below scan scanned found leads

/-- An import between files that a scan finds has the path of a place: the place of the file, up to
spelling. -/
theorem exists_place_of_leadsToSource :
    ∃ r : Place, q = r.toText ∧ r.map Name.respell = names.reverse ++ top.map Name.respell ∧
      (top.map Name.respell = top → (∀ c ∈ specifier, c.escapedByte? = none) →
        r.map Name.respell = r) := by
  obtain ⟨origin, isOrigin, -, rfl⟩ := (scan.mem_iff importer).mp scanned
  obtain ⟨sought, bytes, lead⟩ := leads
  have deep : 2 ≤ (names.reverse ++ top.map Name.respell).length := by
    have names_pos := List.length_pos_iff.mpr sought.ne_nil
    have top_pos := List.length_pos_iff.mpr below
    simp only [List.length_append, List.length_reverse, List.length_map]
    omega
  have plain := isPlain_of_reached wf there isOrigin.reached
  obtain ⟨r, text, place, spelled⟩ := exists_place_of_resolve free plain
    (List.append_ne_nil_of_right_ne_nil _ below) found lead deep
  refine ⟨r, text, place, ?_⟩
  intro topSpelled
  apply spelled
  rw [Scan.map_respell_of_reached wf there isOrigin.reached, topSpelled]

/-- Up to spelling, the path of an import is the one that the scan has. -/
theorem respell_of_leadsToSource : Name.respell q = Name.respell (Scan.pathTo top names) := by
  obtain ⟨r, rfl, place, -⟩ :=
    exists_place_of_leadsToSource wf free there below scan scanned found leads
  rw [Scan.pathTo, Place.respell_toText, Place.respell_toText, place,
    Scan.map_respell_of_reached wf there leads.1.reached]

/-- An import is one of the paths of a scan exactly when it is the path that the scan has for the
file. -/
theorem mem_iff_of_leadsToSource : q ∈ paths ↔ q = Scan.pathTo top names := by
  have respelled := respell_of_leadsToSource wf free there below scan scanned found leads
  constructor
  · intro mem
    obtain ⟨names', sought', -, rfl⟩ := (scan.mem_iff q).mp mem
    rw [Scan.eq_of_respell_pathTo wf there sought'.reached leads.1.reached respelled]
  · intro same
    rw [same]
    exact mem_of_leadsToSource wf there scan leads

/-- Below a top that is spelled as the file tree spells it, an import is one of the paths of a scan
exactly when it is spelled so, too. -/
theorem mem_iff_respell (spelled : top.map Name.respell = top) :
    q ∈ paths ↔ Name.respell q = q := by
  have respelled := respell_of_leadsToSource wf free there below scan scanned found leads
  have own : Name.respell (Scan.pathTo top names) = Scan.pathTo top names := by
    rw [Scan.pathTo, Place.respell_toText, Scan.map_respell_of_reached wf there leads.1.reached,
      spelled]
  rw [mem_iff_of_leadsToSource wf free there below scan scanned found leads, respelled, own]
  exact eq_comm

/-- There a specifier without escapes gives a path that is one of the scan's. -/
theorem mem_of_plain (spelled : top.map Name.respell = top)
    (plain : ∀ c ∈ specifier, c.escapedByte? = none) : q ∈ paths := by
  apply (mem_iff_respell wf free there below scan scanned found leads spelled).mpr
  obtain ⟨r, rfl, -, unescaped⟩ :=
    exists_place_of_leadsToSource wf free there below scan scanned found leads
  rw [Place.respell_toText, unescaped spelled plain]

end Scanned

/-- The facts of files, each read from its own statements; imports are looked up in the file
tree. -/
def factsOf (d : Disk) (reading : Reading) (source : Text → List Statement) (files : List Text) :
    List Facts :=
  files.map fun file => Facts.ofStatements (m := Id) reading (resolve d file) file (source file)

section Facts

variable {reading : Reading} {answer : Text → Option Text} {file : Text} {ss : List Statement}

theorem file_ofStatements :
    Facts.file (Facts.ofStatements (m := Id) reading answer file ss) = file :=
  (Facts.Progress.extends_foldl_step reading ⟨.empty, .empty file⟩ ss).facts.file

theorem source_of_mem_routes {r : Route}
    (mem : r ∈ Facts.routes (Facts.ofStatements (m := Id) reading answer file ss)) :
    r.source = file := by
  have wf := Facts.wellFormed_finish_foldl reading file ss
    (recordImports (m := Id) answer (ss.filterMap Statement.importRequest?))
  exact (wf.backed.routes r mem).source.trans file_ofStatements

/-- What stands in the imports is the answer to some request. -/
theorem exists_specifier_of_get?_imports {localName q : Text}
    (h : (Facts.imports (Facts.ofStatements (m := Id) reading answer file ss)).get? localName =
      some q) :
    ∃ specifier, answer specifier = some q := by
  have imports : Facts.imports (Facts.ofStatements (m := Id) reading answer file ss) =
      Assoc.putAll (importEdges (m := Id) answer ss) [] :=
    recordImports_eq_importEdges (m := Id) answer ss
  rw [imports, importEdges_id, Assoc.get?_putAll] at h
  have last := List.mem_of_getLast? (Option.or_none.symm.trans h)
  obtain ⟨edge, entered, rfl⟩ := List.mem_map.mp last
  obtain ⟨s, -, made⟩ := List.mem_filterMap.mp (List.mem_filter.mp entered).1
  obtain ⟨request, -, met⟩ := Option.bind_eq_some_iff.mp made
  obtain ⟨path, answered, rfl⟩ := Option.map_eq_some_iff.mp met
  exact ⟨request.specifier, answered⟩

/-- A mount of a file that has facts of its own meets all routes of the file. -/
theorem exists_facts_of_mount {source : Text → List Statement} {files : List Text} {f : Facts}
    (mem : f ∈ factsOf d reading source files) {localName q : Text}
    (imported : f.imports.get? localName = some q) (target : q ∈ files) {mounts : List Text}
    (made : (localName, mounts) ∈ f.mounts) :
    ∃ g ∈ factsOf d reading source files, g.file = q ∧ ∀ r ∈ g.routes, r.source = q ∧
      ∀ mount ∈ mounts, { r with path := joinPath mount r.path } ∈
        (Document.ofFacts (factsOf d reading source files)).routes := by
  have mounted := List.mem_map_of_mem (f := fun file =>
    Facts.ofStatements (m := Id) reading (resolve d file) file (source file)) target
  refine ⟨_, mounted, file_ofStatements, ?_⟩
  intro r isRoute
  have source_eq := source_of_mem_routes isRoute
  refine ⟨source_eq, ?_⟩
  intro mount inMounts
  exact Document.mem_routes_of_mount mem mounted imported made inMounts isRoute source_eq

end Facts

/-- Imports and the scan of a folder, whose paths are given, agree on the files that the scan is to
find. The path of an import is one of the scan's exactly when it is the one that the scan has for
that file. If the top is spelled as the file tree spells it, this says that the import is, too, as
it is for every specifier without escapes. Then each mount of the file meets all of the file's
routes. -/
structure AgreesWithScan (d : Disk) (choice : Scan.Choice) (top : Place) (es : List (Text × Entry))
    (paths : List Text) : Prop where
  mem_iff : ∀ importer ∈ paths, ∀ specifier q names, resolve d importer specifier = some q →
    Scan.LeadsToSource d choice top es q names →
      Scan.pathTo top names ∈ paths ∧ (q ∈ paths ↔ q = Scan.pathTo top names)
  spelled : top.map Name.respell = top → ∀ importer ∈ paths, ∀ specifier q names,
    resolve d importer specifier = some q → Scan.LeadsToSource d choice top es q names →
      (q ∈ paths ↔ Name.respell q = q) ∧
        ((∀ c ∈ specifier, c.escapedByte? = none) → q ∈ paths)
  mounts : top.map Name.respell = top → ∀ reading source, ∀ f ∈ factsOf d reading source paths,
    ∀ localName q names, f.imports.get? localName = some q →
      Scan.LeadsToSource d choice top es q names → Name.respell q = q →
        ∀ mounts, (localName, mounts) ∈ f.mounts →
          ∃ g ∈ factsOf d reading source paths, g.file = q ∧ ∀ r ∈ g.routes, r.source = q ∧
            ∀ mount ∈ mounts, { r with path := joinPath mount r.path } ∈
              (Document.ofFacts (factsOf d reading source paths)).routes

/-- In a file tree without links, every scan of a folder gives an answer, and imports agree with it
unless the folder is the top of the file tree. -/
theorem agreesWithScan {d : Disk} (wf : d.WellFormed) (free : d.IsLinkFree) (choice : Scan.Choice)
    {path : Text} {p : Path} {es : List (Text × Entry)}
    (home : d.expandHome (Path.ofText path) = .ok p)
    (isFolder : d.entry p.toText = .ok (.folder es)) :
    ∃ top paths, d.realPlace p = .ok top ∧ Scan.run d choice path = .ok paths ∧
      (top ≠ [] → AgreesWithScan d choice top es paths) := by
  have proper := (Path.ofText_isProper path).expandHome home
  obtain ⟨top, place, there, -⟩ :=
    Disk.exists_realPlace wf proper isFolder (by simp [Entry.IsLink])
  obtain ⟨paths, answer⟩ :=
    @Scan.exists_run_of_isLinkFree d choice top es free wf path p home place there
  have scan := Scan.isScan_of_run wf home place there answer
  refine ⟨top, paths, place, answer, fun below => ⟨?_, ?_, ?_⟩⟩
  · intro importer scanned specifier q names found leads
    exact ⟨mem_of_leadsToSource wf there scan leads,
      mem_iff_of_leadsToSource wf free there below scan scanned found leads⟩
  · intro spelled importer scanned specifier q names found leads
    exact ⟨mem_iff_respell wf free there below scan scanned found leads spelled,
      mem_of_plain wf free there below scan scanned found leads spelled⟩
  · intro spelled reading source f mem localName q names imported leads respelled mounts made
    obtain ⟨importer, scanned, rfl⟩ := List.mem_map.mp mem
    obtain ⟨specifier, found⟩ := exists_specifier_of_get?_imports imported
    have target :=
      (mem_iff_respell wf free there below scan scanned found leads spelled).mpr respelled
    exact exists_facts_of_mount mem imported target made

/-- The entries of a folder in which a file is imported by a way around. -/
def workshopEntries : List (Text × Entry) :=
  [("main.js", .file .empty), ("lib", .folder [("users.js", .file .empty)])]

/-- A file tree with such a folder in it. -/
def workshop : Disk where
  entries := [("srv", .folder [("app", .folder workshopEntries)])]
  current := ["srv"]
  home := "/srv"

theorem agreesWithScan_workshop :
    workshop.WellFormed ∧ workshop.IsLinkFree ∧
      workshop.expandHome (Path.ofText "./app/") = .ok ⟨[], ["app"]⟩ ∧
      workshop.entry "app" = .ok (.folder workshopEntries) ∧
      resolve workshop "/srv/app/main.js" "./../app//lib/./users" = some "/srv/app/lib/users.js" ∧
      Scan.run workshop ⟨[], [".js"]⟩ "./app/" = .ok ["/srv/app/main.js", "/srv/app/lib/users.js"] ∧
      ∃ top paths, workshop.realPlace ⟨[], ["app"]⟩ = .ok top ∧
        Scan.run workshop ⟨[], [".js"]⟩ "./app/" = .ok paths ∧
        (top ≠ [] → AgreesWithScan workshop ⟨[], [".js"]⟩ top workshopEntries paths) := by
  have wf : workshop.WellFormed := ⟨by decide, _, rfl⟩
  have free := Disk.isLinkFree_of_linkCount (d := workshop) rfl
  have place : workshop.realPlace ⟨[], ["app"]⟩ = .ok ["app", "srv"] := rfl
  have lib : Scan.filesOf workshop ⟨[], [".js"]⟩ ["lib", "app", "srv"] "lib"
      (.folder [("users.js", .file .empty)]) = _ :=
    Scan.filesOf_of_sorted ["users.js"] (.refl _) (by decide) rfl .nil
  have among : Scan.filesAmong workshop ⟨[], [".js"]⟩ ["app", "srv"] [] workshopEntries =
      [(("lib" : Text), _)] :=
    congrArg (fun found => [(("lib" : Text), found)]) lib
  have top : Scan.filesOf workshop ⟨[], [".js"]⟩ ["app", "srv"] [] (.folder workshopEntries) = _ :=
    Scan.filesOf_of_sorted ["main.js"] (.refl _) (by decide) among (List.pairwise_singleton _ _)
  refine ⟨wf, free, rfl, rfl, rfl, ?_, agreesWithScan wf free _ rfl rfl⟩
  rw [Scan.run_eq rfl place rfl, top]
  rfl

/-- The escapes of the two bytes of U+00E9. -/
def escapes : Text := [⟨0xDCC3, by decide⟩, ⟨0xDCA9, by decide⟩]

/-- The entries of a folder with a file whose name is beyond ASCII. -/
def accentedEntries : List (Text × Entry) :=
  [("app.js", .file .empty), ("é.js", .file .empty)]

/-- A file tree in which the folder's name is beyond ASCII, too. -/
def accented : Disk where
  entries := [("srv", .folder [("é", .folder accentedEntries)])]
  current := []
  home := "/srv"

set_option maxRecDepth 1024 in
/-- A specifier with escapes leads to a scanned file by a path that the scan does not have. So does
a specifier without them if the top of the scan is spelled with escapes. -/
theorem resolve_escapes :
    (∃ paths, Scan.run accented ⟨[], [".js"]⟩ "/srv/é" = .ok paths ∧
      ("/srv/é/app.js" : Text) ∈ paths ∧
      resolve accented "/srv/é/app.js" ("./" ++ escapes) = some ("/srv/é/" ++ escapes ++ ".js") ∧
      Scan.LeadsToSource accented ⟨[], [".js"]⟩ ["é", "srv"] accentedEntries
        ("/srv/é/" ++ escapes ++ ".js") ["é.js"] ∧
      ("/srv/é/" ++ escapes ++ ".js" : Text) ∉ paths) ∧
    ∃ paths, Scan.run accented ⟨[], [".js"]⟩ ("/srv/" ++ escapes) = .ok paths ∧
      ("/srv/" ++ escapes ++ "/app.js" : Text) ∈ paths ∧
      resolve accented ("/srv/" ++ escapes ++ "/app.js") "../é/é" = some "/srv/é/é.js" ∧
      Scan.LeadsToSource accented ⟨[], [".js"]⟩ [escapes, "srv"] accentedEntries "/srv/é/é.js"
        ["é.js"] ∧
      ("/srv/é/é.js" : Text) ∉ paths := by
  have found (top : Place) :
      Scan.filesOf accented ⟨[], [".js"]⟩ top [] (.folder accentedEntries) = _ :=
    Scan.filesOf_of_sorted ["app.js", "é.js"] (.refl _) (by decide) rfl .nil
  constructor
  · have place : accented.realPlace ⟨[slash], ["srv", "é"]⟩ = .ok ["é", "srv"] := rfl
    refine ⟨["/srv/é/app.js", "/srv/é/é.js"], ?_, by decide, by rfl, ?_, by decide⟩
    · rw [Scan.run_eq rfl place rfl, found]
      rfl
    · exact ⟨⟨by decide, ⟨_, rfl⟩, ⟨".js", by decide, by decide⟩, by simp⟩, .empty, rfl⟩
  · have place : accented.realPlace ⟨[slash], ["srv", escapes]⟩ = .ok [escapes, "srv"] := rfl
    refine ⟨["/srv/" ++ escapes ++ "/app.js", "/srv/" ++ escapes ++ "/é.js"], ?_, by decide,
      by rfl, ?_, by decide⟩
    · rw [Scan.run_eq rfl place rfl, found]
      rfl
    · exact ⟨⟨by decide, ⟨_, rfl⟩, ⟨".js", by decide, by decide⟩, by simp⟩, .empty, rfl⟩

end Import

end RouteAtlas
