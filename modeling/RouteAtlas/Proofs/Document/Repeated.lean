import Mathlib.Data.List.Nodup
import RouteAtlas.Facts.File
import RouteAtlas.Proofs.Document.Mounting
import RouteAtlas.Proofs.Document.Nested
import RouteAtlas.Proofs.Facts.Mounted

/-!
# Mounts made twice

Nothing tells a mount from an equal one made before. The mount points of a file are the paths of all
calls that mount it, in whatever files and under whatever names, each as often as it is written. So
a route has as many copies as its file has mounts, and two of them are equal exactly if two mounts
have paths that differ at most in a slash at the end (`nodup_copies_iff`).
-/

namespace RouteAtlas

/-- The facts of a file together with the statements that they were read from. -/
structure Extract (reading : Reading) where
  statements : List Statement
  facts : Facts
  read : ∃ (σ : Type) (resolve : Text → StateM σ (Option Text)) (file : Text) (memo : σ),
    facts = ((Facts.ofStatements reading resolve file statements).run memo).1

namespace Extract

variable {reading : Reading}

/-- Reads statements. -/
def ofStatements (reading : Reading) {σ : Type} (resolve : Text → StateM σ (Option Text))
    (file : Text) (ss : List Statement) (memo : σ) : Extract reading :=
  ⟨ss, _, σ, resolve, file, memo, rfl⟩

/-- The facts of a parsed text are an extract of its statements. -/
theorem exists_of_ofParsed {σ : Type} {resolve : Text → Text → StateM σ (Option Text)}
    {p : ParsedText} {before after : σ} {f : Facts}
    (h : (Facts.ofParsed reading resolve p).run.run before = (.ok f, after)) :
    ∃ e : Extract reading, e.facts = f ∧ p.statements = .ok e.statements := by
  obtain ⟨ss, statements, rfl⟩ := Facts.statements_of_run_ofParsed h
  exact ⟨ofStatements reading (resolve p.path) p.path ss before, rfl, statements⟩

/-- The paths at which the file's calls mount `target`: those of the names that import it. -/
def pathsWritten (e : Extract reading) (target : Text) : List Text :=
  ((mountCalls reading [] e.statements).filter fun m =>
    e.facts.imports.get? m.1 = some target).map Prod.snd

theorem perm_pathsTo (e : Extract reading) (target : Text) :
    (e.facts.pathsTo target).Perm (e.pathsWritten target) := by
  have collected : e.facts.mounts = Assoc.collect (mountCalls reading [] e.statements) := by
    obtain ⟨σ, resolve, file, memo, facts⟩ := e.read
    rw [facts, Facts.mounts_ofStatements]
  rw [Facts.pathsTo, collected, pathsWritten]
  exact Assoc.perm_flatMap_collect (fun name => e.facts.imports.get? name = some target) _

end Extract

section Extracts

variable {reading : Reading}

/-- The paths at which the calls of some files mount `target`. -/
def pathsWritten (es : List (Extract reading)) (target : Text) : List Text :=
  es.flatMap (·.pathsWritten target)

/-- A route below each path at which its file is mounted, or as it is. -/
def copiesWritten (es : List (Extract reading)) (r : Route) : List Route :=
  if pathsWritten es r.source = [] then [r]
  else (pathsWritten es r.source).map fun path => { r with path := joinPath path r.path }

theorem perm_of_ofFacts (es : List (Extract reading)) (file : Text) :
    ((MountPoints.ofFacts (es.map (·.facts))).of file).Perm (pathsWritten es file) := by
  rw [MountPoints.of_ofFacts, mountPaths, List.flatMap_map]
  exact List.Perm.flatMap_left es fun e _ => e.perm_pathsTo file

theorem perm_copies_ofFacts (es : List (Extract reading)) (r : Route) :
    ((MountPoints.ofFacts (es.map (·.facts))).copies r).Perm (copiesWritten es r) := by
  have paths := perm_of_ofFacts es r.source
  rw [MountPoints.of_ofFacts] at paths
  rw [MountPoints.copies_ofFacts, copiesWritten]
  by_cases none : pathsWritten es r.source = []
  · rw [if_pos none, if_pos (none ▸ paths).eq_nil]
  · rw [if_neg none, if_neg fun empty => none (empty ▸ paths.symm).eq_nil]
    exact paths.map _

/-- The copies of a route are different exactly if the paths of the calls that mount its file are, a
slash at the end left aside. -/
theorem nodup_copies_iff (es : List (Extract reading)) (r : Route) :
    ((MountPoints.ofFacts (es.map (·.facts))).copies r).Nodup ↔
      ((pathsWritten es r.source).map trimSlash).Nodup := by
  rw [(perm_copies_ofFacts es r).nodup_iff, copiesWritten]
  let below (mount : Text) : Route := { r with path := mount ++ leadSlash r.path }
  have injective : Function.Injective below := by
    intro mount mount' same
    exact List.append_cancel_right (congrArg Route.path same)
  have joined (mount : Text) :
      { r with path := joinPath mount r.path } = below (trimSlash mount) := by
    rw [joinPath_eq]
  simp only [joined]
  split
  · next none => simp [none]
  · rw [← List.nodup_map_iff injective, List.map_map]
    rfl

example : joinPath "/api/" "/list" = joinPath "/api" "/list" := by decide

/-- For all files that are read, with however many mounts, names and files, the mount points of a
file are the paths of all calls that mount it, each as often as such a call is written. So a path
stands twice among them exactly if two calls mount the file there. A document has one copy of a
route for each of the calls, or the route as it is if there is none. Two of these copies are the
same exactly if two calls name paths that differ at most in a slash at the end. -/
theorem Document.routes_perm_written (es : List (Extract reading)) :
    let fs := es.map (·.facts)
    (∀ file, ((MountPoints.ofFacts fs).of file).Perm (pathsWritten es file) ∧
        (((MountPoints.ofFacts fs).of file).Nodup ↔ (pathsWritten es file).Nodup)) ∧
      (Document.ofFacts fs).routes.Perm
        (es.flatMap fun e => e.facts.routes.flatMap (copiesWritten es)) ∧
      (∀ r, ((MountPoints.ofFacts fs).copies r).Perm (copiesWritten es r) ∧
        (((MountPoints.ofFacts fs).copies r).Nodup ↔
          ((pathsWritten es r.source).map trimSlash).Nodup)) := by
  intro fs
  refine ⟨fun file => ⟨perm_of_ofFacts es file, (perm_of_ofFacts es file).nodup_iff⟩, ?_,
    fun r => ⟨perm_copies_ofFacts es r, nodup_copies_iff es r⟩⟩
  rw [Document.routes_eq_copies, List.flatMap_map]
  apply List.Perm.flatMap_left es
  intro e _
  exact List.Perm.flatMap_left _ fun r _ => perm_copies_ofFacts es r

end Extracts

/-- Meets the requests for one module. -/
def usersResolver (specifier : Text) : StateM Unit (Option Text) :=
  return if specifier = "./users" then some "/p/users.js" else none

/-- A server that mounts one file under two names at one path, and the file. -/
def mountedAgain : List (Extract ⟨⟨"express", "Router"⟩, "@desc", true⟩) :=
  let declare (name : Text) (init : Expr) := Statement.declaration [⟨some name, some init⟩]
  let call (name property : Text) (arguments : List Expr) :=
    Statement.expression [] (.call (.member (.name name) (some property) false) arguments)
  let app := [declare "app" (.call (.name "express") []),
    declare "users" (.call (.name "require") [.text "./users"]),
    declare "people" (.call (.name "require") [.text "./users"]),
    call "app" "use" [.text "/api", .name "users"], call "app" "use" [.text "/api", .name "people"]]
  let users := [
    declare "router" (.call (.member (.name "express") (some "Router") false) []),
    call "router" "get" [.text "/list", .name "list"]]
  [.ofStatements _ usersResolver "/p/app.js" app (),
    .ofStatements _ usersResolver "/p/users.js" users ()]

/-- The one path stands twice, and so does the route. -/
theorem Document.routes_mountedAgain :
    let fs := mountedAgain.map (·.facts)
    let copy : Route := ⟨"/api/list", "get", some "router", "/p/users.js", [], none⟩
    ¬ ((MountPoints.ofFacts fs).of "/p/users.js").Nodup ∧
      (MountPoints.ofFacts fs).of "/p/users.js" = ["/api", "/api"] ∧
      (Document.ofFacts fs).routes = [copy, copy] := by
  decide

end RouteAtlas
