import RouteAtlas.Facts.Reading
import RouteAtlas.Proofs.Assoc

/-!
# Import edges

The requests of a file's statements are answered one after the other, and each that is met leads to
an edge from a local name to a path. The imports are made of the edges alone: the last edge of a
name counts, and the names stand in the order of their first edges. No other fact depends on them,
so that declarations of imports can come and go anywhere between the other statements.
-/

namespace RouteAtlas

namespace Statement

/-- An import declaration. A call of `require` stands in a declaration, which also makes a
binding. -/
def isImport : Statement → Bool
  | .importing .. => true
  | _ => false

/-- The statement asks for the module of a specifier by a local name. An empty name counts as none,
and so does an empty source of an import. -/
inductive Requests : Statement → Text → Text → Prop
  | importing {localName source : Text} (named : localName ≠ []) (sourced : source ≠ []) :
    Requests (.importing (some localName) (some source)) localName source
  | require {localName specifier : Text} (named : localName ≠ []) (others : List Expr) :
    Requests
      (.declaration
        [⟨some localName, some (.call (.name "require") (.text specifier :: others))⟩])
      localName specifier

theorem importRequest?_eq_some_iff {s : Statement} {request : ImportRequest} :
    s.importRequest? = some request ↔ s.Requests request.localName request.specifier := by
  constructor
  · intro asked
    unfold importRequest? at asked
    split at asked
    · split at asked
      · cases asked
      · next given =>
          obtain rfl := Option.some.inj asked
          rw [not_or] at given
          exact .importing given.1 given.2
    · split at asked
      · next given =>
          obtain rfl := Option.some.inj asked
          rw [given.2]
          exact .require given.1 _
      · cases asked
    · cases asked
  · obtain ⟨localName, specifier⟩ := request
    rintro (⟨named, sourced⟩ | ⟨named, others⟩)
    · simp [importRequest?, named, sourced]
    · simp [importRequest?, named]

end Statement

section Edges

variable {m : Type → Type} [Monad m]

/-- The edge that a statement leads to, if it asks for a module and the request is met. -/
def Statement.edge? (resolve : Text → m (Option Text)) (s : Statement) : m (Option (Text × Text)) :=
  match s.importRequest? with
  | some request => return (← resolve request.specifier).map (request.localName, ·)
  | none => return none

/-- The edges that statements lead to, where each request is answered in its turn. -/
def importEdges (resolve : Text → m (Option Text)) (ss : List Statement) : m (List (Text × Text)) :=
  ss.filterMapM (Statement.edge? resolve)

variable [LawfulMonad m]

/-- Recording requests, from some imports on, enters the edges. -/
theorem foldlM_recordImport (resolve : Text → m (Option Text)) (ss : List Statement)
    (imports : Assoc Text Text) :
    (ss.filterMap Statement.importRequest?).foldlM (recordImport resolve) imports =
      (fun edges => imports.putAll edges) <$> importEdges resolve ss := by
  induction ss generalizing imports with
  | nil => simp [importEdges, Assoc.putAll]
  | cons s rest ih =>
      rw [importEdges, List.filterMapM_cons, ← importEdges]
      cases asked : s.importRequest? with
      | none =>
          rw [List.filterMap_cons_none asked, ih]
          simp [Statement.edge?, asked]
      | some request =>
          rw [List.filterMap_cons_some asked, List.foldlM_cons, recordImport]
          simp only [Statement.edge?, asked, bind_assoc, map_bind]
          refine bind_congr fun answer => ?_
          cases answer with
          | none => simp [ih]
          | some path => simp [ih, Assoc.putAll]

/-- The imports are the edges, entered one after the other. -/
theorem recordImports_eq_importEdges (resolve : Text → m (Option Text)) (ss : List Statement) :
    recordImports resolve (ss.filterMap Statement.importRequest?) =
      (fun edges => Assoc.putAll edges []) <$> importEdges resolve ss :=
  foldlM_recordImport resolve ss []

end Edges

/-- Where no answer depends on earlier requests, edges are made statement by statement. -/
theorem importEdges_id (answer : Text → Option Text) (ss : List Statement) :
    importEdges (m := Id) answer ss =
      ss.filterMap fun s => s.importRequest?.bind fun request =>
        (answer request.specifier).map (request.localName, ·) := by
  induction ss with
  | nil => rfl
  | cons s rest ih =>
      rw [importEdges, List.filterMapM_cons, ← importEdges, ih, List.filterMap_cons]
      cases asked : s.importRequest? with
      | none => simp only [Statement.edge?, asked]; rfl
      | some request => simp only [Statement.edge?, asked]; rfl

/-- The same facts without any import. -/
def Facts.eraseImports (f : Facts) : Facts := { f with imports := [] }

namespace Facts

/-- Import declarations contribute nothing but imports. -/
theorem Progress.foldl_step_filter (reading : Reading) (ss : List Statement) (p : Progress) :
    (ss.filter fun s => !s.isImport).foldl (step reading) p = ss.foldl (step reading) p := by
  rw [List.foldl_filter]
  congr 1
  funext p s
  cases s <;> rfl

/-- Imports aside, the facts are those of the statements without the import declarations. -/
theorem eraseImports_ofStatements {σ : Type} (reading : Reading)
    (resolve : Text → StateM σ (Option Text)) (file : Text) (ss : List Statement) (memo : σ) :
    ((ofStatements reading resolve file ss).run memo).1.eraseImports =
      (((ss.filter fun s => !s.isImport).foldl (Progress.step reading) ⟨.empty, .empty file⟩).finish
        []).eraseImports := by
  rw [Progress.foldl_step_filter]
  rfl

/-- The imports of a file, read off its edges. -/
theorem imports_ofStatements {σ : Type} (reading : Reading)
    (resolve : Text → StateM σ (Option Text)) (file : Text) (ss : List Statement) (memo : σ) :
    ((ofStatements reading resolve file ss).run memo).1.imports =
      Assoc.putAll ((importEdges resolve ss).run memo).1 [] := by
  have recorded := recordImports_eq_importEdges resolve ss
  unfold ofStatements
  rw [recorded]
  rfl

/-- Statements that differ only in import declarations have the same facts, imports aside. A name
imports the path of its last edge, where an edge is a request that is met and requests stand in
imports of the name and in declarations of it alone by a call of `require`; names come in the order
of their first edges. -/
theorem ofStatements_edges {σ : Type} (reading : Reading) (resolve : Text → StateM σ (Option Text))
    (file : Text) {ss ts : List Statement}
    (same : (ss.filter fun s => !s.isImport) = ts.filter fun s => !s.isImport) (memo other : σ) :
    let f := ((ofStatements reading resolve file ss).run memo).1
    let g := ((ofStatements reading resolve file ts).run other).1
    let edges := ((importEdges resolve ss).run memo).1
    f.eraseImports = g.eraseImports ∧
      (∀ localName, f.imports.get? localName = (Assoc.given localName edges).getLast?) ∧
      f.imports.map Prod.fst = (edges.map Prod.fst).eraseDups ∧
      ∀ (s : Statement) (localName specifier : Text),
        s.importRequest? = some ⟨localName, specifier⟩ ↔ s.Requests localName specifier := by
  intro f g edges
  have imports : f.imports = Assoc.putAll edges [] :=
    imports_ofStatements reading resolve file ss memo
  refine ⟨?_, ?_, ?_, fun _ _ _ => Statement.importRequest?_eq_some_iff⟩
  · calc f.eraseImports = _ := eraseImports_ofStatements reading resolve file ss memo
      _ = _ := by rw [same]
      _ = g.eraseImports := (eraseImports_ofStatements reading resolve file ts other).symm
  · intro localName
    rw [imports, Assoc.get?_putAll]
    exact Option.or_none
  · rw [imports]
    exact Assoc.keys_putAll edges

/-- Counts the requests, and meets all but one of them. -/
def countingResolver (specifier : Text) : StateM Nat (Option Text) := do
  modify (· + 1)
  return if specifier = "./missing" then none else some specifier

/-- A server that mounts `users` before the name stands for its last module. -/
def mountBetweenImports : List Statement := [
  .importing (some "users") (some "./users"),
  .importing (some "log") (some "./log"),
  .declaration [⟨some "app", some (.call (.name "express") [])⟩],
  .expression [] (.call (.member (.name "app") (some "use") false) [.text "/u", .name "users"]),
  .importing (some "log") (some "./missing"),
  .declaration [⟨some "users", some (.call (.name "require") [.text "./people"])⟩]]

/-- The same server with one import declaration, in front. -/
def mountAfterImport : List Statement :=
  .importing (some "log") (some "./log") :: mountBetweenImports.filter fun s => !s.isImport

theorem ofStatements_edges_mount :
    let reading : Reading := ⟨⟨"express", "Router"⟩, "@desc", true⟩
    let f := ((ofStatements reading countingResolver "/p/app.js" mountBetweenImports).run 0).1
    let g := ((ofStatements reading countingResolver "/p/app.js" mountAfterImport).run 0).1
    (mountBetweenImports.filter fun s => !s.isImport) =
        (mountAfterImport.filter fun s => !s.isImport) ∧
      f.imports = ([("users", "./people"), ("log", "./log")] : Assoc Text Text) ∧
      g.imports = ([("log", "./log"), ("users", "./people")] : Assoc Text Text) ∧
      f.mounts = ([("users", ["/u"])] : Assoc Text (List Text)) ∧
      f.eraseImports = g.eraseImports := by
  intro reading f g
  have same : (mountBetweenImports.filter fun s => !s.isImport) =
      mountAfterImport.filter fun s => !s.isImport := rfl
  have edges := ofStatements_edges reading countingResolver "/p/app.js" same 0 0
  exact ⟨same, by decide, by decide, by decide, edges.1⟩

end Facts

end RouteAtlas
