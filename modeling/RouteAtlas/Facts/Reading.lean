import RouteAtlas.Facts.CallSite

/-!
# Reading statements

The facts of a file are gathered in one pass over its statements. Declarations fill the binding
table, expression statements are call sites, and both declarations and imports can ask for another
file. Answers to those requests enter only the imports.
-/

namespace RouteAtlas

/-- A local name and the specifier of the module that it stands for. -/
structure ImportRequest where
  localName : Text
  specifier : Text
deriving DecidableEq

/-- The module that a statement asks for, by an import or by a call of `require`. -/
def Statement.importRequest? : Statement → Option ImportRequest
  | .importing (some name) (some source) =>
    if name = [] ∨ source = [] then none else some ⟨name, source⟩
  | .declaration [⟨some name, some (.call (.name callee) (.text specifier :: _))⟩] =>
    if name ≠ [] ∧ callee = "require" then some ⟨name, specifier⟩ else none
  | _ => none

/-- Enters the answer to a request; a request that is not met changes nothing. -/
def recordImport {m : Type → Type} [Monad m] (resolve : Text → m (Option Text))
    (imports : Assoc Text Text) (request : ImportRequest) : m (Assoc Text Text) := do
  match ← resolve request.specifier with
  | some path => return imports.put request.localName path
  | none => return imports

/-- The imports that requests lead to, each alias with the last of its requests that was met. -/
def recordImports {m : Type → Type} [Monad m] (resolve : Text → m (Option Text))
    (requests : List ImportRequest) : m (Assoc Text Text) :=
  requests.foldlM (recordImport resolve) []

namespace Facts

/-- The bindings so far and the facts so far. -/
structure Progress where
  table : BindingTable
  facts : Facts

/-- One statement's contribution, imports aside. -/
def Progress.step (reading : Reading) (p : Progress) : Statement → Progress
  | .declaration declarators => { p with table := p.table.declare reading.framework declarators }
  | .importing .. => p
  | .expression comments e =>
    { p with facts := CallSite.visit reading p.table comments e p.facts }

/-- The facts at the end of a reading. -/
def Progress.finish (p : Progress) (imports : Assoc Text Text) : Facts :=
  { p.facts with
    imports := imports
    bindings := p.table.bindings
    servers := p.table.servers
    routers := p.table.routers }

/-- The facts of a file's statements, where `resolve` answers its requests. -/
def ofStatements {m : Type → Type} [Monad m] (reading : Reading)
    (resolve : Text → m (Option Text)) (file : Text) (statements : List Statement) : m Facts := do
  let p := statements.foldl (Progress.step reading) ⟨.empty, .empty file⟩
  return p.finish (← recordImports resolve (statements.filterMap Statement.importRequest?))

end Facts

end RouteAtlas
