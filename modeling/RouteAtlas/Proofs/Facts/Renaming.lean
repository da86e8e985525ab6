import Mathlib.Data.List.Basic
import Mathlib.Logic.Equiv.Basic
import RouteAtlas.Facts.Reading

/-!
# Renaming

A file may name its variables as it likes. The facts of consistently renamed statements are the
renamed facts: no name is special but `process`, `require`, the name of the factory, the name for
unnamed middleware, and the empty name, and no two names fall together. Properties, strings, sources
of imports and comments are not names.
-/

namespace RouteAtlas

/-- A renaming that leaves the special names as they are. A function's own name is never looked at,
so nothing is asked of how it changes. -/
structure Renaming (framework : Framework) where
  name : Text → Text
  functionName : Text → Text
  injective : Function.Injective name
  process : name "process" = "process"
  require : name "require" = "require"
  factory : name framework.factory = framework.factory
  anonymous : name CallSite.anonymous = CallSite.anonymous
  empty : name [] = []

variable {framework : Framework} (r : Renaming framework)

namespace Renaming

theorem name_eq_iff {fixed : Text} (h : r.name fixed = fixed) (n : Text) :
    r.name n = fixed ↔ n = fixed :=
  ⟨fun renamed => r.injective (renamed.trans h.symm), fun same => same ▸ h⟩

end Renaming

/-! ## Renamed statements -/

namespace Expr

mutual

/-- The expression with other names. -/
def rename : Expr → Expr
  | .text t => .text t
  | .literal kind v => .literal kind v
  | .name n => .name (r.name n)
  | .member object property computed => .member object.rename property computed
  | .call callee arguments => .call callee.rename (renameAll arguments)
  | .either left right => .either left.rename right.rename
  | .function n => .function (n.map r.functionName)
  | .other kind => .other kind

/-- The expressions with other names. -/
def renameAll : List Expr → List Expr
  | [] => []
  | e :: rest => e.rename :: renameAll rest

end

theorem renameAll_eq_map (es : List Expr) : renameAll r es = es.map (rename r) := by
  induction es with
  | nil => rfl
  | cons e rest ih => rw [renameAll, ih, List.map_cons]

@[simp]
theorem value?_rename (e : Expr) : (e.rename r).value? = e.value? := by
  cases e <;> rfl

@[simp]
theorem isEnvLookup_rename (e : Expr) : (e.rename r).isEnvLookup = e.isEnvLookup := by
  cases e with
  | member object _ _ =>
      cases object with
      | member inner property computed =>
          cases inner with
          | name n =>
              cases property <;> cases computed <;>
                simp [rename, isEnvLookup, r.name_eq_iff r.process]
          | _ => rfl
      | _ => rfl
  | _ => rfl

@[simp]
theorem envDefault?_rename (e : Expr) : (e.rename r).envDefault? = e.envDefault? := by
  cases e with
  | either left right => simp only [rename, envDefault?, isEnvLookup_rename, value?_rename]
  | _ => rfl

@[simp]
theorem role?_rename (e : Expr) : (e.rename r).role? framework = e.role? framework := by
  cases e with
  | call callee arguments =>
      cases callee with
      | name n => simp [rename, role?, r.name_eq_iff r.factory]
      | member object property computed =>
          cases object with
          | name n => cases computed <;> simp [rename, role?, r.name_eq_iff r.factory]
          | _ => rfl
      | _ => rfl
  | _ => rfl

end Expr

/-- The declarator with other names. -/
def Declarator.rename (d : Declarator) : Declarator :=
  ⟨d.name.map r.name, d.init.map (Expr.rename r)⟩

/-- The statement with other names. -/
def Statement.rename : Statement → Statement
  | .declaration declarators => .declaration (declarators.map (Declarator.rename r))
  | .importing localName source => .importing (localName.map r.name) source
  | .expression comments e => .expression comments (e.rename r)

/-! ## Renamed bindings -/

/-- The binding with another name. -/
def Binding.rename (b : Binding) : Binding := { b with name := r.name b.name }

theorem Binding.ofDeclarators?_rename (ds : List Declarator) :
    ofDeclarators? (ds.map (Declarator.rename r)) = (ofDeclarators? ds).map (rename r) := by
  match ds with
  | [] | ⟨none, _⟩ :: _ | ⟨some _, _⟩ :: _ :: _ | [⟨some _, none⟩] => rfl
  | [⟨some n, some e⟩] =>
    simp only [List.map_cons, List.map_nil, Declarator.rename, Option.map_some, ofDeclarators?,
      Option.bind_some, Expr.envDefault?_rename, Expr.value?_rename]
    cases e.envDefault? <;> rfl

namespace BindingTable

/-- The table with other names. -/
def rename (t : BindingTable) : BindingTable :=
  ⟨t.bindings.map (Binding.rename r), t.servers.map r.name, t.routers.map r.name⟩

theorem addName_rename (n : Text) (ns : List Text) :
    addName (r.name n) (ns.map r.name) = (addName n ns).map r.name := by
  have member : r.name n ∈ ns.map r.name ↔ n ∈ ns := by simp [r.injective.eq_iff]
  simp only [addName, member]
  split <;> simp

theorem assign_rename (n : Text) (role : Option Role) (t : BindingTable) :
    assign (r.name n) role (t.rename r) = (assign n role t).rename r := by
  match role with
  | none => rfl
  | some .server | some .router => simp only [assign, rename, addName_rename]

theorem declare_rename (ds : List Declarator) (t : BindingTable) :
    declare framework (ds.map (Declarator.rename r)) (t.rename r) =
      (declare framework ds t).rename r := by
  have role : ((ds.map (Declarator.rename r)).head?.bind (·.init)).bind (Expr.role? framework) =
      (ds.head?.bind (·.init)).bind (Expr.role? framework) := by
    match ds with
    | [] | ⟨_, none⟩ :: _ => rfl
    | ⟨_, some e⟩ :: _ => exact Expr.role?_rename r e
  simp only [declare, Binding.ofDeclarators?_rename, role]
  cases Binding.ofDeclarators? ds with
  | none => rfl
  | some b =>
      rw [← assign_rename]
      simp [rename, Binding.rename]

theorem lookup_rename (t : BindingTable) (n : Text) :
    (t.rename r).lookup (r.name n) = (t.lookup n).map (Binding.rename r) := by
  have same (b : Binding) : ((b.rename r).name == r.name n) = (b.name == n) := by
    simp [Binding.rename, r.injective.eq_iff, beq_eq_decide]
  simp only [lookup, rename, List.find?_map, Function.comp_def, same]

theorem resolve_rename (t : BindingTable) (e : Option Expr) :
    (t.rename r).resolve (e.map (Expr.rename r)) = t.resolve e := by
  match e with
  | none => rfl
  | some (.name n) =>
    simp only [Option.map_some, Expr.rename, resolve, lookup_rename, Option.map_map]
    rfl
  | some (.text _) | some (.literal ..) | some (.member ..) | some (.call ..)
  | some (.either ..) | some (.function _) | some (.other _) => rfl

theorem holds_rename (t : BindingTable) (n : Text) (role : Role) :
    (t.rename r).holds (r.name n) role = t.holds n role := by
  cases role <;> simp [holds, rename, r.injective.eq_iff]

end BindingTable

/-! ## Renamed facts -/

namespace Assoc

variable {ν : Type}

/-- The same entries by other names. -/
def renameKeys (a : Assoc Text ν) : Assoc Text ν := a.map fun e => (r.name e.1, e.2)

theorem alter_renameKeys (key : Text) (f : Option ν → ν) (a : Assoc Text ν) :
    alter (r.name key) f (renameKeys r a) = renameKeys r (alter key f a) := by
  induction a with
  | nil => rfl
  | cons e rest ih =>
      obtain ⟨k, v⟩ := e
      by_cases same : k = key
      · simp [alter, renameKeys, same]
      · simpa [alter, renameKeys, same, r.injective.eq_iff] using ih

end Assoc

/-- The route with other names. -/
def Route.rename (route : Route) : Route :=
  { route with
    router := route.router.map r.name
    middleware := route.middleware.map r.name }

/-- The facts with other names. -/
def Facts.rename (f : Facts) : Facts where
  file := f.file
  imports := f.imports.renameKeys r
  mounts := f.mounts.renameKeys r
  details := f.details
  routes := f.routes.map (Route.rename r)
  globals := f.globals.map r.name
  locals := f.locals.renameKeys r
  bindings := f.bindings.map (Binding.rename r)
  servers := f.servers.map r.name
  routers := f.routers.map r.name

namespace CallSite

theorem use_rename (arguments : List Expr) (f : Facts) :
    use (arguments.map (Expr.rename r)) (f.rename r) = (use arguments f).rename r := by
  match arguments with
  | [] => rfl
  | [a] =>
    cases a with
    | call callee _ => cases callee <;> simp [use, Expr.rename, Facts.rename]
    | function n => cases n <;> simp [use, Expr.rename, Facts.rename, r.anonymous]
    | _ => rfl
  | [a, b] =>
    cases a with
    | text path =>
        cases b with
        | call callee _ =>
            cases callee with
            | name n => simp [use, Expr.rename, Facts.rename, Assoc.extend, Assoc.alter_renameKeys]
            | _ => rfl
        | _ => rfl
    | _ => simp [use, Expr.rename]
  | _ :: _ :: _ :: _ => simp [use]

theorem listen_rename (table : BindingTable) (arguments : List Expr) (f : Facts) :
    listen (table.rename r) (arguments.map (Expr.rename r)) (f.rename r) =
      (listen table arguments f).rename r := by
  simp only [listen, List.getElem?_map, BindingTable.resolve_rename]
  cases arguments[0]? with
  | none => rfl
  | some port =>
      cases port with
      | name n =>
          simp only [Option.map_some, Expr.rename, BindingTable.lookup_rename, Option.map_map]
          rfl
      | _ => rfl

theorem names_rename (es : List Expr) :
    names (es.map (Expr.rename r)) = (names es).map r.name := by
  rw [names, names, List.filterMap_map, List.map_filterMap]
  exact List.filterMap_congr fun e _ => by cases e <;> rfl

theorem route_rename (reading : Reading) (router : Option Text) (method : Text)
    (comments : List Text) (arguments : List Expr) (f : Facts) :
    route reading (router.map r.name) method comments (arguments.map (Expr.rename r)) (f.rename r) =
      (route reading router method comments arguments f).rename r := by
  match arguments with
  | [] => rfl
  | e :: handlers =>
    cases e with
    | text path =>
        simp [route, Expr.rename, Facts.rename, Route.rename, ← List.map_dropLast, names_rename]
    | _ => rfl

theorem mount_rename (arguments : List Expr) (f : Facts) :
    mount (arguments.map (Expr.rename r)) (f.rename r) = (mount arguments f).rename r := by
  match arguments with
  | [] => rfl
  | [a] => cases a <;> rfl
  | [a, b] =>
    cases a with
    | text path =>
        cases b with
        | name target =>
            simp [mount, Expr.rename, Facts.rename, Assoc.extend, Assoc.alter_renameKeys]
        | _ => rfl
    | _ => rfl
  | _ :: _ :: _ :: _ => simp [mount]

theorem dispatch_rename (reading : Reading) (table : BindingTable) (comments : List Text)
    (name property : Text) (arguments : List Expr) (f : Facts) :
    dispatch reading (table.rename r) comments (r.name name) property
        (arguments.map (Expr.rename r)) (f.rename r) =
      (dispatch reading table comments name property arguments f).rename r := by
  have router : (if table.holds name .router then some (r.name name) else none) =
      (if table.holds name .router then some name else none).map r.name := by
    split <;> rfl
  simp only [dispatch, BindingTable.holds_rename, use_rename, listen_rename, router, route_rename,
    apply_ite (Facts.rename r)]

theorem record_rename (reading : Reading) (table : BindingTable) (comments : List Text)
    (name property : Text) (arguments : List Expr) (f : Facts) :
    record reading (table.rename r) comments (r.name name) property
        (arguments.map (Expr.rename r)) (f.rename r) =
      (record reading table comments name property arguments f).rename r := by
  simp only [record, BindingTable.holds_rename, dispatch_rename, mount_rename,
    apply_ite (Facts.rename r)]

theorem visit_rename (reading : Reading) (table : BindingTable) (comments : List Text) (e : Expr)
    (f : Facts) :
    visit reading (table.rename r) comments (e.rename r) (f.rename r) =
      (visit reading table comments e f).rename r := by
  cases e with
  | call callee arguments =>
      cases callee with
      | member object property computed =>
          cases object with
          | name n =>
              cases property with
              | none => rfl
              | some property =>
                  cases computed with
                  | true => rfl
                  | false =>
                      simp only [Expr.rename, Expr.renameAll_eq_map, visit, record_rename]
          | _ => rfl
      | _ => rfl
  | _ => rfl

end CallSite

/-! ## Renamed requests -/

/-- The request with another name. -/
def ImportRequest.rename (request : ImportRequest) : ImportRequest :=
  { request with localName := r.name request.localName }

theorem Statement.importRequest?_rename (s : Statement) :
    (s.rename r).importRequest? = s.importRequest?.map (ImportRequest.rename r) := by
  cases s with
  | expression _ _ => rfl
  | importing localName source =>
      match localName, source with
      | none, _ | some _, none => rfl
      | some n, some specifier =>
        simp only [rename, Option.map_some, importRequest?, r.name_eq_iff r.empty]
        split <;> rfl
  | declaration ds =>
      match ds with
      | [] | ⟨none, _⟩ :: _ | ⟨some _, none⟩ :: _ => rfl
      | [⟨some n, some e⟩] =>
        cases e with
        | call callee arguments =>
            cases callee with
            | name callee =>
                match arguments with
                | [] => rfl
                | e :: _ =>
                  cases e with
                  | text specifier =>
                      simp only [rename, List.map_cons, List.map_nil, Declarator.rename,
                        Option.map_some, Expr.rename, Expr.renameAll, importRequest?, ne_eq,
                        r.name_eq_iff r.empty, r.name_eq_iff r.require]
                      split <;> rfl
                  | _ => rfl
            | _ => rfl
        | _ => rfl
      | ⟨some _, some _⟩ :: _ :: _ => simp [rename, importRequest?]

theorem recordImport_rename {m : Type → Type} [Monad m] [LawfulMonad m]
    (resolve : Text → m (Option Text)) (imports : Assoc Text Text) (request : ImportRequest) :
    recordImport resolve (imports.renameKeys r) (request.rename r) =
      Assoc.renameKeys r <$> recordImport resolve imports request := by
  simp only [recordImport, map_bind]
  refine bind_congr fun answer => ?_
  cases answer with
  | none => simp
  | some path => simp [Assoc.put, Assoc.alter_renameKeys, ImportRequest.rename]

theorem recordImports_rename {m : Type → Type} [Monad m] [LawfulMonad m]
    (resolve : Text → m (Option Text)) (requests : List ImportRequest) :
    recordImports resolve (requests.map (ImportRequest.rename r)) =
      Assoc.renameKeys r <$> recordImports resolve requests := by
  have run (imports : Assoc Text Text) :
      (requests.map (ImportRequest.rename r)).foldlM (recordImport resolve) (imports.renameKeys r) =
        Assoc.renameKeys r <$> requests.foldlM (recordImport resolve) imports := by
    induction requests generalizing imports with
    | nil => simp
    | cons request rest ih =>
        rw [List.map_cons, List.foldlM_cons, List.foldlM_cons, recordImport_rename, map_bind,
          bind_map_left]
        exact bind_congr fun answer => ih answer
  exact run []

namespace Facts

/-- The progress with other names. -/
def Progress.rename (p : Progress) : Progress := ⟨p.table.rename r, p.facts.rename r⟩

/-- A renamed statement contributes the same by its other names. -/
theorem Progress.step_rename (reading : Reading) (r : Renaming reading.framework) (p : Progress)
    (s : Statement) :
    step reading (p.rename r) (s.rename r) = (step reading p s).rename r := by
  cases s with
  | declaration declarators =>
      exact congrArg (Progress.mk · _) (BindingTable.declare_rename r declarators p.table)
  | importing localName source => rfl
  | expression comments e =>
      exact congrArg (Progress.mk _) (CallSite.visit_rename r reading p.table comments e p.facts)

theorem Progress.foldl_step_rename (reading : Reading) (r : Renaming reading.framework)
    (p : Progress) (ss : List Statement) :
    (ss.map (Statement.rename r)).foldl (step reading) (p.rename r) =
      (ss.foldl (step reading) p).rename r := by
  induction ss generalizing p with
  | nil => rfl
  | cons s rest ih => rw [List.map_cons, List.foldl_cons, step_rename, ih, List.foldl_cons]

/-- The facts of renamed statements are the renamed facts. -/
theorem ofStatements_rename {m : Type → Type} [Monad m] [LawfulMonad m] (reading : Reading)
    (r : Renaming reading.framework) (resolve : Text → m (Option Text)) (file : Text)
    (ss : List Statement) :
    ofStatements reading resolve file (ss.map (Statement.rename r)) =
      rename r <$> ofStatements reading resolve file ss := by
  have run := Progress.foldl_step_rename reading r ⟨.empty, .empty file⟩ ss
  have start : Progress.rename r ⟨.empty, .empty file⟩ = ⟨.empty, .empty file⟩ := rfl
  have requests : (ss.map (Statement.rename r)).filterMap Statement.importRequest? =
      (ss.filterMap Statement.importRequest?).map (ImportRequest.rename r) := by
    rw [List.filterMap_map, List.map_filterMap]
    exact List.filterMap_congr fun s _ => s.importRequest?_rename r
  rw [start] at run
  simp only [ofStatements, run, requests, recordImports_rename, map_bind, map_pure, bind_map_left]
  rfl

/-- Exchanges the names of a server and of a module. -/
def exchange : Renaming ⟨"express", "Router"⟩ where
  name := Equiv.swap ("app" : Text) "users"
  functionName := id
  injective := (Equiv.swap _ _).injective
  process := by decide
  require := by decide
  factory := by decide
  anonymous := by decide
  empty := by decide

/-- A server with a module at a path, that is also middleware. -/
def mountingStatements : List Statement := [
  .declaration [⟨some "app", some (.call (.name "express") [])⟩],
  .declaration [⟨some "users", some (.call (.name "require") [.text "./users"])⟩],
  .expression [] (.call (.member (.name "app") (some "use") false) [.text "/u", .name "users"]),
  .expression [] (.call (.member (.name "app") (some "get") false)
    [.text "/app", .name "users", .function none])]

/-- The facts of such statements, where every request is answered by itself. -/
def ofMounting (ss : List Statement) : Facts :=
  ofStatements (m := Id) ⟨⟨"express", "Router"⟩, "@desc", true⟩ some "/p/app.js" ss

/-- The two names change places in the facts, but not in the path of the route. -/
theorem ofStatements_exchange :
    ofMounting (mountingStatements.map (Statement.rename exchange)) =
        (ofMounting mountingStatements).rename exchange ∧
      ((ofMounting mountingStatements).rename exchange).imports =
        ([("app", "./users")] : Assoc Text Text) ∧
      ((ofMounting mountingStatements).rename exchange).mounts =
        ([("app", ["/u"])] : Assoc Text (List Text)) ∧
      ((ofMounting mountingStatements).rename exchange).servers = [("users" : Text)] ∧
      ((ofMounting mountingStatements).rename exchange).routes =
        [⟨"/app", "get", none, "/p/app.js", ["app"], none⟩] := by
  have renamed := ofStatements_rename (m := Id) ⟨⟨"express", "Router"⟩, "@desc", true⟩ exchange some
    "/p/app.js" mountingStatements
  exact ⟨renamed, by decide, by decide, by decide, by decide⟩

end Facts

end RouteAtlas
