import RouteAtlas.Facts.Reading

/-!
# One call, one fact

A call site states one fact or none. The facts it can state are listed here, and with each of them
the shape of the calls that state it. No call has two shapes, although servers and routers share
properties and one name may hold both roles. So a visit adds the fact of the call's shape to one
component of the facts, or it leaves all of them as they are.
-/

namespace RouteAtlas

/-- A fact that a call can state about its file. -/
inductive Fact
  | middleware (name : Text)
  | middlewareAt (path name : Text)
  | details (portNumber : Value) (isPortEnv : Bool) (host backlog : Value)
  | route (path method : Text) (router : Option Text) (middleware : List Text)
    (description : Option Text)
  | mount (path target : Text)

/-- Adds a fact. Details take the place of earlier details; every other fact comes last in the
list that it belongs to. -/
def Facts.add (f : Facts) : Fact → Facts
  | .middleware name => { f with globals := f.globals ++ [name] }
  | .middlewareAt path name => { f with locals := f.locals.extend name [path] }
  | .details portNumber isPortEnv host backlog =>
    let details := [
      (Detail.portNumber, portNumber), (Detail.isPortEnv, .bool isPortEnv), (Detail.host, host),
      (Detail.backlog, backlog)]
    { f with details := f.details.putAll details }
  | .route path method router middleware description =>
    { f with routes := f.routes ++ [⟨path, method, router, f.file, middleware, description⟩] }
  | .mount path target => { f with mounts := f.mounts.extend target [path] }

/-- The argument is a name that is bound to a default for the environment. -/
def BindingTable.isEnvDefault (t : BindingTable) : Option Expr → Bool
  | some (.name n) => ((t.lookup n).map (·.isEnvDefault)).getD false
  | _ => false

namespace CallSite

/-! ## Shapes -/

/-- What a server is told to `use`: the call of a named factory, an unnamed function, or a path and
the call of a named factory. -/
inductive Uses : List Expr → Fact → Prop
  | factory (name : Text) (inner : List Expr) : Uses [.call (.name name) inner] (.middleware name)
  | function : Uses [.function none] (.middleware "Anonymous Middleware")
  | factoryAt (path name : Text) (inner : List Expr) :
    Uses [.text path, .call (.name name) inner] (.middlewareAt path name)

/-- A path and a name. -/
inductive Mounts : List Expr → Fact → Prop
  | name (path target : Text) : Mounts [.text path, .name target] (.mount path target)

section Shapes

variable (reading : Reading) (t : BindingTable) (comments : List Text)

/-- What a call `name.property(arguments)` states. -/
inductive CallStates (name property : Text) (arguments : List Expr) : Fact → Prop
  | use {fact : Fact} (server : name ∈ t.servers) (property_eq : property = "use")
    (shape : Uses arguments fact) : CallStates name property arguments fact
  | listen (server : name ∈ t.servers) (property_eq : property = "listen") :
    CallStates name property arguments
      (.details (t.resolve arguments[0]?) (t.isEnvDefault arguments[0]?) (t.resolve arguments[1]?)
        (t.resolve arguments[2]?))
  | route {path : Text} {handlers : List Expr} (role : name ∈ t.servers ∨ name ∈ t.routers)
    (method : property ∈ methods) (arguments_eq : arguments = .text path :: handlers) :
    CallStates name property arguments
      (.route path property (if name ∈ t.routers then some name else none)
        (names handlers.dropLast) (describe reading.marker comments))
  | mount {fact : Fact} (role : name ∈ t.servers ∨ name ∈ t.routers)
    (property_eq : property = "use") (enabled : reading.mounts = true)
    (shape : Mounts arguments fact) :
    CallStates name property arguments fact

/-- What an expression statement states: only the call of a property, by name, of a name states
anything. -/
inductive States : Expr → Fact → Prop
  | call {name property : Text} {arguments : List Expr} {fact : Fact}
    (h : CallStates reading t comments name property arguments fact) :
    States (.call (.member (.name name) (some property) false) arguments) fact

end Shapes

/-- The second facts are the first ones with the one fact of a shape, or the first ones themselves
if nothing has the shape. -/
def Records (shape : Fact → Prop) (f g : Facts) : Prop :=
  (∃ fact, (∀ other, shape other ↔ other = fact) ∧ g = f.add fact) ∨
    (∀ fact, ¬shape fact) ∧ g = f

namespace Records

variable {shape other : Fact → Prop} {f g h : Facts}

theorem nothing (none : ∀ fact, ¬shape fact) : Records shape f f :=
  .inr ⟨none, rfl⟩

theorem congr (recorded : Records shape f g) (same : ∀ fact, other fact ↔ shape fact) :
    Records other f g := by
  obtain ⟨fact, only, rfl⟩ | ⟨none, rfl⟩ := recorded
  · exact .inl ⟨fact, fun x => (same x).trans (only x), rfl⟩
  · exact .inr ⟨fun fact stated => none fact ((same fact).mp stated), rfl⟩

/-- What is done under a condition records what has the shape under that condition. -/
theorem ite (recorded : Records shape f g) (c : Prop) [Decidable c] :
    Records (fun fact => c ∧ shape fact) f (if c then g else f) := by
  by_cases holds : c
  · rw [if_pos holds]
    exact recorded.congr fun fact => and_iff_right holds
  · rw [if_neg holds]
    exact nothing fun fact stated => holds stated.1

/-- Of two shapes that exclude each other one is recorded at most. -/
theorem andThen (first : Records shape f g) (second : Records other g h)
    (exclusive : ∀ x y, shape x → ¬other y) :
    Records (fun fact => shape fact ∨ other fact) f h := by
  obtain ⟨fact, only, added⟩ | ⟨none, rfl⟩ := first
  · have last (y : Fact) : ¬other y := exclusive fact y ((only fact).mpr rfl)
    obtain ⟨y, stated, -⟩ | ⟨-, rfl⟩ := second
    · exact absurd ((stated y).mpr rfl) (last y)
    · exact .inl ⟨fact, fun x => (or_iff_left (last x)).trans (only x), added⟩
  · exact second.congr fun fact => or_iff_right (none fact)

end Records

/-! ## What each kind of call records -/

theorem records_use (arguments : List Expr) (f : Facts) :
    Records (Uses arguments) f (use arguments f) := by
  unfold use
  split
  · next name inner =>
      refine .inl ⟨.middleware name, ?_, rfl⟩
      exact fun other => ⟨by rintro ⟨⟩; rfl, by rintro rfl; exact .factory name inner⟩
  · refine .inl ⟨.middleware anonymous, ?_, rfl⟩
    exact fun other => ⟨by rintro ⟨⟩; rfl, by rintro rfl; exact .function⟩
  · next path name inner =>
      refine .inl ⟨.middlewareAt path name, ?_, rfl⟩
      exact fun other => ⟨by rintro ⟨⟩; rfl, by rintro rfl; exact .factoryAt path name inner⟩
  · next factory function factoryAt =>
      apply Records.nothing
      rintro _ (⟨name, inner⟩ | _ | ⟨path, name, inner⟩)
      · exact factory name inner rfl
      · exact function rfl
      · exact factoryAt path name inner rfl

theorem records_mount (arguments : List Expr) (f : Facts) :
    Records (Mounts arguments) f (mount arguments f) := by
  unfold mount
  split
  · next path target =>
      refine .inl ⟨.mount path target, ?_, rfl⟩
      exact fun other => ⟨by rintro ⟨⟩; rfl, by rintro rfl; exact .name path target⟩
  · next other =>
      apply Records.nothing
      rintro _ ⟨path, target⟩
      exact other path target rfl

/-- A path and a name are not what a server uses. -/
theorem Uses.not_mounts {arguments : List Expr} {fact : Fact} (h : Uses arguments fact)
    (other : Fact) : ¬Mounts arguments other := by
  rintro ⟨path, target⟩
  cases h

section Visits

variable (reading : Reading) (t : BindingTable) (comments : List Text)

theorem records_listen (arguments : List Expr) (f : Facts) :
    Records (· = .details (t.resolve arguments[0]?) (t.isEnvDefault arguments[0]?)
      (t.resolve arguments[1]?) (t.resolve arguments[2]?)) f (listen t arguments f) :=
  .inl ⟨_, fun _ => Iff.rfl, rfl⟩

theorem records_route (router : Option Text) (method : Text) (arguments : List Expr) (f : Facts) :
    Records (fun fact => ∃ path handlers, arguments = .text path :: handlers ∧
        fact = .route path method router (names handlers.dropLast)
          (describe reading.marker comments))
      f (route reading router method comments arguments f) := by
  unfold route
  split
  · next path handlers =>
      refine .inl ⟨.route path method router (names handlers.dropLast)
        (describe reading.marker comments), fun other => ⟨?_, ?_⟩, rfl⟩
      · rintro ⟨_, _, same, rfl⟩
        obtain ⟨samePath, rfl⟩ := List.cons.inj same
        obtain rfl := Expr.text.inj samePath
        rfl
      · rintro rfl
        exact ⟨path, handlers, rfl, rfl⟩
  · next other =>
      apply Records.nothing
      rintro _ ⟨path, handlers, rfl, -⟩
      exact other path handlers rfl

section OneName

variable {name : Text} (arguments : List Expr) (f : Facts)

theorem not_held_iff :
    (!t.holds name .server && !t.holds name .router) = true ↔
      ¬(name ∈ t.servers ∨ name ∈ t.routers) := by
  simp [BindingTable.holds, not_or]

/-- A server is told what to use before a mount is looked for. -/
theorem records_record_use (role : name ∈ t.servers ∨ name ∈ t.routers) :
    Records (CallStates reading t comments name "use" arguments) f
      (record reading t comments name "use" arguments f) := by
  have notListen : ("use" : Text) ≠ "listen" := by decide
  have notMethod : ("use" : Text) ∉ methods := by decide
  have dispatched : dispatch reading t comments name "use" arguments f =
      if name ∈ t.servers then use arguments f else f := by
    simp [dispatch, BindingTable.holds, notListen, notMethod]
  have recorded : record reading t comments name "use" arguments f =
      if reading.mounts = true then
        mount arguments (dispatch reading t comments name "use" arguments f)
      else dispatch reading t comments name "use" arguments f := by
    rw [record, if_neg (mt (not_held_iff t).mp (not_not_intro role))]
    simp
  rw [recorded, dispatched]
  have used := (records_use arguments f).ite (name ∈ t.servers)
  have mounted := (records_mount arguments (if name ∈ t.servers then use arguments f else f)).ite
    (reading.mounts = true)
  apply (used.andThen mounted fun x y h k => h.2.not_mounts y k.2).congr
  intro fact
  constructor
  · rintro (⟨server, -, shape⟩ | ⟨-, other⟩ | ⟨-, method, -⟩ | ⟨-, -, enabled, shape⟩)
    · exact .inl ⟨server, shape⟩
    · exact absurd other notListen
    · exact absurd method notMethod
    · exact .inr ⟨enabled, shape⟩
  · rintro (⟨server, shape⟩ | ⟨enabled, shape⟩)
    · exact .use server rfl shape
    · exact .mount role rfl enabled shape

/-- Properties other than `use` mount nothing. -/
theorem record_of_ne {property : Text} (role : name ∈ t.servers ∨ name ∈ t.routers)
    (notUse : property ≠ "use") :
    record reading t comments name property arguments f =
      dispatch reading t comments name property arguments f := by
  rw [record, if_neg (mt (not_held_iff t).mp (not_not_intro role))]
  simp [notUse]

theorem records_record_listen (role : name ∈ t.servers ∨ name ∈ t.routers) :
    Records (CallStates reading t comments name "listen" arguments) f
      (record reading t comments name "listen" arguments f) := by
  have notUse : ("listen" : Text) ≠ "use" := by decide
  have notMethod : ("listen" : Text) ∉ methods := by decide
  have dispatched : dispatch reading t comments name "listen" arguments f =
      if name ∈ t.servers then listen t arguments f else f := by
    simp [dispatch, BindingTable.holds, notUse, notMethod]
  rw [record_of_ne reading t comments arguments f role notUse, dispatched]
  apply ((records_listen t arguments f).ite (name ∈ t.servers)).congr
  intro fact
  constructor
  · rintro (⟨-, other, -⟩ | ⟨server, -⟩ | ⟨-, method, -⟩ | ⟨-, other, -⟩)
    · exact absurd other notUse
    · exact ⟨server, rfl⟩
    · exact absurd method notMethod
    · exact absurd other notUse
  · rintro ⟨server, rfl⟩
    exact .listen server rfl

/-- All that is left are the methods, on servers and on routers alike. -/
theorem records_record_of_ne {property : Text} (role : name ∈ t.servers ∨ name ∈ t.routers)
    (notUse : property ≠ "use") (notListen : property ≠ "listen") :
    Records (CallStates reading t comments name property arguments) f
      (record reading t comments name property arguments f) := by
  have dispatched : dispatch reading t comments name property arguments f =
      if property ∈ methods then
        route reading (if name ∈ t.routers then some name else none) property comments arguments f
      else f := by
    simp [dispatch, BindingTable.holds, notUse, notListen]
  rw [record_of_ne reading t comments arguments f role notUse, dispatched]
  apply ((records_route reading comments _ property arguments f).ite (property ∈ methods)).congr
  intro fact
  constructor
  · rintro (⟨-, other, -⟩ | ⟨-, other⟩ | ⟨-, method, shape⟩ | ⟨-, other, -⟩)
    · exact absurd other notUse
    · exact absurd other notListen
    · exact ⟨method, _, _, shape, rfl⟩
    · exact absurd other notUse
  · rintro ⟨method, path, handlers, shape, rfl⟩
    exact .route role method shape

end OneName

/-- A call of a property of a name records the fact of its shape. -/
theorem records_record (name property : Text) (arguments : List Expr) (f : Facts) :
    Records (CallStates reading t comments name property arguments) f
      (record reading t comments name property arguments f) := by
  by_cases role : name ∈ t.servers ∨ name ∈ t.routers
  · by_cases isUse : property = "use"
    · subst isUse
      exact records_record_use reading t comments arguments f role
    by_cases isListen : property = "listen"
    · subst isListen
      exact records_record_listen reading t comments arguments f role
    · exact records_record_of_ne reading t comments arguments f role isUse isListen
  · rw [record, if_pos ((not_held_iff t).mpr role)]
    apply Records.nothing
    rintro _ (⟨server, -, -⟩ | ⟨server, -⟩ | ⟨held, -, -⟩ | ⟨held, -, -, -⟩)
    · exact role (.inl server)
    · exact role (.inl server)
    · exact role held
    · exact role held

theorem records_visit (e : Expr) (f : Facts) :
    Records (States reading t comments e) f (visit reading t comments e f) := by
  unfold visit
  split
  · next name property arguments =>
      apply (records_record reading t comments name property arguments f).congr
      exact fun fact => ⟨fun ⟨h⟩ => h, .call⟩
  · next other =>
      apply Records.nothing
      rintro _ ⟨h⟩
      exact other _ _ _ rfl

variable {reading t comments} {e : Expr}

theorem visit_of_states {fact : Fact} (h : States reading t comments e fact) (f : Facts) :
    visit reading t comments e f = f.add fact := by
  obtain ⟨only, isOnly, added⟩ | ⟨none, -⟩ := records_visit reading t comments e f
  · rw [added, (isOnly fact).mp h]
  · exact absurd h (none fact)

variable (reading t comments e)

/-- All that a visit can do: it adds a fact that the expression states, or nothing. -/
theorem visit_cases (f : Facts) :
    (∃ fact, States reading t comments e fact ∧ visit reading t comments e f = f.add fact) ∨
      visit reading t comments e f = f := by
  obtain ⟨fact, only, added⟩ | ⟨-, same⟩ := records_visit reading t comments e f
  · exact .inl ⟨fact, (only fact).mpr rfl, added⟩
  · exact .inr same

end Visits

end CallSite

/-- Added to no facts, different facts show. -/
theorem Facts.add_empty_inj {file : Text} {a b : Fact}
    (h : (Facts.empty file).add a = (Facts.empty file).add b) : a = b := by
  cases a <;> cases b <;>
    simp_all [add, empty, Assoc.extend, Assoc.alter, Assoc.putAll, Assoc.put]

theorem Facts.add_empty_ne (file : Text) (a : Fact) :
    (Facts.empty file).add a ≠ Facts.empty file := by
  cases a <;> simp [add, empty, Assoc.extend, Assoc.alter, Assoc.putAll, Assoc.put]

/-- An expression statement leaves the bindings and the roles as they are, and adds the one fact
that it states to the facts; if it states none, the facts stay too. What it states is the fact of
its shape: it adds a fact to any facts there may be exactly when it has the shape of that fact. -/
theorem Facts.Progress.step_states (reading : Reading) (p : Progress) (comments : List Text)
    (e : Expr) :
    let q := step reading p (.expression comments e)
    let states := CallSite.States reading p.table comments e
    q.table = p.table ∧
      ((∃ fact, (∀ other, states other ↔ other = fact) ∧ q.facts = p.facts.add fact) ∨
        (∀ fact, ¬states fact) ∧ q.facts = p.facts) ∧
      ∀ fact, states fact ↔
        ∀ f, (step reading ⟨p.table, f⟩ (.expression comments e)).facts = f.add fact := by
  intro q states
  have records (f : Facts) := CallSite.records_visit reading p.table comments e f
  refine ⟨rfl, records p.facts, ?_⟩
  intro fact
  constructor
  · intro stated f
    obtain ⟨only, isOnly, added⟩ | ⟨none, -⟩ := records f
    · obtain rfl := (isOnly fact).mp stated
      exact added
    · exact absurd stated (none fact)
  · intro added
    have shown := added (.empty [])
    obtain ⟨only, isOnly, alone⟩ | ⟨-, same⟩ := records (.empty [])
    · obtain rfl := add_empty_inj (alone.symm.trans shown)
      exact (isOnly only).mpr rfl
    · exact absurd (shown.symm.trans same) (add_empty_ne [] fact)

end RouteAtlas
