import RouteAtlas.Code

/-!
# Bindings

The table of one file's variable declarations, in order. A name is looked up in what has been
declared so far, and its first declaration decides its value. A name may also carry roles: some
declaration of it was initialised by the application factory or by the router factory.
-/

namespace RouteAtlas

/-- The names of the two factories to recognise. -/
structure Framework where
  factory : Text
  routerFactory : Text

/-- What a declared name may be used as. -/
inductive Role
  | server
  | router
deriving DecidableEq

/-- A declared name and the literal value of its initializer, if that is one. -/
structure Binding where
  name : Text
  value : Value
  isEnvDefault : Bool
deriving DecidableEq

namespace Expr

/-- A property of `process.env`, by name or by subscript. -/
def isEnvLookup : Expr → Bool
  | .member (.member (.name object) (some property) false) _ _ =>
    object = "process" && property = "env"
  | _ => false

/-- The literal that stands in for a missing environment variable. -/
def envDefault? : Expr → Option Value
  | .either left right =>
    match left.isEnvLookup, right.isEnvLookup with
    | true, false => right.value?
    | false, true => left.value?
    | _, _ => none
  | _ => none

/-- The role that an initializer gives to its name. -/
def role? (framework : Framework) : Expr → Option Role
  | .call (.name callee) _ => if callee = framework.factory then some .server else none
  | .call (.member (.name object) property false) _ =>
    if object = framework.factory ∧ property = some framework.routerFactory then some .router
    else none
  | _ => none

end Expr

/-- The binding that a declaration makes: only a single declarator with a name makes one. -/
def Binding.ofDeclarators? : List Declarator → Option Binding
  | [⟨some name, init⟩] =>
    some <|
      match init.bind Expr.envDefault? with
      | some value => ⟨name, value, true⟩
      | none => ⟨name, (init.bind Expr.value?).getD .null, false⟩
  | _ => none

/-- The bindings of a file so far, and the names that hold a role. -/
structure BindingTable where
  bindings : List Binding
  servers : List Text
  routers : List Text

namespace BindingTable

/-- The table before any declaration. -/
def empty : BindingTable := ⟨[], [], []⟩

/-- Adds a name to a list of names unless it is there. -/
def addName (name : Text) (names : List Text) : List Text :=
  if name ∈ names then names else names ++ [name]

theorem mem_addName (n name : Text) (names : List Text) :
    n ∈ addName name names ↔ n ∈ names ∨ n = name := by
  unfold addName
  split
  · next old => exact ⟨.inl, fun h => h.elim id fun same => same ▸ old⟩
  · simp

/-- Gives a name a role. -/
def assign (name : Text) : Option Role → BindingTable → BindingTable
  | none, t => t
  | some .server, t => { t with servers := addName name t.servers }
  | some .router, t => { t with routers := addName name t.routers }

/-- Enters a declaration. -/
def declare (framework : Framework) (declarators : List Declarator) (t : BindingTable) :
    BindingTable :=
  match Binding.ofDeclarators? declarators with
  | none => t
  | some b =>
    let role := (declarators.head?.bind (·.init)).bind (Expr.role? framework)
    assign b.name role { t with bindings := t.bindings ++ [b] }

/-- The first binding of a name. -/
def lookup (t : BindingTable) (name : Text) : Option Binding :=
  t.bindings.find? (·.name == name)

/-- The value of an argument: that of a literal, or of a name that is bound to one. -/
def resolve (t : BindingTable) : Option Expr → Value
  | some (.name n) => ((t.lookup n).map (·.value)).getD .null
  | some e => e.value?.getD .null
  | none => .null

/-- The name holds a role. -/
def holds (t : BindingTable) (name : Text) : Role → Bool
  | .server => t.servers.contains name
  | .router => t.routers.contains name

end BindingTable

end RouteAtlas
