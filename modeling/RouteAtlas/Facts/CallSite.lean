import RouteAtlas.Facts
import RouteAtlas.Text.Blank

/-!
# Call sites

A statement `name.property(arguments)` on a name with a role can state one fact. Servers are told
what to `use` and where to `listen`; servers and routers declare routes by HTTP method; either may
mount a name at a path. Every other shape states nothing.
-/

namespace RouteAtlas

/-- What call sites are read with. -/
structure Reading where
  framework : Framework
  marker : Text
  mounts : Bool

namespace CallSite

/-- The methods that declare a route. -/
def methods : List Text := ["get", "post", "put", "patch", "delete"]

/-- The name given to a function without a name that is used as middleware. -/
def anonymous : Text := "Anonymous Middleware"

/-- The first comment with the marker, without it and without surrounding blanks. -/
def describe (marker : Text) (comments : List Text) : Option Text :=
  (comments.find? (Text.hasPart marker)).map fun c => (Text.dropFirst marker c).strip

/-- Middleware for every path is one call of a named factory, or one unnamed function; middleware
for a path is a path and a call of a named factory. -/
def use (arguments : List Expr) (f : Facts) : Facts :=
  match arguments with
  | [.call (.name factory) _] => { f with globals := f.globals ++ [factory] }
  | [.function none] => { f with globals := f.globals ++ [anonymous] }
  | [.text path, .call (.name factory) _] =>
    { f with locals := f.locals.extend factory [path] }
  | _ => f

/-- A server's details are the values of up to three arguments. -/
def listen (table : BindingTable) (arguments : List Expr) (f : Facts) : Facts :=
  let port := arguments[0]?
  let isPortEnv :=
    match port with
    | some (.name n) => ((table.lookup n).map (·.isEnvDefault)).getD false
    | _ => false
  let details := [
    (Detail.portNumber, table.resolve port),
    (Detail.isPortEnv, .bool isPortEnv),
    (Detail.host, table.resolve arguments[1]?),
    (Detail.backlog, table.resolve arguments[2]?)]
  { f with details := f.details.putAll details }

/-- The names among expressions. -/
def names (es : List Expr) : List Text :=
  es.filterMap fun
    | .name n => some n
    | _ => none

/-- A route is a path and its handlers; names between the path and the last handler are its
middleware. -/
def route (reading : Reading) (router : Option Text) (method : Text) (comments : List Text)
    (arguments : List Expr) (f : Facts) : Facts :=
  match arguments with
  | .text path :: handlers =>
    let new : Route :=
      ⟨path, method, router, f.file, names handlers.dropLast, describe reading.marker comments⟩
    { f with routes := f.routes ++ [new] }
  | _ => f

/-- A mount is a path and a name. -/
def mount (arguments : List Expr) (f : Facts) : Facts :=
  match arguments with
  | [.text path, .name target] => { f with mounts := f.mounts.extend target [path] }
  | _ => f

/-- What a property of a name with a role states by itself, mounts aside. -/
def dispatch (reading : Reading) (table : BindingTable) (comments : List Text)
    (name property : Text) (arguments : List Expr) (f : Facts) : Facts :=
  let isServer := table.holds name .server
  if isServer && property = "use" then use arguments f
  else if isServer && property = "listen" then listen table arguments f
  else if methods.contains property then
    let router := if table.holds name .router then some name else none
    route reading router property comments arguments f
  else f

/-- The facts that a call of `property` on `name` states. -/
def record (reading : Reading) (table : BindingTable) (comments : List Text) (name property : Text)
    (arguments : List Expr) (f : Facts) : Facts :=
  if !table.holds name .server && !table.holds name .router then f
  else
    let f := dispatch reading table comments name property arguments f
    if reading.mounts && property = "use" then mount arguments f else f

/-- The facts after an expression statement. -/
def visit (reading : Reading) (table : BindingTable) (comments : List Text) (e : Expr) (f : Facts) :
    Facts :=
  match e with
  | .call (.member (.name name) (some property) false) arguments =>
    record reading table comments name property arguments f
  | _ => f

end CallSite

end RouteAtlas
