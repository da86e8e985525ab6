import RouteAtlas.Assoc
import RouteAtlas.Binding

/-!
# Facts about a file

What reading one source file yields: its imports and mounts, its routes, its middlewares, and the
details of its server.
-/

namespace RouteAtlas

/-- One route, declared on a server or on a router; only a router is named. -/
structure Route where
  path : Text
  method : Text
  router : Option Text
  source : Text
  middleware : List Text
  description : Option Text
deriving DecidableEq

/-- The details of a server that a `listen` call can give. -/
inductive Detail
  | portNumber
  | isPortEnv
  | host
  | backlog
deriving DecidableEq

/-- The facts of one file. -/
structure Facts where
  file : Text
  imports : Assoc Text Text
  mounts : Assoc Text (List Text)
  details : Assoc Detail Value
  routes : List Route
  globals : List Text
  locals : Assoc Text (List Text)
  bindings : List Binding
  servers : List Text
  routers : List Text

/-- A file about which nothing is known yet. -/
def Facts.empty (file : Text) : Facts := ⟨file, [], [], [], [], [], [], [], [], []⟩

end RouteAtlas
