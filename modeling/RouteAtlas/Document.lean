import RouteAtlas.Facts

/-!
# Documents

A document describes the interface of a whole source tree: how its server starts, its routes, and
the middlewares around them.
-/

namespace RouteAtlas

/-- How a server starts. -/
structure ServerDetails where
  portNumber : Value
  isPortEnv : Value
  host : Value
  backlog : Value
deriving DecidableEq

namespace ServerDetails

/-- The details of a server that never listens. -/
def unknown : ServerDetails := ⟨.null, .bool false, .null, .null⟩

/-- Changes one detail. -/
def set (d : ServerDetails) (value : Value) : Detail → ServerDetails
  | .portNumber => { d with portNumber := value }
  | .isPortEnv => { d with isPortEnv := value }
  | .host => { d with host := value }
  | .backlog => { d with backlog := value }

/-- The value of one detail. -/
def get (d : ServerDetails) : Detail → Value
  | .portNumber => d.portNumber
  | .isPortEnv => d.isPortEnv
  | .host => d.host
  | .backlog => d.backlog

@[simp]
theorem get_set (d : ServerDetails) (value : Value) (k l : Detail) :
    (d.set value k).get l = if k = l then value else d.get l := by
  cases k <;> cases l <;> rfl

end ServerDetails

/-- The description of a source tree's interface. -/
structure Document where
  server : ServerDetails
  routes : List Route
  globals : List Text
  locals : Assoc Text (List Text)

end RouteAtlas
