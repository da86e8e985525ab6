import RouteAtlas.Value

/-!
# JSON values

Integers and other numbers are kept apart, and an object keeps the order of its members.
-/

namespace RouteAtlas

/-- A JSON value. -/
inductive Json
  | null
  | bool (b : Bool)
  | int (n : Int)
  | real (x : Binary64)
  | text (t : Text)
  | array (elements : List Json)
  | object (members : List (Text × Json))

/-- The JSON form of a literal's value. -/
def Json.ofValue : Value → Json
  | .null => .null
  | .bool b => .bool b
  | .int n => .int n
  | .real x => .real x
  | .text t => .text t

end RouteAtlas
