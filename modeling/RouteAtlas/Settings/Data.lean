import RouteAtlas.Json
import RouteAtlas.Value

/-!
# Settings data

What a settings file holds, before anything is known about its keys. Keys may be of any type, and
of two entries with one key the later counts.
-/

namespace RouteAtlas

/-- The content of a settings file. -/
inductive Data
  | value (v : Value)
  | bytes (bs : List UInt8)
  | moment
  | list (items : List Data)
  | set
  | mapping (entries : List (Data × Data))

namespace Data

/-- The value that does not matter. -/
def null : Data := .value .null

/-- A text that is this one. -/
def isText (t : Text) : Data → Bool
  | .value (.text u) => t == u
  | _ => false

/-- The entries of a mapping; nothing else has any. -/
def entries : Data → List (Data × Data)
  | .mapping es => es
  | _ => []

/-- What stands behind a key. -/
def get? (d : Data) (key : Text) : Option Data :=
  (d.entries.reverse.find? fun e => isText key e.1).map Prod.snd

mutual

/-- The same content as JSON. -/
def ofJson : Json → Data
  | .null => null
  | .bool b => .value (.bool b)
  | .int n => .value (.int n)
  | .real x => .value (.real x)
  | .text t => .value (.text t)
  | .array es => .list (ofElements es)
  | .object ms => .mapping (ofMembers ms)

/-- The same elements as JSON. -/
def ofElements : List Json → List Data
  | [] => []
  | e :: es => ofJson e :: ofElements es

/-- The same members as JSON. -/
def ofMembers : List (Text × Json) → List (Data × Data)
  | [] => []
  | (k, v) :: ms => (.value (.text k), ofJson v) :: ofMembers ms

end

end Data

end RouteAtlas
