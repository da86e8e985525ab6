import RouteAtlas.Number.Numeral
import RouteAtlas.Number.Shortest

/-!
# Literal values

A value is what a literal in a script or in a settings file stands for. Its text is what a page
shows for it; an integer of too many digits has no text.
-/

namespace RouteAtlas

/-- The value of a literal. -/
inductive Value
  | null
  | bool (b : Bool)
  | int (n : Int)
  | real (x : Binary64)
  | text (t : Text)
deriving DecidableEq

namespace Value

/-- A value counts as present unless it is null, false, zero or the empty text. -/
def isPresent : Value → Bool
  | null => false
  | bool b => b
  | int n => n != 0
  | real x => x.isNonzero
  | text t => !t.isEmpty

/-- The text of a value; `none` for an integer beyond the digit limit. -/
def toText? : Value → Option Text
  | null => some "None"
  | bool true => some "True"
  | bool false => some "False"
  | int n => Numeral.decimal? n
  | real x => some x.toText
  | text t => some t

end Value

end RouteAtlas
