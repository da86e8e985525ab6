import RouteAtlas.Text

/-!
# Paths

A path is a root and the names below it. Reading a path text drops empty names and single dots;
two dots stay, since what they mean depends on links. A root of exactly two slashes is kept apart
from a root of one.

A place is a chain of names from the top of the file tree, innermost first. Following two dots from
a place goes to the enclosing place, and the top encloses itself.
-/

namespace RouteAtlas

/-- The slash between names. -/
def slash : CodePoint := CodePoint.ofChar '/'

/-- A chain of names from the top of the file tree, innermost first. -/
abbrev Place := List Text

namespace Place

/-- Follows one name, as far as it can be followed without looking at any file. -/
def step (here : Place) (name : Text) : Place :=
  if name = [] ∨ name = Text.ofString "." then here
  else if name = Text.ofString ".." then here.tail
  else name :: here

/-- Follows names from a place. -/
def walk (here : Place) (names : List Text) : Place := names.foldl step here

/-- The names of a place, outermost first, each behind a slash. -/
def below (p : Place) : Text := p.reverse.flatMap (slash :: ·)

/-- The text of a place. -/
def toText (p : Place) : Text := if p.isEmpty then [slash] else p.below

end Place

/-- A path text, taken apart: a root of no, one or two slashes, and names. -/
structure Path where
  root : Text
  names : List Text
deriving DecidableEq

namespace Path

/-- The root of a path text: slashes at its front count as one, unless there are exactly two. -/
def rootOf (t : Text) : Text :=
  match (t.takeWhile (· = slash)).length with
  | 0 => []
  | 2 => [slash, slash]
  | _ => [slash]

/-- Takes a path text apart. -/
def ofText (t : Text) : Path where
  root := rootOf t
  names := (Text.splitAt slash t).filter fun n => n ≠ [] ∧ n ≠ Text.ofString "."

/-- The text of a path; without root and names it is a dot. -/
def toText (p : Path) : Text :=
  if p.root = [] ∧ p.names = [] then "." else p.root ++ Text.join [slash] p.names

/-- The path begins at the top of the file tree. -/
def isAbsolute (p : Path) : Bool := !p.root.isEmpty

/-- Appends a path; one that begins at the top replaces everything before it. -/
def append (p q : Path) : Path := if q.isAbsolute then q else ⟨p.root, p.names ++ q.names⟩

instance : Append Path := ⟨append⟩

/-- The path without its last name. -/
def parent (p : Path) : Path := ⟨p.root, p.names.dropLast⟩

/-- The end of a name from its last dot on, unless the dot comes first or last. -/
def extensionOf (name : Text) : Text :=
  let tail := (name.reverse.takeWhile (· ≠ CodePoint.ofChar '.')).reverse
  if tail = [] ∨ name.length ≤ tail.length + 1 then [] else CodePoint.ofChar '.' :: tail

/-- The text of a place below a given root, as the text of a path. -/
def textBelow (root : Text) (p : Place) : Text := root ++ Text.join [slash] p.reverse

end Path

end RouteAtlas
