import RouteAtlas.Script.Statement

/-!
# Scripts

The tree of a script. Comments are put into the tree last: a comment belongs to the innermost node
that has tokens on both sides of it. A script that cannot be read has a tree without statements.
-/

namespace RouteAtlas.Script

/-- Reads a part of a script whose parts are nested at most `depth` deep. -/
def part : (depth : Nat) → Goal → Parse Tree
  | 0, _ => Parse.fail
  | depth + 1, goal =>
    let sub := part depth
    match goal with
    | .statement => Parse.statement sub
    | .assignment allowIn allowResult => Parse.assignment sub allowIn allowResult
    | .unary => Parse.unary sub
    | .operand => Parse.operand sub
    | .creation => Parse.made sub
    | .object => Parse.object sub
    | .element => Parse.element sub

/-- The position of the first statement: behind a byte order mark and a line that names the
interpreter. -/
def beginning (s : Source) : List Tree × Nat :=
  let p := if s.charAt 0 = '\uFEFF' then 1 else 0
  if s.hasAt p "#!" then
    let q := s.skipWhile (· != '\n') p
    ([leaf "hash_bang_line" p q], q)
  else ([], p)

/-- The statements of a script, if all of it can be read. -/
def statements? (s : Source) : Option (List Tree) :=
  let (head, p) := beginning s
  match Parse.many (part (4 * s.size + 8) .statement) s p with
  | some (found, q) => if s.isEnd (s.skipTrivia q) then some (head ++ found) else none
  | none => none

/-- The comments between two positions, as nodes. -/
def commentsOf (s : Source) (p q : Nat) : List Tree :=
  (s.commentsBetween p q).map fun (start, stop) => leaf "comment" start stop

mutual

/-- A node with the comments between its children, and between theirs. Tokens without text have
held their place and go. -/
def withComments (s : Source) : Tree → Tree
  | ⟨kind, named, role, start, stop, children⟩ =>
    let inside :=
      match children with
      | [] => []
      | t :: ts => withComments s t :: commentsBehind s t.stop ts
    ⟨kind, named, role, start, stop, inside⟩

/-- Nodes with the comments before each of them, from a position on. -/
def commentsBehind (s : Source) (p : Nat) : List Tree → List Tree
  | [] => []
  | t :: ts =>
    let rest := commentsBehind s t.stop ts
    commentsOf s p t.start ++ (if t.kind == placeKind then rest else withComments s t :: rest)

end

/-- The number of bytes before each character, and before the end. -/
def byteOffsets (s : Source) : Array Nat :=
  s.chars.foldl (fun offsets c => offsets.push (offsets.back?.getD 0 + c.utf8Size)) #[0]

mutual

/-- A node with its positions counted in bytes. -/
def inBytes (offsets : Array Nat) : Tree → Tree
  | ⟨kind, named, role, start, stop, children⟩ =>
    ⟨kind, named, role, offsets.getD start 0, offsets.getD stop 0, allInBytes offsets children⟩

/-- Nodes with their positions counted in bytes. -/
def allInBytes (offsets : Array Nat) : List Tree → List Tree
  | [] => []
  | t :: ts => inBytes offsets t :: allInBytes offsets ts

end

/-- The tree of a script and whether all of it could be read. -/
def tree (dialect : Dialect) (text : String) : Tree × Bool :=
  let s : Source := ⟨text.toList.toArray, dialect⟩
  let offsets := byteOffsets s
  let found := statements? s
  let children := found.getD []
  let inside := commentsBehind s 0 (children ++ [mark placeKind s.size s.size])
  let root : Tree := ⟨"program", true, none, 0, s.size, if found.isSome then inside else []⟩
  (inBytes offsets root, found.isSome)

end RouteAtlas.Script
