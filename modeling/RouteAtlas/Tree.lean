import RouteAtlas.Text.Utf8

/-!
# Syntax trees

A node of a concrete syntax tree has a kind, a span of source bytes and children; punctuation is a
node that is not named. A node may fill a role of its parent, such as the `left` of an operation.
-/

namespace RouteAtlas

/-- A node of a concrete syntax tree with everything below it. -/
structure Tree where
  kind : String
  named : Bool
  role : Option String
  start : Nat
  stop : Nat
  children : List Tree

namespace Tree

/-- A source comment. -/
def isComment (t : Tree) : Bool := t.kind == "comment"

/-- A named node that is no comment. -/
def isOperand (t : Tree) : Bool := t.named && !t.isComment

/-- The node fills `role` of its parent. -/
def fills (role : String) (t : Tree) : Bool := t.role == some role

/-- The first child that fills a role. -/
def child? (t : Tree) (role : String) : Option Tree := t.children.find? (·.fills role)

/-- The children that are named, in order. -/
def namedChildren (t : Tree) : List Tree := t.children.filter (·.named)

/-- The source text of the node, without code points that its span cuts. -/
def text (source : ByteArray) (t : Tree) : Text :=
  Utf8.decodeDropping (source.extract t.start t.stop)

end Tree

end RouteAtlas
