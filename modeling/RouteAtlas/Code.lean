import RouteAtlas.Value

/-!
# Code, as far as it is understood

Every construct of a script that matters to its routes has a constructor here; everything else is
`opaque`, with the name of its kind. A string literal stands apart from the other literals, since
only it can be a path.
-/

namespace RouteAtlas

/-- The kinds of literal other than strings. -/
inductive LiteralKind
  | number
  | boolean
  | null
deriving DecidableEq

/-- An expression. -/
inductive Expr
  | text (value : Text)
  | literal (kind : LiteralKind) (value : Value)
  | name (name : Text)
  | member (object : Expr) (property : Option Text) (computed : Bool)
  | call (callee : Expr) (arguments : List Expr)
  | either (left right : Expr)
  | function (name : Option Text)
  | other (kind : String)

/-- One name of a variable declaration with its initializer; a pattern has no name. -/
structure Declarator where
  name : Option Text
  init : Option Expr

/-- A statement. -/
inductive Statement
  | declaration (declarators : List Declarator)
  | importing (localName source : Option Text)
  | expression (comments : List Text) (expr : Expr)

/-- The value of a literal. -/
def Expr.value? : Expr → Option Value
  | .text t => some (.text t)
  | .literal _ v => some v
  | _ => none

end RouteAtlas
