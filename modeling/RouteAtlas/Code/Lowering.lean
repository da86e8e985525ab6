import RouteAtlas.Code
import RouteAtlas.Code.Literal
import RouteAtlas.Tree

/-!
# From syntax trees to code

`Expr.ofTree` reads an expression node; `Tree.statements` lists the statements of a tree in
pre-order, nested ones included. Comments and parentheses never show in an expression. The comments
of an expression statement are those that stand directly before it among its siblings.
-/

namespace RouteAtlas

/-- The text of a string node: its fragments and escapes, in order. -/
def Tree.stringText (source : ByteArray) (t : Tree) : Except LiteralError Text :=
  let pieces := t.namedChildren.mapM fun c =>
    if c.kind == "string_fragment" then .ok (c.text source)
    else if c.kind == "escape_sequence" then Literal.escape (c.text source)
    else .ok []
  pieces.map List.flatten

/-- The node kinds that are functions when they stand as an expression. -/
def functionKinds : List String :=
  ["arrow_function", "function_expression", "function", "generator_function"]

/-- What stands where an expression is missing. -/
def Expr.missing : Expr := .other "missing"

mutual

/-- The expression of a node. -/
def Expr.ofTree (source : ByteArray) : Tree → Except LiteralError Expr
  | ⟨kind, named, role, start, stop, children⟩ =>
    let node : Tree := ⟨kind, named, role, start, stop, children⟩
    if kind == "parenthesized_expression" then Expr.ofFirstOperand source children
    else if kind == "string" then (node.stringText source).map .text
    else if kind == "number" then .ok (.literal .number (Literal.number (node.text source)))
    else if kind == "true" then .ok (.literal .boolean (.bool true))
    else if kind == "false" then .ok (.literal .boolean (.bool false))
    else if kind == "null" then .ok (.literal .null .null)
    else if kind == "identifier" then .ok (.name (node.text source))
    else if kind == "member_expression" then do
      let object ← Expr.ofRole source "object" children
      return .member object ((node.child? "property").map (Tree.text source)) false
    else if kind == "subscript_expression" then do
      let index ← Expr.ofRole source "index" children
      let object ← Expr.ofRole source "object" children
      let property :=
        match index with
        | .text t => some t
        | _ => none
      return .member object property true
    else if kind == "call_expression" then
      match Expr.ofArguments source children with
      | none => .ok (.other kind)
      | some arguments => do
        let callee ← Expr.ofRole source "function" children
        return .call callee (← arguments)
    else if kind == "binary_expression" then
      match node.child? "operator" with
      | some operator =>
        if operator.kind == "||" then do
          let left ← Expr.ofRole source "left" children
          let right ← Expr.ofRole source "right" children
          return .either left right
        else .ok (.other kind)
      | none => .ok (.other kind)
    else if functionKinds.contains kind then
      .ok (.function ((node.child? "name").map (Tree.text source)))
    else .ok (.other kind)

/-- The expression of the first child in a role. -/
def Expr.ofRole (source : ByteArray) (role : String) : List Tree → Except LiteralError Expr
  | [] => .ok .missing
  | t :: ts => if t.fills role then Expr.ofTree source t else Expr.ofRole source role ts

/-- The expression of the first operand. -/
def Expr.ofFirstOperand (source : ByteArray) : List Tree → Except LiteralError Expr
  | [] => .ok .missing
  | t :: ts => if t.isOperand then Expr.ofTree source t else Expr.ofFirstOperand source ts

/-- The expressions of all operands. -/
def Expr.ofOperands (source : ByteArray) : List Tree → Except LiteralError (List Expr)
  | [] => .ok []
  | t :: ts => do
    let rest ← Expr.ofOperands source ts
    if t.isOperand then return (← Expr.ofTree source t) :: rest else return rest

/-- The arguments among the children of a call; none for a tagged template. -/
def Expr.ofArguments (source : ByteArray) : List Tree → Option (Except LiteralError (List Expr))
  | [] => none
  | ⟨kind, _, role, _, _, children⟩ :: ts =>
    if role == some "arguments" then
      if kind == "arguments" then some (Expr.ofOperands source children) else none
    else Expr.ofArguments source ts

end

/-- The declarator of a node; only an identifier is a name. -/
def Declarator.ofTree (source : ByteArray) (t : Tree) : Except LiteralError Declarator := do
  let name :=
    match t.child? "name" with
    | some n => if n.kind == "identifier" then some (n.text source) else none
    | none => none
  match t.child? "value" with
  | some v => return ⟨name, some (← Expr.ofTree source v)⟩
  | none => return ⟨name, none⟩

/-- The local name that one part of an import clause introduces first. -/
def Tree.importedName? (source : ByteArray) (part : Tree) : Option Text :=
  if part.kind == "identifier" then some (part.text source)
  else if part.kind == "namespace_import" then
    (part.namedChildren.find? (·.kind == "identifier")).map (Tree.text source)
  else if part.kind == "named_imports" then
    part.namedChildren.findSome? fun specifier =>
      if specifier.kind == "import_specifier" then
        ((specifier.child? "alias").or (specifier.child? "name")).map (Tree.text source)
      else none
  else none

/-- The import that a node stands for: its first local name and its source. -/
def Statement.ofImport (source : ByteArray) (t : Tree) : Except LiteralError Statement := do
  let clause := t.namedChildren.find? (·.kind == "import_clause")
  let localName := clause.bind fun c => c.namedChildren.findSome? (Tree.importedName? source)
  match t.child? "source" with
  | some s => return .importing localName (some (← s.stringText source))
  | none => return .importing localName none

/-- The statement that a node itself is, if it is one, given the comments before it. -/
def Statement.ofTree? (source : ByteArray) (comments : List Text) (t : Tree) :
    Except LiteralError (Option Statement) :=
  if t.kind == "lexical_declaration" || t.kind == "variable_declaration" then do
    let declarators ← (t.namedChildren.filter (·.kind == "variable_declarator")).mapM
      (Declarator.ofTree source)
    return some (.declaration declarators)
  else if t.kind == "import_statement" then (Statement.ofImport source t).map some
  else if t.kind == "expression_statement" then
    match t.children.find? Tree.isOperand with
    | none => .ok none
    | some operand => (Expr.ofTree source operand).map fun e => some (.expression comments e)
  else .ok none

mutual

/-- The statements of a node and of everything below it, given the comments before the node. -/
def Tree.statementsAfter (source : ByteArray) (comments : List Text) :
    Tree → Except LiteralError (List Statement)
  | ⟨kind, named, role, start, stop, children⟩ => do
    let own ← Statement.ofTree? source comments ⟨kind, named, role, start, stop, children⟩
    let below ← Tree.statementsAmong source [] children
    return own.toList ++ below

/-- The statements of the named nodes among siblings. -/
def Tree.statementsAmong (source : ByteArray) (comments : List Text) :
    List Tree → Except LiteralError (List Statement)
  | [] => .ok []
  | t :: ts => do
    let here ← if t.named then Tree.statementsAfter source comments t else .ok []
    let run := if t.isComment then comments ++ [Literal.comment (t.text source)] else []
    return here ++ (← Tree.statementsAmong source run ts)

end

/-- The statements of a tree in pre-order. -/
def Tree.statements (source : ByteArray) (t : Tree) : Except LiteralError (List Statement) :=
  t.statementsAfter source []

end RouteAtlas
