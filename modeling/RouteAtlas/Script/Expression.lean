import RouteAtlas.Script.Element

/-!
# Expressions

An operand is a primary expression with everything that is called, indexed or selected behind it.
Operands are joined by operators of different strength; a stronger operator takes its operands
first, and of two equally strong ones the left. Saying that an expression has a type takes all that
stands before it.
-/

namespace RouteAtlas.Script

open Parse

/-! ### Operators between operands -/

/-- The strength of an operator between two operands; the words `in` and `instanceof` are among
them. -/
def strength (operator : String) : Nat :=
  match operator with
  | "**" => 12
  | "*" | "/" | "%" => 11
  | "+" | "-" => 10
  | "<<" | ">>" | ">>>" => 9
  | "<" | ">" | "<=" | ">=" | "in" | "instanceof" => 8
  | "==" | "!=" | "===" | "!==" => 7
  | "&" => 6
  | "^" => 5
  | "|" => 4
  | "&&" => 3
  | "||" => 2
  | "??" => 1
  | _ => 0

/-- The symbols among the operators between two operands. -/
def binarySymbols : List String := [
  "**", "*", "/", "%", "+", "-", "<<", ">>", ">>>", "<", ">", "<=", ">=", "==", "!=", "===", "!==",
  "&", "^", "|", "&&", "||", "??"]

/-- An operation on two operands. -/
def binary (left operator right : Tree) : Tree :=
  node "binary_expression" [left.as "left", operator.as "operator", right.as "right"]

/-- Left operands that wait for their right operand, the latest first. -/
abbrev Waiting := List (Tree × Tree)

/-- Closes the waiting operations that are at least as strong as the operator to come; an operator
of powers leaves its like waiting. -/
def closeStronger (limit : Nat) : Waiting → Tree → Waiting × Tree
  | [], right => ([], right)
  | (left, operator) :: rest, right =>
    if limit ≤ strength operator.kind ∧ operator.kind ≠ "**" ∨ limit < strength operator.kind then
      closeStronger limit rest (binary left operator right)
    else ((left, operator) :: rest, right)

/-- Closes all waiting operations. -/
def closeAll (waiting : Waiting) (right : Tree) : Tree := (closeStronger 0 waiting right).2

namespace Parse

variable (sub : Sub)

/-! ### Operands -/

/-- The words that are expressions of their own. -/
def wordExpressions : List String := ["this", "super", "null", "true", "false"]

/-- A word that is an expression. -/
def wordExpression : Parse Tree := do
  let (w, p, q) ← word
  require (wordExpressions.contains w)
  return leaf w p q

/-- Words with a point between them that together are one expression. -/
def metaProperty (first second : String) : Parse Tree :=
  return node "meta_property" [← keyword first, ← operator ".", ← keyword second]

/-- The word `import`, where it is called. -/
def importWord : Parse Tree := do
  let k ← keyword "import"
  return leaf "import" k.start k.stop

/-- The making of an object. -/
def creation : Parse Tree := do
  let word ← keyword "new"
  let made ← sub .creation
  let types ← optional typeArguments
  let arguments ← optional (return (← arguments sub).as "arguments")
  return node "new_expression" (word :: made.as "constructor" :: types ++ arguments)

/-- An expression without operators, as far as it stands alone. -/
def primary : Parse Tree := do
  let p ← advance
  let s ← source
  let c := s.charAt p
  if c = '(' then parenthesized sub
  else if c = '[' then array sub
  else if c = '\x7b' then sub .object
  else if c = '\x60' then template (expressions sub true)
  else if c = '"' ∨ c = '\'' then string
  else if c = '/' then regex
  else if c = '<' then do
    require (s.dialect != .typescript)
    sub .element
  else if c = '#' then privateName
  else if c = '@' then classBare sub "class"
  else
    number <|> wordExpression <|> functionExpression sub <|> classBare sub "class"
      <|> metaProperty "new" "target" <|> metaProperty "import" "meta" <|> creation sub
      <|> importWord <|> identifier

/-- The characters that end an operand wherever they stand; types before one of them are given to
the operand and are not compared with it. -/
def operandEnds : List Char := [')', ']', '\x7d', ',', ';', ':']

/-- What may stand behind an operand, as a change of it. Calls are left out after `new`. -/
def suffix (calls : Bool) (operand : Tree) : Parse Tree :=
  let object := operand.as "object"
  let function := operand.as "function"
  let called (between : List Tree) : Parse Tree := do
    require calls
    return node "call_expression" (function :: between ++ [(← arguments sub).as "arguments"])
  let tagged (between : List Tree) : Parse Tree := do
    require calls
    let p ← advance
    require ((← source).charAt p == '\x60')
    let t ← template (expressions sub true)
    return node "call_expression" (function :: between ++ [t.as "arguments"])
  let selected (point : Tree) : Parse Tree := do
    let name ← nameOf "property_identifier" <|> privateName
    return node "member_expression" [object, point, name.as "property"]
  let indexed (before : List Tree) : Parse Tree := do
    let o ← char '['
    let index ← expressions sub true
    let c ← char ']'
    return node "subscript_expression" (object :: before ++ [o, index.as "index", c])
  let chained : Parse Tree := do
    let mark ← operator "?."
    let link := (leaf "optional_chain" mark.start mark.stop).as "optional_chain"
    let typed : Parse Tree := do called [link, ← typeArguments]
    called [link] <|> indexed [link] <|> selected link <|> typed
  let asserted : Parse Tree := do
    require (← isTyped)
    sameLine
    return node "non_null_expression" [operand, ← operator "!"]
  let withTypes : Parse Tree := do
    require calls
    let types := [(← typeArguments).as "type_arguments"]
    let alone : Parse Tree := do
      let p ← advance
      let s ← source
      require (p = s.size ∨ operandEnds.contains (s.charAt p))
      return node "instantiation_expression" (operand :: types)
    called types <|> tagged types <|> alone
  (do selected (← operator ".")) <|> called [] <|> indexed [] <|> chained <|> tagged [] <|> asserted
    <|> withTypes

/-- An operand with everything behind it. -/
def withSuffixes (calls : Bool) (operand : Tree) : Parse Tree := fun s p =>
  let rec go : Nat → Tree → Nat → Tree × Nat
    | 0, t, p => (t, p)
    | n + 1, t, p =>
      match suffix sub calls t s p with
      | some (t, q) => go n t q
      | none => (t, p)
  some (go (s.size + 1 - p) operand p)

/-- An operand. -/
def operand : Parse Tree := do withSuffixes sub true (← primary sub)

/-- What `new` makes: an operand that is not called. -/
def made : Parse Tree := do withSuffixes sub false (← primary sub)

/-! ### Operators before and behind an operand -/

/-- The type that an expression is said to have. -/
def said : Parse (String × List Tree) := do
  require (← isTyped)
  sameLine
  let word ← keywordIn ["as", "satisfies"]
  let kind := if word.kind == "as" then "as_expression" else "satisfies_expression"
  return (kind, [word, ← type])

/-- An expression with the types that it is said to have. -/
def withSaid (t : Tree) : Parse Tree := do
  let types ← many said
  return types.foldl (fun t (kind, parts) => node kind (t :: parts)) t

/-- An operand with its operators. -/
def unary : Parse Tree :=
  let plain : Parse Tree := do
    let t ← operand sub
    let step : Parse Tree := do
      sameLine
      return node "update_expression" [t.as "argument", (← operatorIn ["++", "--"]).as "operator"]
    step <|> pure t
  let signed : Parse Tree := do
    let o ← operatorIn ["!", "~", "-", "+"] <|> keywordIn ["typeof", "void", "delete"]
    return node "unary_expression" [o.as "operator", (← sub .unary).as "argument"]
  let stepped : Parse Tree := do
    let o ← operatorIn ["++", "--"]
    return node "update_expression" [o.as "operator", (← sub .unary).as "argument"]
  let awaited : Parse Tree := do
    let word ← keyword "await"
    return node "await_expression" [word, ← withSaid (← sub .unary)]
  let asserted : Parse Tree := do
    require ((← source).dialect == .typescript)
    let types := [← char '<', ← type, ← char '>']
    return node "type_assertion" (types ++ [← sub .unary])
  signed <|> stepped <|> awaited <|> asserted <|> plain

/-- An operator between two operands. -/
def binaryOperator (allowIn : Bool) : Parse Tree :=
  operatorIn binarySymbols
    <|> keywordIn (if allowIn then ["in", "instanceof"] else ["instanceof"])

/-- Operands with the operators between them. -/
def operation (allowIn : Bool) : Parse Tree := do
  let first ← unary sub
  fun s p =>
    let rec go : Nat → Waiting → Tree → Nat → Tree × Nat
      | 0, waiting, t, p => (closeAll waiting t, p)
      | n + 1, waiting, t, p =>
        let more : Parse (Tree × Tree) := return (← binaryOperator allowIn, ← unary sub)
        match said s p with
        | some ((kind, parts), q) => go n [] (node kind (closeAll waiting t :: parts)) q
        | none =>
          match more s p with
          | some ((operator, right), q) =>
            let (waiting, left) := closeStronger (strength operator.kind) waiting t
            go n ((left, operator) :: waiting) right q
          | none => (closeAll waiting t, p)
    some (go (s.size + 1 - p) [] first p)

/-- A choice between two expressions, or an operation alone. An arrow function in the first of the
two may say its result only if the colon of the choice is still found. -/
def choice (allowIn : Bool) : Parse Tree := do
  let condition ← operation sub allowIn
  let rest (allowResult : Bool) : Parse Tree := do
    let question ← operator "?"
    let first ← sub (.assignment true allowResult)
    let colon ← operator ":"
    let second ← sub (.assignment allowIn true)
    return node "ternary_expression" [condition.as "condition", question, first.as "consequence",
      colon, second.as "alternative"]
  rest true <|> rest false <|> pure condition

/-- The operators that change a variable. -/
def changing : List String := [
  "+=", "-=", "*=", "/=", "%=", "**=", "<<=", ">>=", ">>>=", "&=", "^=", "|=", "&&=", "||=", "??="]

/-- The next value of a generator. -/
def yielded (allowIn : Bool) : Parse Tree := do
  let word ← keyword "yield"
  let all : Parse (List Tree) := return [← operator "*", ← sub (.assignment allowIn true)]
  let one : Parse (List Tree) := do
    sameLine
    return [← sub (.assignment allowIn true)]
  return node "yield_expression" (word :: (← optionally (all <|> one)))

/-- An expression without commas at its top. -/
def assignment (allowIn allowResult : Bool) : Parse Tree :=
  let plain : Parse Tree := do
    let left ← choice sub allowIn
    let set : Parse Tree := do
      let o ← operator "="
      return node "assignment_expression"
        [left.as "left", o, (← sub (.assignment allowIn allowResult)).as "right"]
    let changed : Parse Tree := do
      let o ← operatorIn changing
      return node "augmented_assignment_expression" [left.as "left", o.as "operator",
        (← sub (.assignment allowIn allowResult)).as "right"]
    set <|> changed <|> pure left
  arrow sub allowIn allowResult <|> yielded sub allowIn <|> plain

end Parse

end RouteAtlas.Script
