import RouteAtlas.Script.TypeExtent

/-!
# Functions, classes and objects

The parts of a script are nested in each other, so the parsers here are told by `sub` how to read
the parts they contain.
-/

namespace RouteAtlas.Script

/-- The parts of a script that contain one another. In an expression, `allowIn` says whether `in` is
an operator, and `allowResult` whether an arrow function may say the type of its result. -/
inductive Goal
  | statement
  | assignment (allowIn allowResult : Bool)
  | unary
  | operand
  | creation
  | object
  | element

/-- A reader for every part. -/
abbrev Sub := Goal → Parse Tree

namespace Parse

variable (sub : Sub)

/-- An expression that may stand in a list. -/
def item : Parse Tree := sub (.assignment true true)

/-- Expressions with commas between them. -/
def expressions (allowIn : Bool) : Parse Tree := do
  let first ← sub (.assignment allowIn true)
  let rest ← manyOf (return [← char ',', ← sub (.assignment allowIn true)])
  return if rest.isEmpty then first else node "sequence_expression" (first :: rest)

/-- Three points and an expression. -/
def spread : Parse Tree := return node "spread_element" [← operator "...", ← item sub]

/-- Statements in braces. A semicolon may be understood behind the closing brace; `operatorFits` is
told whether the block is empty. -/
def block (operatorFits : Bool → Bool) : Parse Tree := do
  let o ← char '\x7b'
  let body ← many (sub .statement)
  let c ← char '\x7d'
  let semicolon ← optional (understood (operatorFits body.isEmpty))
  return node "statement_block" (o :: body ++ c :: semicolon)

/-- An expression in parentheses. -/
def parenthesized : Parse Tree :=
  return node "parenthesized_expression" (← between '(' ')' (return [← expressions sub true]))

/-- The arguments of a call. -/
def arguments : Parse Tree :=
  return node "arguments" (← between '(' ')' (commaList (spread sub <|> item sub)))

/-- A decorator. -/
def decorator : Parse Tree := return node "decorator" [← char '@', ← sub .operand]

/-- A name that is private to a class. -/
def privateName : Parse Tree := do
  let p ← advance
  require ((← source).charAt p == '#')
  goTo (p + 1)
  let (_, _, q) ← word
  return leaf "private_property_identifier" p q

/-- The name of a property. -/
def propertyName : Parse Tree :=
  nameOf "property_identifier" <|> string <|> number <|> privateName <|>
    (return node "computed_property_name" (← between '[' ']' (return [← item sub])))

/-- A word before the name of a property that changes its meaning. -/
def modifier (words : List String) : Parse Tree := do
  let (w, p, q) ← word
  require (words.contains w)
  let s ← source
  let c := s.charAt (s.skipTrivia q)
  require (isNameStart c || c.isDigit || "\"'[#*\\".toList.contains c)
  return mark w p q

/-- The initializer of a name or a property. -/
def initializer (role : String) (allowIn : Bool) : Parse (List Tree) :=
  return [← operator "=", (← sub (.assignment allowIn true)).as role]

/-! ### Objects and arrays, which also serve as patterns -/

/-- The elements of an array. -/
def array : Parse Tree :=
  return node "array" (← between '[' ']' (commaList (spread sub <|> item sub)))

/-! ### Functions -/

/-- A pattern: a name, an object or an array. -/
def pattern : Parse Tree :=
  identifier <|> (return (← sub .object).withKind "object_pattern")
    <|> (return (← array sub).withKind "array_pattern")

/-- The words before a parameter that make it a property. -/
def parameterWords : List String :=
  ["public", "private", "protected", "override", "readonly"]

/-- A word before a parameter that makes it a property. -/
def parameterModifier : Parse Tree := do
  require (← isTyped)
  let (w, p, q) ← word
  require (parameterWords.contains w)
  let s ← source
  let c := s.charAt (s.skipTrivia q)
  require (isNameStart c || c == '\x7b' || c == '[')
  return mark w p q

/-- A parameter. -/
def parameter : Parse Tree := do
  let before ← many (decorator sub <|> parameterModifier)
  let rest ← optional (operator "...")
  let name ← pattern sub <|> keyword "this"
  let question ← optional (do require (← isTyped); operator "?")
  let type ← optional annotation
  let value ← optionally (initializer sub "right" true)
  let typed ← isTyped
  match before ++ rest ++ [name] ++ question ++ type ++ value with
  | [t] => return t
  | ts =>
    let kind :=
      if !rest.isEmpty then "rest_pattern"
      else if typed then "required_parameter"
      else "assignment_pattern"
    return node kind (if typed then ts else before ++ rest ++ name.as "left" :: value)

/-- The parameters of a function. -/
def parameters : Parse Tree :=
  return (node "formal_parameters" (← between '(' ')' (commaList (parameter sub)))).as
    "parameters"

/-- The parameters of a function and the type of its result. -/
def signature : Parse (List Tree) := do
  let types ← optional typeParameters
  let parameters ← parameters sub
  let result ← optional annotation
  return types ++ [parameters] ++ result

/-- A property of an object. -/
def property : Parse Tree :=
  let method : Parse Tree := do
    let before ← many (modifier ["async", "get", "set"])
    let star ← optional (operator "*")
    let name ← propertyName sub
    let signature ← signature sub
    let body ← block sub fun _ => false
    return node "method_definition" (before ++ star ++ [name.as "name"] ++ signature
      ++ [body.as "body"])
  let pair : Parse Tree := do
    let name ← propertyName sub
    let colon ← operator ":"
    return node "pair" [name.as "key", colon, (← item sub).as "value"]
  let shorthand : Parse Tree := do
    let name ← identifier
    let name := name.withKind "shorthand_property_identifier"
    (return node "object_assignment_pattern" (name :: (← initializer sub "right" true)))
      <|> pure name
  spread sub <|> pair <|> method <|> shorthand

/-- An object in braces. -/
def object : Parse Tree :=
  return node "object" (← between '\x7b' '\x7d' (commaList (property sub)))

/-- The signature and the body of a function. -/
def functionBody (operatorFits : Bool) : Parse (List Tree) := do
  let signature ← signature sub
  let body ← block sub fun _ => operatorFits
  return signature ++ [body.as "body"]

/-- The words before the name of a function, and the kinds of function that they make. -/
def functionHead (plain generator : String) : Parse (String × List Tree) := do
  let async ← optional (do let a ← keyword "async"; sameLine; return a)
  let word ← keyword "function"
  let star ← optional (operator "*")
  return (if star.isEmpty then plain else generator, async ++ word :: star)

/-- A function as an expression. -/
def functionExpression : Parse Tree := do
  let (kind, head) ← functionHead "function_expression" "generator_function"
  let name ← optional (return (← identifier).as "name")
  return node kind (head ++ name ++ (← functionBody sub true))

/-- A function as a declaration; in a typed script it may lack a body. -/
def functionDeclaration (operatorFits : Bool) : Parse Tree := do
  let (kind, head) ← functionHead "function_declaration" "generator_function_declaration"
  let name ← identifier
  let head := head ++ [name.as "name"]
  let full : Parse Tree := do
    let rest ← functionBody sub operatorFits
    let semicolon ← optional (understood operatorFits)
    return node kind (head ++ rest ++ semicolon)
  let bodiless : Parse Tree := do
    require (← isTyped)
    let signature ← signature sub
    return node "function_signature" (head ++ signature ++ [← semicolon false])
  full <|> bodiless

/-- An arrow function. -/
def arrow (allowIn allowResult : Bool) : Parse Tree := do
  let async : Parse (List Tree) := do
    let a ← keyword "async"
    sameLine
    return [a]
  let plainHead : Parse (List Tree) := return [(← identifier).as "parameter"]
  let fullHead : Parse (List Tree) := do
    let types ← optional typeParameters
    let parameters ← parameters sub
    let result ← if allowResult then optional annotation else pure []
    return types ++ [parameters] ++ result
  let head : Parse (List Tree) := do
    let h ← plainHead <|> fullHead
    return h ++ [← operator "=>"]
  let head ← followedBy async head <|> head
  let p ← advance
  let body ←
    if (← source).charAt p = '\x7b' then block sub fun _ => true
    else sub (.assignment allowIn true)
  return node "arrow_function" (head ++ [body.as "body"])

/-! ### Classes -/

/-- The words that may stand before the name of a member. -/
def memberWords : List String := [
  "static", "async", "get", "set", "public", "private", "protected", "readonly", "override",
  "abstract", "declare", "accessor"]

/-- A block that runs when the class is made. -/
def staticBlock : Parse Tree :=
  return node "class_static_block" [← keyword "static", (← block sub fun _ => false).as "body"]

/-- The type of all members with a computed name. -/
def indexSignature : Parse Tree := do
  require (← isTyped)
  let before ← many (modifier memberWords)
  let key ← extent "index" TypeExtent.bracketsEnd?
  return node "index_signature" (before ++ [key, ← annotation, ← semicolon false])

/-- A method or a field. -/
def member : Parse Tree := do
  let before ← many (decorator sub <|> modifier memberWords)
  let star ← optional (operator "*")
  let name ← propertyName sub
  let sign ← optional (do require (← isTyped); operatorIn ["?", "!"])
  let head := before ++ star ++ [name.as "name"] ++ sign
  let method : Parse Tree := do
    let signature ← signature sub
    let body ← (return (← block sub fun _ => false).as "body") <|> semicolon false
    return node "method_definition" (head ++ signature ++ [body])
  let field : Parse Tree := do
    let type ← optional annotation
    let value ← optionally (initializer sub "value" true)
    return node "field_definition" (head ++ type ++ value ++ [← semicolon true])
  method <|> field

/-- The members of a class. -/
def classBody : Parse Tree := do
  let members ← between '\x7b' '\x7d'
    (many (char ';' <|> staticBlock sub <|> indexSignature <|> member sub))
  return (node "class_body" members).as "body"

/-- What a class builds on. -/
def heritage : Parse (List Tree) := do
  let parent : Parse (List Tree) := do
    let e ← keyword "extends"
    let value ← sub .operand
    return [node "class_heritage" (e :: value :: (← optional typeArguments))]
  let promised : Parse (List Tree) := do
    require (← isTyped)
    let i ← keyword "implements"
    let first ← type
    let rest ← manyOf (return [← char ',', ← type])
    return [node "implements_clause" (i :: first :: rest)]
  followedBy (optionally parent) (optionally promised)

/-- A class from the word `class` on. -/
def classBare (kind : String) : Parse Tree := do
  let head ← many (decorator sub <|> keyword "abstract")
  let word ← keyword "class"
  let name ← optional do
    let n ← identifier
    require (n.stop - n.start != 10 || (← source).slice n.start n.stop != "implements")
    return n.as "name"
  let types ← optional typeParameters
  return node kind (head ++ word :: name ++ types ++ (← heritage sub) ++ [← classBody sub])

/-- A class as a declaration. -/
def classDeclaration (operatorFits : Bool) : Parse Tree := do
  let c ← classBare sub "class_declaration"
  require (c.children.any (Tree.fills "name"))
  let isAbstract := c.children.any (·.kind == "abstract")
  let semicolon ← if isAbstract then pure [] else optional (understood operatorFits)
  return node "class_declaration" (c.children ++ semicolon)

end Parse

end RouteAtlas.Script
