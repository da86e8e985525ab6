import RouteAtlas.Script.Expression

/-!
# Statements

Most statements begin with a word that tells their kind. Typed scripts have declarations that begin
with words which may as well be names; where such a declaration cannot be read, the word is a name.
-/

namespace RouteAtlas.Script.Parse

variable (sub : Sub)

/-- A statement inside another one, in a role. -/
def inner (role : String) : Parse Tree := return (← sub .statement).as role

/-- A condition in parentheses. -/
def condition (role : String) : Parse Tree := return (← parenthesized sub).as role

/-- A block in which no object could stand. -/
def bareBlock : Parse Tree := block sub fun _ => false

/-! ### Variables -/

/-- A variable with its type and its initializer. -/
def declarator (allowIn : Bool) : Parse Tree := do
  let name ← pattern sub
  let definite ← optional (do require (← isTyped); operator "!")
  let type ← optional annotation
  let value ← optionally (initializer sub "value" allowIn)
  return node "variable_declarator" (name.as "name" :: definite ++ type ++ value)

/-- The words that declare variables. -/
def variableWord : Parse Tree := do
  let w ← keywordIn ["var", "let", "const"]
  if w.kind == "let" then
    let p ← advance
    let c := (← source).charAt p
    require (isNameStart c || c == '[' || c == '\x7b' || c == '\\')
  return w

/-- The kind of a declaration that begins with a word. -/
def declarationKind (word : Tree) : String :=
  if word.kind == "var" then "variable_declaration" else "lexical_declaration"

/-- A declaration of variables. -/
def binders (allowIn : Bool) : Parse Tree := do
  let word ← variableWord
  let first ← declarator sub allowIn
  let rest ← manyOf (return [← char ',', ← declarator sub allowIn])
  let names := first :: rest
  let hasValue := ((names.getLast?.bind (·.children.getLast?)).map (Tree.fills "value")).getD false
  let word' := if word.kind == "var" then word else word.as "kind"
  return node (declarationKind word) (word' :: names ++ [← semicolon hasValue])

/-! ### Loops and choices -/

/-- A statement that does nothing. -/
def emptyStatement : Parse Tree := return node "empty_statement" [← char ';']

/-- The head of a loop over the members of something. -/
def membersHead : Parse (List Tree) := do
  let declared : Parse (List Tree) := do
    let word ← variableWord
    let name ← pattern sub
    return [word.as "kind", name.as "left"]
  let left ← declared <|> (return [(← sub .operand).as "left"])
  let word ← keywordIn ["of", "in"]
  return left ++ [word.as "operator", (← expressions sub true).as "right"]

/-- The head of a loop with a counter. -/
def counterHead : Parse (List Tree) := do
  let start ← (return [(← binders sub false).as "initializer"])
    <|> (return [(← emptyStatement).as "initializer"])
    <|> (return [(← expressions sub false).as "initializer", ← char ';'])
  let condition ← (return [(← emptyStatement).as "condition"])
    <|> (return [(← expressions sub true).as "condition", ← char ';'])
  let step ← optional (return (← expressions sub true).as "increment")
  return start ++ condition ++ step

/-- A loop that begins with `for`. -/
def forLoop : Parse Tree := do
  let word ← keyword "for"
  let wait ← optional (keyword "await")
  let members : Parse Tree := do
    let head ← between '(' ')' (membersHead sub)
    return node "for_in_statement" (word :: wait ++ head ++ [← inner sub "body"])
  let counter : Parse Tree := do
    let head ← between '(' ')' (counterHead sub)
    return node "for_statement" (word :: head ++ [← inner sub "body"])
  members <|> counter

/-- A loop with its condition first. -/
def whileLoop : Parse Tree :=
  return node "while_statement" [← keyword "while", ← condition sub "condition", ← inner sub "body"]

/-- A loop with its condition last. -/
def doLoop : Parse Tree := do
  let word ← keyword "do"
  let body ← inner sub "body"
  let until_ ← keyword "while"
  let test ← condition sub "condition"
  let semicolon ← optional (semicolon false)
  return node "do_statement" (word :: body :: until_ :: test :: semicolon)

/-- A statement under a condition. -/
def ifStatement : Parse Tree := do
  let word ← keyword "if"
  let test ← condition sub "condition"
  let first ← inner sub "consequence"
  let other : Parse Tree :=
    return (node "else_clause" [← keyword "else", ← sub .statement]).as "alternative"
  return node "if_statement" (word :: test :: first :: (← optional other))

/-- One case of a choice among values. -/
def switchCase : Parse Tree :=
  let body : Parse (List Tree) := return (← many (sub .statement)).map (Tree.as "body")
  let value : Parse Tree := do
    let word ← keyword "case"
    let value ← expressions sub true
    let colon ← operator ":"
    return node "switch_case" (word :: value.as "value" :: colon :: (← body))
  let otherwise_ : Parse Tree := do
    let word ← keyword "default"
    let colon ← operator ":"
    return node "switch_default" (word :: colon :: (← body))
  value <|> otherwise_

/-- A choice among values. -/
def switchStatement : Parse Tree := do
  let word ← keyword "switch"
  let value ← condition sub "value"
  let body := node "switch_body" (← between '\x7b' '\x7d' (many (switchCase sub)))
  return node "switch_statement" [word, value, body.as "body"]

/-- Statements whose failure is handled. -/
def tryStatement : Parse Tree := do
  let word ← keyword "try"
  let body ← bareBlock sub
  let handler : Parse Tree := do
    let word ← keyword "catch"
    let parameter ← optionally <| between '(' ')' do
      let name ← pattern sub
      return name.as "parameter" :: (← optional annotation)
    return (node "catch_clause" (word :: parameter ++ [(← bareBlock sub).as "body"])).as "handler"
  let finalizer : Parse Tree :=
    return (node "finally_clause" [← keyword "finally", (← bareBlock sub).as "body"]).as "finalizer"
  return node "try_statement"
      (word :: body.as "body" :: (← optional handler) ++ (← optional finalizer))

/-! ### Jumps -/

/-- A jump, with a label or a value that may be missing. -/
def jump (kind word : String) (target : Parse (List Tree)) : Parse Tree := do
  let k ← keyword word
  let alone : Parse (List Tree) := return [← semicolon false]
  return node kind (k :: (← alone <|> target))

/-- A label and the end of its statement. -/
def labelTarget : Parse (List Tree) := do
  let label ← nameOf "statement_identifier"
  return [label.as "label", ← semicolon false]

/-- A value and the end of its statement. -/
def valueTarget : Parse (List Tree) := return [← expressions sub true, ← semicolon true]

/-- A statement with a label. -/
def labeled : Parse Tree := do
  let label ← identifier
  let label := (label.withKind "statement_identifier").as "label"
  return node "labeled_statement" [label, ← operator ":", ← inner sub "body"]

/-- An expression as a statement. -/
def expressionStatement : Parse Tree :=
  return node "expression_statement" [← expressions sub true, ← semicolon true]

/-! ### Imports and exports -/

/-- The module that something comes from. -/
def fromClause : Parse (List Tree) := return [← keyword "from", (← string).as "source"]

/-- Notes on how a module is to be read. -/
def importNotes : Parse Tree :=
  return node "import_attribute" [← keywordIn ["with", "assert"], ← sub .object]

/-- A name in the braces of an import or an export: perhaps with a word before it that makes it a
type, perhaps with another name. -/
def specifier (kind : String) : Parse Tree :=
  let name : Parse Tree := nameOf "identifier" <|> string
  let renamed : Parse (List Tree) := do
    let n ← name
    let as_ ← keyword "as"
    return [n.as "name", as_, (← name).as "alias"]
  let plain : Parse (List Tree) := return [(← name).as "name"]
  let typed (p : Parse (List Tree)) : Parse (List Tree) := do
    let word ← keywordIn ["type", "typeof"]
    return word :: (← p)
  let complete (p : Parse (List Tree)) : Parse Tree := do
    let parts ← p
    let q ← advance
    let c := (← source).charAt q
    require (c == ',' || c == '\x7d')
    return node kind parts
  complete renamed <|> complete plain <|> complete (typed renamed) <|> complete (typed plain)

/-- All of a module under one name. -/
def namespaceImport : Parse Tree :=
  return node "namespace_import" [← char '*', ← keyword "as", ← nameOf "identifier"]

/-- Names of a module in braces. -/
def namedImports : Parse Tree :=
  return node "named_imports" (← between '\x7b' '\x7d' (commaList (specifier "import_specifier")))

/-- The names that an import introduces. -/
def importClause : Parse Tree :=
  let several : Parse Tree := namespaceImport <|> namedImports
  let both : Parse (List Tree) := do
    let first ← identifier
    let more ← optionally (return [← char ',', ← several])
    return first :: more
  return node "import_clause" (← both <|> (return [← several]))

/-- An import. -/
def importStatement : Parse Tree := do
  let word ← keyword "import"
  let finish (parts : List Tree) : Parse Tree := do
    let notes ← optional (importNotes sub)
    return node "import_statement" (word :: parts ++ notes ++ [← semicolon false])
  let clause : Parse (List Tree) := do
    let c ← importClause
    return c :: (← fromClause)
  let bare : Parse (List Tree) := return [(← string).as "source"]
  let typed : Parse (List Tree) := do
    require (← isTyped)
    let word ← keywordIn ["type", "typeof"]
    return word :: (← clause)
  let required : Parse (List Tree) := do
    require (← isTyped)
    let name ← identifier
    let equals ← operator "="
    let word ← keyword "require"
    let source ← between '(' ')' (return [(← string).as "source"])
    return [node "import_require_clause" (name :: equals :: word :: source)]
  let renamed : Parse Tree := do
    require (← isTyped)
    let name ← identifier
    let equals ← operator "="
    let target ← type
    return node "import_alias" [word, name, equals, target, ← semicolon false]
  (do finish (← clause)) <|> (do finish (← bare)) <|> (do finish (← typed))
    <|> (do finish (← followedBy (optional (keyword "type")) required)) <|> renamed

/-! ### Declarations of typed scripts -/

/-- The words before a type, an interface or a module that name it. -/
def typeName : Parse Tree := do
  sameLine
  identifier

/-- A name for a type. -/
def typeDeclaration : Parse Tree := do
  let word ← keyword "type"
  let name ← typeName
  let parameters ← optional typeParameters
  let equals ← operator "="
  let value ← type
  return node "type_alias_declaration" (word :: name.as "name" :: parameters
    ++ [equals, value, ← semicolon false])

/-- An interface. -/
def interfaceDeclaration : Parse Tree := do
  let word ← keyword "interface"
  let name ← typeName
  let parameters ← optional typeParameters
  let parents ← optionally do
    let e ← keyword "extends"
    let first ← type
    return e :: first :: (← manyOf (return [← char ',', ← type]))
  let p ← advance
  require ((← source).charAt p == '\x7b')
  let body ← extent "interface_body" TypeExtent.bracketsEnd?
  return node "interface_declaration" (word :: name.as "name" :: parameters ++ parents ++ [body])

/-- An enumeration. -/
def enumDeclaration : Parse Tree := do
  let head ← optional (keyword "const")
  let word ← keyword "enum"
  let name ← identifier
  let p ← advance
  require ((← source).charAt p == '\x7b')
  let body ← extent "enum_body" TypeExtent.bracketsEnd?
  return node "enum_declaration" (head ++ [word, name.as "name", body])

/-- A module inside a script, with its statements. -/
def moduleDeclaration : Parse Tree := do
  let word ← keywordIn ["namespace", "module"]
  sameLine
  let name ← string <|> extent "nested_identifier" fun s p =>
    (s.nameEnd? p).map (TypeExtent.chainEnd s)
  let body ← bareBlock sub
  return node "module" [word, name.as "name", body.as "body"]

/-- A declaration of what exists elsewhere. -/
def ambientDeclaration (declaration : Parse Tree) : Parse Tree := do
  let word ← keyword "declare"
  sameLine
  let global_ : Parse (List Tree) := return [← keyword "global", ← bareBlock sub]
  let shorthand : Parse (List Tree) :=
    return [← keyword "module", ← string, ← semicolon false]
  return node "ambient_declaration"
    (word :: (← global_ <|> (return [← declaration]) <|> shorthand))

/-- A declaration. -/
def plainDeclaration (operatorFits : Bool) : Parse Tree :=
  let typed : Parse Tree := do
    require (← isTyped)
    typeDeclaration <|> interfaceDeclaration <|> enumDeclaration <|> moduleDeclaration sub
  typed <|> binders sub true <|> functionDeclaration sub operatorFits
    <|> classDeclaration sub operatorFits

/-- A declaration, of this script or of what exists elsewhere. -/
def declaration (operatorFits : Bool) : Parse Tree :=
  plainDeclaration sub operatorFits <|> do
    require (← isTyped)
    ambientDeclaration sub (plainDeclaration sub operatorFits)

/-- An export. -/
def exportStatement : Parse Tree := do
  let before ← many (decorator sub)
  let word ← keyword "export"
  let head := before ++ [word]
  let finish (parts : List Tree) (operatorFits : Bool) : Parse Tree :=
    return node "export_statement" (head ++ parts ++ [← semicolon operatorFits])
  let names : Parse (List Tree) := do
    let type ← optional (keyword "type")
    let clause := node "export_clause"
      (← between '\x7b' '\x7d' (commaList (specifier "export_specifier")))
    return type ++ [clause]
  let all : Parse (List Tree) := do
    let type ← optional (keyword "type")
    let star ← char '*'
    let name ← optionally (return [← keyword "as", ← nameOf "identifier" <|> string])
    return type ++ star :: name
  let reexport (p : Parse (List Tree)) : Parse Tree := do
    finish ((← followedBy p fromClause) ++ (← optional (importNotes sub))) false
  let standard : Parse Tree := do
    let d ← keyword "default"
    let declared : Parse Tree := do
      let inside ← functionDeclaration sub true <|> classDeclaration sub true
        <|> (do require (← isTyped); interfaceDeclaration)
      return node "export_statement" (head ++ [d, inside.as "declaration"])
    let value : Parse Tree := do
      let v ← item sub
      let end_ ← semicolon true <|> (do
        let isFunction := ["function_expression", "generator_function", "class"].contains v.kind
        require isFunction
        let p ← get
        return mark placeKind p p)
      return node "export_statement" (head ++ [d, v.as "value", end_])
    declared <|> value
  let assigned : Parse Tree := do
    require (← isTyped)
    finish [← operator "=", ← expressions sub true] true
  let named : Parse Tree := do
    require (← isTyped)
    finish [← keyword "as", ← keyword "namespace", ← identifier] false
  let declared : Parse Tree := do
    let inside ← declaration sub false <|> (do require (← isTyped); importStatement sub)
    return node "export_statement" (head ++ [inside.as "declaration"])
  reexport all <|> reexport names <|> (do finish (← names) false) <|> standard <|> assigned
    <|> named
    <|> declared

/-! ### All statements -/

/-- The statement that a word begins. -/
def wordStatement (word : String) : Parse Tree :=
  match word with
  | "if" => ifStatement sub
  | "for" => forLoop sub
  | "while" => whileLoop sub
  | "do" => doLoop sub
  | "switch" => switchStatement sub
  | "try" => tryStatement sub
  | "break" => jump "break_statement" "break" labelTarget
  | "continue" => jump "continue_statement" "continue" labelTarget
  | "return" => jump "return_statement" "return" (valueTarget sub)
  | "throw" => do
    let k ← keyword "throw"
    return node "throw_statement" (k :: (← valueTarget sub))
  | "debugger" => jump "debugger_statement" "debugger" fail
  | "with" => do
    let k ← keyword "with"
    return node "with_statement" [k, ← condition sub "object", ← inner sub "body"]
  | "import" => importStatement sub
  | "export" => exportStatement sub
  | "var" | "let" | "const" | "function" | "async" | "class" | "abstract" | "type" | "interface"
  | "enum" | "declare" | "namespace" | "module" => declaration sub true
  | _ => fail

/-- A statement. -/
def statement : Parse Tree := do
  let p ← advance
  let s ← source
  let c := s.charAt p
  if c = '\x7b' then block sub id
  else if c = ';' then emptyStatement
  else if c = '@' then exportStatement sub <|> classDeclaration sub true
  else
    match s.nameEnd? p with
    | some q =>
      wordStatement sub (s.slice p q) <|> labeled sub <|> expressionStatement sub
    | none => expressionStatement sub

end RouteAtlas.Script.Parse
