import RouteAtlas.Script.Literal

/-!
# Types

A type matters only by where it ends. What stands in brackets inside a type is skipped as a whole;
outside of brackets the grammar of types decides whether a name or an operator continues the type.
-/

namespace RouteAtlas.Script.TypeExtent

/-- The end of quoted text that begins at a position, whatever the quote. -/
def quotedEnd? (s : Source) (p : Nat) : Option Nat :=
  let quote := s.charAt p
  let rec go : Nat → Nat → Option Nat
    | 0, _ => none
    | n + 1, p =>
      if s.isEnd p then none
      else if s.charAt p = '\\' then go n (p + 2)
      else if s.charAt p = quote then some (p + 1)
      else go n (p + 1)
  if quote = '"' ∨ quote = '\'' ∨ quote = '\x60' then go (s.size - p) (p + 1) else none

/-- The position after one step inside brackets: a comment, quoted text, or a character. -/
def stepOver (s : Source) (p : Nat) : Nat :=
  match (s.commentEnd? p).or (quotedEnd? s p) with
  | some q => q
  | none => p + 1

/-- An opening bracket, angle brackets aside. -/
def isOpening (c : Char) : Bool := c == '(' || c == '[' || c == '\x7b'

/-- A closing bracket, angle brackets aside. -/
def isClosing (c : Char) : Bool := c == ')' || c == ']' || c == '\x7d'

/-- The end of the brackets that open at a position. -/
def bracketsEnd? (s : Source) (p : Nat) : Option Nat :=
  let rec go : Nat → Nat → Nat → Option Nat
    | 0, _, _ => none
    | n + 1, p, depth =>
      let c := s.charAt p
      if s.isEnd p then none
      else if isOpening c then go n (p + 1) (depth + 1)
      else if isClosing c then
        if depth ≤ 1 then some (p + 1) else go n (p + 1) (depth - 1)
      else go n (stepOver s p) depth
  if isOpening (s.charAt p) then go (s.size - p) (p + 1) 1 else none

/-- The end of the angle brackets that open at a position. The arrow of a function type closes
nothing. -/
def anglesEnd? (s : Source) (p : Nat) : Option Nat :=
  let rec go : Nat → Nat → Nat → Option Nat
    | 0, _, _ => none
    | n + 1, p, depth =>
      let c := s.charAt p
      if s.isEnd p then none
      else if s.hasAt p "=>" then go n (p + 2) depth
      else if c = '<' then go n (p + 1) (depth + 1)
      else if c = '>' then if depth ≤ 1 then some (p + 1) else go n (p + 1) (depth - 1)
      else if isOpening c then (bracketsEnd? s p).bind fun q => go n q depth
      else if isClosing c ∨ c = ';' then none
      else go n (stepOver s p) depth
  if s.charAt p = '<' then go (s.size + 1 - p) p 0 else none

/-- The name at the next token, and its end. -/
def wordAt? (s : Source) (p : Nat) : Option (String × Nat) :=
  let p := s.skipTrivia p
  (s.nameEnd? p).map fun q => (s.slice p q, q)

/-- The end of names with points between them, given the end of the first. -/
def chainEnd (s : Source) (p : Nat) : Nat :=
  let rec go : Nat → Nat → Nat
    | 0, p => p
    | n + 1, p =>
      let q := s.skipTrivia p
      if s.charAt q = '.' then
        match wordAt? s (q + 1) with
        | some (_, r) => go n r
        | none => p
      else p
  go (s.size - p) p

/-- The end of a list of types in angle brackets, where `type` finds the end of one. -/
def argumentsEnd? (type : Nat → Option Nat) (s : Source) (p : Nat) : Option Nat :=
  let rec go : Nat → Nat → Option Nat
    | 0, _ => none
    | n + 1, p =>
      (type p).bind fun q =>
        let q := s.skipTrivia q
        if s.charAt q = '>' then some (q + 1)
        else if s.charAt q = ',' then
          let r := s.skipTrivia (q + 1)
          if s.charAt r = '>' then some (r + 1) else go n (q + 1)
        else none
  let p := s.skipTrivia p
  if s.charAt p = '<' then go (s.size - p) (p + 1) else none

/-- The end of a type that is behind a name: further names, arguments, and what a predicate says. -/
def namedEnd? (type : Nat → Option Nat) (s : Source) (p : Nat) : Option Nat :=
  let q := chainEnd s p
  let q := (argumentsEnd? type s q).getD q
  match wordAt? s q with
  | some ("is", r) => if s.hasLineEnd q (s.skipTrivia q) then some q else type r
  | _ => some q

/-- The words that make a type of the type behind them. -/
def operatorWords : List String := ["keyof", "unique", "readonly", "infer", "asserts", "abstract"]

/-- The end of a type without operators at its top. -/
def primaryEnd? (type : Nat → Option Nat) (s : Source) (p : Nat) : Option Nat :=
  let p := s.skipTrivia p
  let c := s.charAt p
  let result (p : Nat) : Option Nat :=
    let q := s.skipTrivia p
    if s.hasAt q "=>" then type (q + 2) else none
  if c = '(' then (bracketsEnd? s p).bind fun q => (result q).or (some q)
  else if c = '<' then
    (anglesEnd? s p).bind fun q =>
      let q := s.skipTrivia q
      if s.charAt q = '(' then (bracketsEnd? s q).bind result else none
  else if c = '[' ∨ c = '\x7b' then bracketsEnd? s p
  else if c = '-' then numberEnd? s (s.skipTrivia (p + 1))
  else
    ((quotedEnd? s p).or (numberEnd? s p)).or <|
      (wordAt? s p).bind fun (w, q) =>
        if w == "new" then type q
        else if w == "import" then
          let q := s.skipTrivia q
          if s.charAt q = '(' then (bracketsEnd? s q).bind (namedEnd? type s) else none
        else if w == "typeof" then (wordAt? s q).bind fun (w, r) =>
          if w == "import" then type q else namedEnd? type s r
        else if operatorWords.contains w then (type q).or (namedEnd? type s q)
        else namedEnd? type s q

/-- The end of the brackets behind a type: array and index types. -/
def suffixEnd (s : Source) (p : Nat) : Nat :=
  let rec go : Nat → Nat → Nat
    | 0, p => p
    | n + 1, p =>
      let q := s.skipTrivia p
      if s.charAt q = '[' ∧ !s.hasLineEnd p q then
        match bracketsEnd? s q with
        | some r => go n r
        | none => p
      else p
  go (s.size - p) p

/-- The end of types with `|` or `&` between them; either may also come first. -/
def unionEnd? (type : Nat → Option Nat) (s : Source) (p : Nat) : Option Nat :=
  let isJoint (q : Nat) : Bool :=
    let c := s.charAt q
    (c == '|' || c == '&') && s.charAt (q + 1) != c
  let rec go : Nat → Nat → Option Nat
    | 0, _ => none
    | n + 1, p =>
      (primaryEnd? type s p).bind fun q =>
        let q := suffixEnd s q
        let r := s.skipTrivia q
        if isJoint r then go n (r + 1) else some q
  let p := s.skipTrivia p
  go (s.size + 1 - p) (if isJoint p then p + 1 else p)

/-- The end of the type at the next token. -/
def typeEnd? (s : Source) : (depth : Nat) → Nat → Option Nat
  | 0, _ => none
  | depth + 1, p =>
    let type := typeEnd? s depth
    (unionEnd? type s p).bind fun q =>
      let choice : Option Nat :=
        match wordAt? s q with
        | some ("extends", r) => do
          let r := s.skipTrivia (← type r)
          if s.charAt r = '?' then
            let r := s.skipTrivia (← type (r + 1))
            if s.charAt r = ':' then type (r + 1) else none
          else none
        | _ => none
      choice.or (some q)

end TypeExtent

namespace Parse

/-- A node for what ends where `find` says, at the next token. -/
def extent (kind : String) (find : Source → Nat → Option Nat) : Parse Tree := do
  let p ← advance
  match find (← source) p with
  | some q => goTo q; return leaf kind p q
  | none => fail

/-- A type. -/
def type : Parse Tree := extent "type" fun s p => TypeExtent.typeEnd? s (s.size + 1 - p) p

/-- A colon and a type. -/
def annotation : Parse Tree := do
  require (← isTyped)
  return node "type_annotation" [← char ':', ← type]

/-- Type parameters in angle brackets. -/
def typeParameters : Parse Tree := do
  require (← isTyped)
  extent "type_parameters" TypeExtent.anglesEnd?

/-- Type arguments in angle brackets. -/
def typeArguments : Parse Tree := do
  require (← isTyped)
  extent "type_arguments" fun s p =>
    TypeExtent.argumentsEnd? (TypeExtent.typeEnd? s (s.size + 1 - p)) s p

end Parse

end RouteAtlas.Script
