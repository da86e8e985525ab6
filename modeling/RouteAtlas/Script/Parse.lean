import RouteAtlas.Script.Semicolon
import RouteAtlas.Tree

/-!
# Parsers

A parser reads a script from a position on. It gives a result and the position behind it, or
nothing; then another parser can be tried at the same position. Tokens skip the blanks and comments
before them. Positions count characters until the whole tree is known.
-/

namespace RouteAtlas

/-- The node with its role. -/
def Tree.as (role : String) (t : Tree) : Tree := { t with role := some role }

/-- The node with another kind. -/
def Tree.withKind (kind : String) (t : Tree) : Tree := { t with kind := kind }

namespace Script

/-- A parser. -/
abbrev Parse := ReaderT Source (StateT Nat Option)

/-- A named node that spans its children. -/
def node (kind : String) (children : List Tree) : Tree where
  kind := kind
  named := true
  role := none
  start := (children.head?.map (·.start)).getD 0
  stop := (children.getLast?.map (·.stop)).getD 0
  children := children

/-- A named node without children. -/
def leaf (kind : String) (start stop : Nat) : Tree := ⟨kind, true, none, start, stop, []⟩

/-- A token that is not named: its kind is its text. -/
def mark (text : String) (start stop : Nat) : Tree := ⟨text, false, none, start, stop, []⟩

/-- The kind of a token without text, which holds a place and never shows. -/
def placeKind : String := ""

namespace Parse

/-- Fails. -/
def fail {α : Type} : Parse α := fun _ _ => none

/-- Fails unless a condition holds. -/
def require (b : Bool) : Parse Unit := if b then pure () else fail

/-- The script. -/
def source : Parse Source := read

/-- The script is written in a dialect with types. -/
def isTyped : Parse Bool := return (← read).dialect != .javascript

/-- Goes to a position. -/
def goTo (p : Nat) : Parse Unit := set p

/-- Goes to the next token and gives its position. -/
def advance : Parse Nat := fun s p =>
  let q := s.skipTrivia p
  some (q, q)

/-- A parser, or nothing. -/
def optional (p : Parse Tree) : Parse (List Tree) := (return [← p]) <|> pure []

/-- A parser for several nodes, or none of them. -/
def optionally (p : Parse (List Tree)) : Parse (List Tree) := p <|> pure []

/-- As many times as possible. -/
def many {α : Type} (p : Parse α) : Parse (List α) := fun s q =>
  let rec go : Nat → Nat → List α → List α × Nat
    | 0, q, found => (found, q)
    | n + 1, q, found =>
      match p s q with
      | some (a, r) => if q < r then go n r (a :: found) else (a :: found, r)
      | none => (found, q)
  let (found, r) := go (s.size + 1 - q) q []
  some (found.reverse, r)

/-- As many times as possible, all nodes in one list. -/
def manyOf (p : Parse (List Tree)) : Parse (List Tree) := return (← many p).flatten

/-- A character of punctuation, whatever follows it. -/
def char (c : Char) : Parse Tree := do
  let p ← advance
  require ((← source).charAt p == c)
  goTo (p + 1)
  return mark (String.singleton c) p (p + 1)

/-- The operators, longer ones before their beginnings. -/
def operators : List String := [
  ">>>=", "...", "===", "!==", "**=", "<<=", ">>=", ">>>", "&&=", "||=", "??=",
  "=>", "==", "!=", "<=", ">=", "&&", "||", "??", "?.", "++", "--", "+=", "-=", "*=", "/=", "%=",
  "&=", "|=", "^=", "<<", ">>", "**",
  "=", "<", ">", "+", "-", "*", "/", "%", "&", "|", "^", "!", "~", "?", ":", "."]

/-- The operator at a position. A question mark with a point is none before a digit, where the point
begins a number. -/
def operatorAt? (s : Source) (p : Nat) : Option String :=
  if s.hasAt p "?." && (s.charAt (p + 2)).isDigit then some "?"
  else operators.find? (s.hasAt p)

/-- One operator among some. -/
def operatorIn (texts : List String) : Parse Tree := do
  let p ← advance
  match operatorAt? (← source) p with
  | some text =>
    require (texts.contains text)
    goTo (p + text.length)
    return mark text p (p + text.length)
  | none => fail

/-- An operator. -/
def operator (text : String) : Parse Tree := operatorIn [text]

/-- The name at the next token. -/
def word : Parse (String × Nat × Nat) := do
  let p ← advance
  match (← source).nameEnd? p with
  | some q => goTo q; return ((← source).slice p q, p, q)
  | none => fail

/-- A word with a meaning of its own. -/
def keyword (text : String) : Parse Tree := do
  let (w, p, q) ← word
  require (w == text)
  return mark text p q

/-- One word among some. -/
def keywordIn (texts : List String) : Parse Tree := do
  let (w, p, q) ← word
  require (texts.contains w)
  return mark w p q

/-- Any word, as a node of a kind. -/
def nameOf (kind : String) : Parse Tree := do
  let (_, p, q) ← word
  return leaf kind p q

/-- The words that are never names. -/
def reserved : List String := [
  "break", "case", "catch", "class", "const", "continue", "debugger", "default", "delete", "do",
  "else", "export", "extends", "false", "finally", "for", "function", "if", "import", "in",
  "instanceof", "new", "null", "return", "super", "switch", "this", "throw", "true", "try",
  "typeof", "var", "void", "while", "with"]

/-- A name. -/
def identifier : Parse Tree := do
  let (w, p, q) ← word
  require (!reserved.contains w)
  return leaf (if w == "undefined" then "undefined" else "identifier") p q

/-- No line ends between here and the next token. -/
def sameLine : Parse Unit := do
  let p ← get
  let s ← source
  require (!s.hasLineEnd p (s.skipTrivia p))

/-- A parser between two characters. -/
def between (opening closing : Char) (p : Parse (List Tree)) : Parse (List Tree) := do
  let o ← char opening
  let inside ← p
  let c ← char closing
  return o :: inside ++ [c]

/-- Items with commas between them; items may be missing. -/
def commaList (item : Parse Tree) : Parse (List Tree) := do
  let first ← optional item
  let rest ← manyOf (return (← char ',') :: (← optional item))
  return first ++ rest

/-- Two parsers, one after the other. -/
def followedBy (p q : Parse (List Tree)) : Parse (List Tree) := return (← p) ++ (← q)

/-- A semicolon that is not written, if one is understood here or behind comments from here on. -/
def understood (operatorFits : Bool) : Parse Tree := fun s p =>
  let rec go : Nat → Nat → Option (Tree × Nat)
    | 0, _ => none
    | n + 1, p =>
      if Semicolon.isUnderstood s operatorFits p then some (mark placeKind p p, p)
      else (s.commentEnd? (s.skipWhile isBlank p)).bind (go n)
  go (s.size + 1 - p) p

/-- A semicolon, understood or written. -/
def semicolon (operatorFits : Bool) : Parse Tree := understood operatorFits <|> char ';'

end Parse

end Script

end RouteAtlas
