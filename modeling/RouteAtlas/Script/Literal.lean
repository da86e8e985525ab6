import RouteAtlas.Script.Parse

/-!
# Literals of a script

Strings, numbers and regular expressions. A string has its escapes and the pieces between them as
children, so that its text can be read off piece by piece.
-/

namespace RouteAtlas.Script

open Parse

/-- The end of the escape that begins at a backslash. -/
def escapeEnd? (s : Source) (p : Nat) : Option Nat :=
  let hexRun (from' count : Nat) : Bool :=
    from' + count ≤ s.size && (s.chars.extract from' (from' + count)).all isHexDigit
  let isOctal (c : Char) : Bool := '0' ≤ c && c ≤ '7'
  let c := s.charAt (p + 1)
  if s.isEnd (p + 1) then none
  else if c = 'x' then if hexRun (p + 2) 2 then some (p + 4) else none
  else if c = 'u' then
    if s.charAt (p + 2) = '\x7b' then
      let q := s.skipWhile isHexDigit (p + 3)
      if p + 3 < q ∧ s.charAt q = '\x7d' then some (q + 1) else none
    else if hexRun (p + 2) 4 then some (p + 6) else none
  else if isOctal c then
    let q := s.skipWhile isOctal (p + 1)
    some (min q (p + 4))
  else if (c = '\r' ∨ c = '?') ∧ (s.charAt (p + 2) = '\n' ∨ s.charAt (p + 2) = '\u2028'
      ∨ s.charAt (p + 2) = '\u2029') then some (p + 3)
  else some (p + 2)

/-- The pieces of quoted text from a position up to a character that `ends` it. -/
def fragments (s : Source) (ends : Nat → Bool) (p : Nat) : Option (List Tree × Nat) :=
  let rec go : Nat → Nat → List Tree → Option (List Tree × Nat)
    | 0, p, found => some (found.reverse, p)
    | n + 1, p, found =>
      if s.isEnd p ∨ ends p then some (found.reverse, p)
      else if s.charAt p = '\\' then
        match escapeEnd? s p with
        | some q => go n q (leaf "escape_sequence" p q :: found)
        | none => none
      else
        let rec run : Nat → Nat → Nat
          | 0, q => q
          | m + 1, q => if s.isEnd q ∨ ends q ∨ s.charAt q = '\\' then q else run m (q + 1)
        let q := run (s.size - p) p
        go n q (leaf "string_fragment" p q :: found)
  go (s.size + 1 - p) p []

/-- A string in single or double quotes. -/
def string : Parse Tree := do
  let p ← advance
  let s ← source
  let quote := s.charAt p
  require (quote == '"' || quote == '\'')
  let ends (q : Nat) : Bool := s.charAt q == quote || s.charAt q == '\n' || s.charAt q == '\r'
  match fragments s ends (p + 1) with
  | some (pieces, q) =>
    require (s.charAt q == quote)
    goTo (q + 1)
    let text := String.singleton quote
    return node "string" (mark text p (p + 1) :: pieces ++ [mark text q (q + 1)])
  | none => fail

/-- The end of the number that begins at a position. -/
def numberEnd? (s : Source) (p : Nat) : Option Nat :=
  let isPart (c : Char) : Bool := c.isDigit || c == '_'
  let c := s.charAt p
  let d := s.charAt (p + 1)
  if c = '0' ∧ (d = 'x' ∨ d = 'X' ∨ d = 'o' ∨ d = 'O' ∨ d = 'b' ∨ d = 'B') then
    some (s.skipWhile isNamePart (p + 2))
  else if c.isDigit ∨ (c = '.' ∧ d.isDigit) then
    let q := s.skipWhile isPart p
    let q := if s.charAt q = '.' then s.skipWhile isPart (q + 1) else q
    let e := s.charAt q
    let sign := s.charAt (q + 1)
    let q :=
      if e = 'e' ∨ e = 'E' then
        if sign.isDigit then s.skipWhile isPart (q + 1)
        else if (sign = '+' ∨ sign = '-') ∧ (s.charAt (q + 2)).isDigit then
          s.skipWhile isPart (q + 2)
        else q
      else q
    some (if s.charAt q = 'n' then q + 1 else q)
  else none

/-- A number. -/
def number : Parse Tree := do
  let p ← advance
  match numberEnd? (← source) p with
  | some q => goTo q; return leaf "number" p q
  | none => fail

/-- The end of the pattern of a regular expression: its closing slash. A slash in brackets or behind
a backslash does not close it. -/
def patternEnd? (s : Source) (p : Nat) : Option Nat :=
  let rec go : Nat → Nat → Bool → Option Nat
    | 0, _, _ => none
    | n + 1, p, inBrackets =>
      let c := s.charAt p
      if s.isEnd p ∨ c = '\n' then none
      else if c = '\\' then go n (p + 2) inBrackets
      else if inBrackets then go n (p + 1) (c != ']')
      else if c = '/' then some p
      else go n (p + 1) (c == '[')
  go (s.size + 1 - p) p false

/-- A regular expression. -/
def regex : Parse Tree := do
  let p ← advance
  let s ← source
  require (s.charAt p == '/')
  match patternEnd? s (p + 1) with
  | some q =>
    let r := s.skipWhile (fun c => 'a' ≤ c && c ≤ 'z') (q + 1)
    goTo r
    let flags := if q + 1 < r then [(leaf "regex_flags" (q + 1) r).as "flags"] else []
    return node "regex" <| [mark "/" p (p + 1), (leaf "regex_pattern" (p + 1) q).as "pattern",
      mark "/" q (q + 1)] ++ flags
  | none => fail

/-- A template: text between backquotes, with expressions. -/
def template (expressions : Parse Tree) : Parse Tree := do
  let p ← advance
  let s ← source
  require (s.charAt p == '\x60')
  goTo (p + 1)
  let ends (q : Nat) : Bool := s.charAt q == '\x60' || s.hasAt q "$\x7b"
  let piece : Parse (List Tree) := do
    let p ← get
    if s.hasAt p "$\x7b" then
      goTo (p + 2)
      let e ← expressions
      let close ← char '\x7d'
      return [node "template_substitution" [mark "$\x7b" p (p + 2), e, close]]
    else
      match fragments s ends p with
      | some ([], _) => fail
      | some (pieces, q) => goTo q; return pieces
      | none => fail
  let pieces ← manyOf piece
  let q ← get
  require (s.charAt q == '\x60')
  goTo (q + 1)
  return node "template_string" (mark "\x60" p (p + 1) :: pieces ++ [mark "\x60" q (q + 1)])

end RouteAtlas.Script
