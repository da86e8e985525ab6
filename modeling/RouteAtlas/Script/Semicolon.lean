import RouteAtlas.Script.Source

/-!
# Semicolons that are not written

A statement may end without a semicolon where a line ends, before a closing brace, and at the end
of the script. Whether one is understood at a position depends on what follows: a line that could
continue the statement does continue it. The dialects differ in how comments before the line end
are seen.
-/

namespace RouteAtlas.Script.Semicolon

/-- Blanks as the search for a line end sees them: those that may be broken at. -/
def isSpace (c : Char) : Bool :=
  let n := c.toNat
  c == ' ' || (0x09 ≤ n && n ≤ 0x0D) || n == 0x1680 || (0x2000 ≤ n && n ≤ 0x2006)
    || (0x2008 ≤ n && n ≤ 0x200A) || n == 0x2028 || n == 0x2029 || n == 0x205F || n == 0x3000

/-- A letter, for telling an operator word from a longer name. -/
def isLetter (c : Char) : Bool := c.isAlpha || 0x80 ≤ c.toNat

/-- A line end of the newer kind, where a carriage return alone is only a blank. -/
def isBreak (c : Char) : Bool := c == '\n' || c == '\u2028' || c == '\u2029'

/-- How a run of blanks and comments ends: before a slash that begins no comment, after a block
comment that is to be looked at, or before anything else. -/
inductive Skipped
  | slash
  | block (position : Nat)
  | other (position : Nat)

/-- The position after the inside of a block comment, and whether the comment spans lines. -/
def insideBlock (s : Source) (p : Nat) (broken : Bool) : Nat × Bool :=
  let rec go : Nat → Nat → Bool → Nat × Bool
    | 0, p, broken => (p, broken)
    | n + 1, p, broken =>
      if s.isEnd p then (p, broken)
      else if s.hasAt p "*/" then (p + 2, broken)
      else go n (p + 1) (broken || isBreak (s.charAt p))
  go (s.size + 1 - p) p broken

/-- Skips blanks and comments. Unless `through` is set, it stops behind a block comment that is not
followed by a slash at once, when no line has been broken inside a comment. -/
def skip (s : Source) (through : Bool) (p : Nat) : Skipped :=
  let rec go : Nat → Nat → Bool → Skipped
    | 0, p, _ => .other p
    | n + 1, p, broken =>
      let p := s.skipWhile isSpace p
      if s.charAt p = '/' then
        if s.charAt (p + 1) = '/' then go n (s.skipWhile (fun c => !isBreak c) (p + 2)) broken
        else if s.charAt (p + 1) = '*' then
          let (q, broken) := insideBlock s (p + 2) broken
          if s.charAt q ≠ '/' ∧ !through then (if broken then .other q else .block q)
          else go n q broken
        else .slash
      else .other p
  go (s.size + 1 - p) p false

/-- The word operators `in` and `instanceof` continue a statement. -/
def isWordOperator (s : Source) (p : Nat) : Bool :=
  if s.charAt (p + 1) ≠ 'n' then false
  else if !isLetter (s.charAt (p + 2)) then true
  else s.hasAt (p + 2) "stanceof" && !isLetter (s.charAt (p + 10))

/-- A sign continues a statement unless it is doubled. -/
def isDoubled (s : Source) (p : Nat) : Bool := s.charAt p = s.charAt (p + 1)

/-- The characters that continue a statement from the line before, in every dialect. -/
def continuing : List Char :=
  ['\x60', ',', ':', ';', '*', '%', '>', '<', '=', '?', '^', '|', '&', '/']

/-- Plain script: a semicolon is understood before what stands at the start `p` of a line. -/
def atLineStart (s : Source) (p : Nat) : Bool :=
  let c := s.charAt p
  if continuing.contains c || c = '[' || c = '(' then false
  else if c = '.' then (s.charAt (p + 1)).isDigit
  else if c = '+' || c = '-' then isDoubled s p
  else if c = '!' then s.charAt (p + 1) ≠ '='
  else if c = 'i' then !isWordOperator s p
  else true

/-- Typed script: as in plain script, but for a parenthesis and a bracket it matters whether an
operator could follow, and a point never begins a statement. -/
def atTypedLineStart (s : Source) (operatorFits : Bool) (p : Nat) : Bool :=
  let c := s.charAt p
  if c = '(' || c = '[' then !operatorFits
  else if c = '.' then false
  else atLineStart s p

/-- Plain script: a semicolon is understood at `p`. Where no operator could follow, a line comment
ends the statement as the line does. -/
def isImplied (s : Source) (operatorFits : Bool) (p : Nat) : Bool :=
  let rec go : Nat → Nat → Bool
    | 0, _ => true
    | n + 1, p =>
      let afterComments (q : Nat) : Bool :=
        let c := s.charAt q
        if c = '\x7d' then true
        else if s.isEnd q then false
        else if isBreak c then
          match skip s true (q + 1) with
          | .other r => atLineStart s r
          | .block r => atLineStart s r
          | .slash => false
        else if isSpace c then go n (q + 1)
        else false
      if s.isEnd p then true
      else if s.charAt p = '/' then
        match skip s false p with
        | .slash => false
        | .other q =>
          if !operatorFits && s.charAt q != ',' && s.charAt q != '=' then true else afterComments q
        | .block q => afterComments q
      else afterComments p
  go (s.size + 1 - p) p

/-- Typed script: a semicolon is understood at `p`. A closing brace that a colon follows belongs to
a pattern with a type. -/
def isTypedImplied (s : Source) (operatorFits : Bool) (p : Nat) : Bool :=
  let q := s.skipWhile (fun c => isSpace c && c != '\n') p
  if s.isEnd q then true
  else if s.charAt q = '\x7d' then
    if s.charAt (s.skipWhile isSpace (q + 1)) = ':' then operatorFits else true
  else if s.charAt q = '\n' then
    match skip s true (q + 1) with
    | .other r => atTypedLineStart s operatorFits r
    | .block r => atTypedLineStart s operatorFits r
    | .slash => false
  else false

/-- A semicolon is understood at `p`; `operatorFits` tells whether an operator could follow. -/
def isUnderstood (s : Source) (operatorFits : Bool) (p : Nat) : Bool :=
  if s.dialect = .javascript then isImplied s operatorFits p else isTypedImplied s operatorFits p

end RouteAtlas.Script.Semicolon
