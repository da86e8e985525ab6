import RouteAtlas.Dialect

/-!
# Script text

The text of a script, by position. Between two tokens there may be blanks and comments; a comment
runs to the end of its line or to its closing mark.
-/

namespace RouteAtlas.Script

/-- The characters of a script and the dialect it is written in. -/
structure Source where
  chars : Array Char
  dialect : Dialect

/-- The characters that end a line. -/
def isLineEnd (c : Char) : Bool := c == '\n' || c == '\r' || c == '\u2028' || c == '\u2029'

/-- White space between tokens. -/
def isBlank (c : Char) : Bool :=
  let n := c.toNat
  c == ' ' || (0x09 ≤ n && n ≤ 0x0D) || n == 0x85 || n == 0xA0 || n == 0x1680
    || (0x2000 ≤ n && n ≤ 0x200B) || n == 0x2028 || n == 0x2029 || n == 0x202F || n == 0x205F
    || n == 0x2060 || n == 0x3000 || n == 0xFEFF

/-- The first character of a name; everything that has no other use is a letter. -/
def isNameStart (c : Char) : Bool :=
  if c.toNat < 0x80 then c.isAlpha || c == '$' || c == '_' else !isBlank c

/-- A further character of a name. -/
def isNamePart (c : Char) : Bool := isNameStart c || c.isDigit

/-- A hexadecimal digit. -/
def isHexDigit (c : Char) : Bool :=
  c.isDigit || ('a' ≤ c && c ≤ 'f') || ('A' ≤ c && c ≤ 'F')

namespace Source

/-- The number of characters. -/
def size (s : Source) : Nat := s.chars.size

/-- The character at a position; past the end there is the character NUL. -/
def charAt (s : Source) (p : Nat) : Char := s.chars[p]?.getD '\x00'

/-- The position is past the end. -/
def isEnd (s : Source) (p : Nat) : Bool := s.size ≤ p

/-- The characters from a position on begin with those of a string. -/
def hasAt (s : Source) (p : Nat) (text : String) : Bool :=
  let rec go : Nat → List Char → Bool
    | _, [] => true
    | p, c :: cs => s.chars[p]? == some c && go (p + 1) cs
  go p text.toList

/-- The first position from `p` on whose character does not have a property. -/
def skipWhile (s : Source) (property : Char → Bool) (p : Nat) : Nat :=
  let rec go : Nat → Nat → Nat
    | 0, p => p
    | n + 1, p =>
      match s.chars[p]? with
      | some c => if property c then go n (p + 1) else p
      | none => p
  go (s.size - p) p

/-- The position after a block comment whose opening mark ends before `p`; none if it stays open. -/
def blockEnd? (s : Source) (p : Nat) : Option Nat :=
  let rec go : Nat → Nat → Option Nat
    | 0, _ => none
    | n + 1, p => if s.hasAt p "*/" then some (p + 2) else go n (p + 1)
  go (s.size - p) p

/-- The end of the comment that begins at a position, if one does. -/
def commentEnd? (s : Source) (p : Nat) : Option Nat :=
  if s.hasAt p "//" then some (s.skipWhile (fun c => !isLineEnd c) p)
  else if s.hasAt p "/*" then s.blockEnd? (p + 2)
  else none

/-- The first position from `p` on that is neither blank nor in a comment. -/
def skipTrivia (s : Source) (p : Nat) : Nat :=
  let rec go : Nat → Nat → Nat
    | 0, p => p
    | n + 1, p =>
      let p := s.skipWhile isBlank p
      match s.commentEnd? p with
      | some q => go n q
      | none => p
  go (s.size + 1 - p) p

/-- The comments between two positions, by their ends. -/
def commentsBetween (s : Source) (p stop : Nat) : List (Nat × Nat) :=
  let rec go : Nat → Nat → List (Nat × Nat)
    | 0, _ => []
    | n + 1, p =>
      let p := s.skipWhile isBlank p
      if stop ≤ p then []
      else
        match s.commentEnd? p with
        | some q => if q ≤ stop then (p, q) :: go n q else []
        | none => []
  go (stop + 1 - p) p

/-- There is a line end between two positions. -/
def hasLineEnd (s : Source) (p stop : Nat) : Bool := (s.chars.extract p stop).any isLineEnd

/-- The end of the name that begins at a position: letters, digits, and escapes for letters. -/
def nameEnd? (s : Source) (p : Nat) : Option Nat :=
  let escapeEnd? (p : Nat) : Option Nat :=
    if s.hasAt p "\\u\x7b" then
      let q := s.skipWhile isHexDigit (p + 3)
      if p + 3 < q ∧ s.charAt q = '\x7d' then some (q + 1) else none
    else if s.hasAt p "\\u" && (s.chars.extract (p + 2) (p + 6)).all isHexDigit
        && p + 6 ≤ s.size then some (p + 6)
    else none
  let rec go : Nat → Nat → Nat
    | 0, p => p
    | n + 1, p =>
      match s.chars[p]? with
      | none => p
      | some c => if isNamePart c then go n (p + 1) else
        match escapeEnd? p with
        | some q => go n q
        | none => p
  if s.isEnd p then none
  else if isNameStart (s.charAt p) then some (go (s.size - p) p)
  else (escapeEnd? p).map fun q => go (s.size - q) q

/-- The characters between two positions. -/
def slice (s : Source) (p stop : Nat) : String := String.ofList (s.chars.extract p stop).toList

end Source

end RouteAtlas.Script
