import RouteAtlas.Json

/-!
# Printing JSON

The text is ASCII: every other code point is written as one or two escapes of four hexadecimal
digits. Members and elements stand on lines of their own, indented by two spaces a level; empty
arrays and objects stay on one line. Only an integer beyond the digit limit cannot be printed.
-/

namespace RouteAtlas.Json

/-- Why a value cannot be printed. -/
inductive PrintError
  | tooManyDigits
deriving DecidableEq

/-- Four lower case hexadecimal digits. -/
def hex4 (n : Nat) : List Char :=
  [n / 0x1000 % 16, n / 0x100 % 16, n / 0x10 % 16, n % 16].map Nat.digitChar

/-- The escape of a UTF-16 unit. -/
def unitEscape (n : Nat) : List Char := '\\' :: 'u' :: hex4 n

/-- The text of one code point between quotes. -/
def escapePoint (c : CodePoint) : List Char :=
  let n := c.val
  if n = 0x22 then ['\\', '"']
  else if n = 0x5C then ['\\', '\\']
  else if n = 0x0A then ['\\', 'n']
  else if n = 0x0D then ['\\', 'r']
  else if n = 0x09 then ['\\', 't']
  else if n = 0x0C then ['\\', 'f']
  else if n = 0x08 then ['\\', 'b']
  else if 0x20 ≤ n ∧ n ≤ 0x7E then [Char.ofNat n]
  else if n < 0x10000 then unitEscape n
  else unitEscape (0xD800 + (n - 0x10000) / 0x400) ++ unitEscape (0xDC00 + (n - 0x10000) % 0x400)

/-- A quoted text. -/
def quote (t : Text) : List Char := '"' :: t.flatMap escapePoint ++ ['"']

/-- A line end and the indentation of a level. -/
def newline (level : Nat) : List Char := '\n' :: List.replicate (2 * level) ' '

/-- The text of a number that is no integer. -/
def printReal : Binary64 → List Char
  | .nan => "NaN".toList
  | .infinity negative => (if negative then "-Infinity" else "Infinity").toList
  | x => x.toText.filterMap CodePoint.toChar?

/-- The text of an integer within the digit limit. -/
def printInt (n : Int) : Except PrintError (List Char) :=
  match Numeral.decimal? n with
  | some t => .ok (t.filterMap CodePoint.toChar?)
  | none => .error .tooManyDigits

mutual

/-- The text of a value whose lines are indented for `level`. -/
def printAt (level : Nat) : Json → Except PrintError (List Char)
  | .null => .ok "null".toList
  | .bool b => .ok (if b then "true" else "false").toList
  | .int n => printInt n
  | .real x => .ok (printReal x)
  | .text t => .ok (quote t)
  | .array [] => .ok ['[', ']']
  | .array (e :: es) => do
    let first ← printAt (level + 1) e
    let rest ← printElements (level + 1) es
    return '[' :: newline (level + 1) ++ first ++ rest ++ newline level ++ [']']
  | .object [] => .ok ['\x7b', '\x7d']
  | .object ((k, v) :: ms) => do
    let first ← printAt (level + 1) v
    let rest ← printMembers (level + 1) ms
    return '\x7b' :: newline (level + 1) ++ quote k ++ ':' :: ' ' :: first ++ rest
      ++ newline level ++ ['\x7d']

/-- The elements after the first. -/
def printElements (level : Nat) : List Json → Except PrintError (List Char)
  | [] => .ok []
  | e :: es => do
    let first ← printAt level e
    let rest ← printElements level es
    return ',' :: newline level ++ first ++ rest

/-- The members after the first. -/
def printMembers (level : Nat) : List (Text × Json) → Except PrintError (List Char)
  | [] => .ok []
  | (k, v) :: ms => do
    let first ← printAt level v
    let rest ← printMembers level ms
    return ',' :: newline level ++ quote k ++ ':' :: ' ' :: first ++ rest

end

/-- The text of a value. -/
def print (j : Json) : Except PrintError String := (printAt 0 j).map String.ofList

end RouteAtlas.Json
