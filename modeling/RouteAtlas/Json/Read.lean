import RouteAtlas.Json
import RouteAtlas.Number.Numeral

/-!
# Reading JSON

The reader accepts the JSON grammar and, in the place of a number, the words `NaN`, `Infinity` and
`-Infinity`. Two escapes that name the halves of a surrogate pair make one code point. A numeral
without fraction and exponent is an integer, and has a bounded number of digits.
-/

namespace RouteAtlas.Json

/-- Why a text is no JSON. -/
inductive ReadError
  | malformed
  | tooManyDigits
deriving DecidableEq

/-- What is read from the front of a text, and the rest of it. -/
abbrev Read (α : Type) := Except ReadError (α × Text)

/-- The blanks between tokens. -/
def isGap (c : CodePoint) : Bool :=
  c.val == 0x20 || c.val == 0x09 || c.val == 0x0A || c.val == 0x0D

/-- Skips the blanks at the front. -/
def skipGap (t : Text) : Text := t.dropWhile isGap

/-- Where a reader of quoted text is: between code points, behind a backslash, or inside the digits
of an escape. -/
inductive Quoted
  | plain
  | escape
  | digits (missing : Nat) (bits : Nat)

/-- The code point of an escape of one letter. -/
def escapedPoint? (c : CodePoint) : Option CodePoint :=
  match c.val with
  | 0x22 => some c
  | 0x5C => some c
  | 0x2F => some c
  | 0x62 => some (CodePoint.ofChar '\x08')
  | 0x66 => some (CodePoint.ofChar '\x0c')
  | 0x6E => some (CodePoint.ofChar '\n')
  | 0x72 => some (CodePoint.ofChar '\r')
  | 0x74 => some (CodePoint.ofChar '\t')
  | _ => none

/-- The value of a hexadecimal digit. -/
def hexDigit? (c : CodePoint) : Option Nat :=
  (c.toChar?.bind Numeral.digitValue?).filter (· < 16)

/-- Puts a code point in front of what is read. -/
def prepend (c : CodePoint) (r : Read Text) : Read Text := r.map fun (t, rest) => (c :: t, rest)

/-- Reads quoted text up to its closing quote. -/
def readQuoted : Quoted → Text → Read Text
  | _, [] => .error .malformed
  | .plain, c :: r =>
    if c = '"' then .ok ([], r)
    else if c = '\\' then readQuoted .escape r
    else if c.val < 0x20 then .error .malformed
    else prepend c (readQuoted .plain r)
  | .escape, c :: r =>
    if c = 'u' then readQuoted (.digits 4 0) r
    else
      match escapedPoint? c with
      | some d => prepend d (readQuoted .plain r)
      | none => .error .malformed
  | .digits missing bits, c :: r =>
    match hexDigit? c with
    | none => .error .malformed
    | some d =>
      if missing ≤ 1 then
        match CodePoint.ofNat? (bits * 16 + d) with
        | some p => prepend p (readQuoted .plain r)
        | none => .error .malformed
      else readQuoted (.digits (missing - 1) (bits * 16 + d)) r

/-- The code point that two halves of a pair make. -/
def pair? (high low : CodePoint) : Option CodePoint :=
  if 0xD800 ≤ high.val ∧ high.val ≤ 0xDBFF ∧ 0xDC00 ≤ low.val ∧ low.val ≤ 0xDFFF then
    CodePoint.ofNat? (0x10000 + (high.val - 0xD800) * 0x400 + (low.val - 0xDC00))
  else none

/-- Makes one code point of each surrogate pair. -/
def joinPairs : Text → Text
  | [] => []
  | [c] => [c]
  | c :: d :: r =>
    match pair? c d with
    | some p => p :: joinPairs r
    | none => c :: joinPairs (d :: r)

/-- The code point is a digit from 0 to 9. -/
def isDigit (c : CodePoint) : Bool := 0x30 ≤ c.val && c.val ≤ 0x39

/-- The part behind a point, and what follows it; a point without a digit is no such part. -/
def takeFraction (t : Text) : Text × Text :=
  match t with
  | [] => ([], [])
  | c :: r =>
    if c = '.' ∧ (r.head?.map isDigit).getD false then
      (c :: r.takeWhile isDigit, r.dropWhile isDigit)
    else ([], t)

/-- The exponent, and what follows it; a letter without a digit behind it is no exponent. -/
def takeExponent (t : Text) : Text × Text :=
  match t with
  | [] => ([], [])
  | c :: r =>
    let (sign, r) :=
      match r with
      | [] => ([], [])
      | d :: r' => if d = '+' ∨ d = '-' then ([d], r') else ([], r)
    if (c = 'e' ∨ c = 'E') ∧ (r.head?.map isDigit).getD false then
      (c :: sign ++ r.takeWhile isDigit, r.dropWhile isDigit)
    else ([], t)

/-- The digits before the point: a zero stands alone. -/
def takeWhole (t : Text) : Text × Text :=
  match t with
  | [] => ([], [])
  | c :: r => if c = '0' then ([c], r) else (t.takeWhile isDigit, t.dropWhile isDigit)

/-- Reads a number. -/
def readNumber (t : Text) : Read Json :=
  let (sign, rest) := match t with
    | [] => ([], [])
    | c :: r => if c = '-' then ([c], r) else ([], t)
  let (whole, rest) := takeWhole rest
  if whole = [] then .error .malformed
  else
    let (fraction, rest) := takeFraction rest
    let (exponent, rest) := takeExponent rest
    if fraction = [] ∧ exponent = [] then
      match Numeral.integer 10 (sign ++ whole) with
      | .ok n => .ok (.int n, rest)
      | .error .tooManyDigits => .error .tooManyDigits
      | .error .malformed => .error .malformed
    else
      match Numeral.real? (sign ++ whole ++ fraction ++ exponent) with
      | some x => .ok (.real x, rest)
      | none => .error .malformed

/-- The values with a word of their own. -/
def words : List (Text × Json) := [
  ("null", .null), ("true", .bool true), ("false", .bool false), ("NaN", .real .nan),
  ("Infinity", .real (.infinity false)), ("-Infinity", .real (.infinity true))]

/-- Reads a word or a number. -/
def readPlain (t : Text) : Read Json :=
  match words.find? fun w => t.startsWith w.1 with
  | some (word, value) => .ok (value, t.drop word.length)
  | none => readNumber t

/-- Reads the mark `c` behind blanks. -/
def readMark (c : CodePoint) (t : Text) : Read Unit :=
  match skipGap t with
  | [] => .error .malformed
  | d :: r => if d = c then .ok ((), r) else .error .malformed

mutual

/-- Reads a value, which begins at once; `fuel` bounds the number of steps. -/
def readValue : (fuel : Nat) → Text → Read Json
  | 0, _ => .error .malformed
  | _ + 1, [] => .error .malformed
  | fuel + 1, c :: r =>
    if c = '"' then (readQuoted .plain r).map fun (t, rest) => (.text (joinPairs t), rest)
    else if c = '[' then
      match readMark ']' r with
      | .ok (_, rest) => .ok (.array [], rest)
      | .error _ => (readElements fuel (skipGap r)).map fun (es, rest) => (.array es, rest)
    else if c = '\x7b' then
      match readMark '\x7d' r with
      | .ok (_, rest) => .ok (.object [], rest)
      | .error _ => (readMembers fuel (skipGap r)).map fun (ms, rest) => (.object ms, rest)
    else readPlain (c :: r)

/-- Reads elements up to the closing bracket. -/
def readElements : (fuel : Nat) → Text → Except ReadError (List Json × Text)
  | 0, _ => .error .malformed
  | fuel + 1, t => do
    let (e, rest) ← readValue fuel t
    match readMark ',' rest with
    | .ok (_, rest) => do
      let (es, rest) ← readElements fuel (skipGap rest)
      return (e :: es, rest)
    | .error _ => do
      let (_, rest) ← readMark ']' rest
      return ([e], rest)

/-- Reads members up to the closing brace. -/
def readMembers : (fuel : Nat) → Text → Except ReadError (List (Text × Json) × Text)
  | 0, _ => .error .malformed
  | fuel + 1, t => do
    let (_, rest) ← readMark '"' t
    let (key, rest) ← readQuoted .plain rest
    let (_, rest) ← readMark ':' rest
    let (v, rest) ← readValue fuel (skipGap rest)
    match readMark ',' rest with
    | .ok (_, rest) => do
      let (ms, rest) ← readMembers fuel (skipGap rest)
      return ((joinPairs key, v) :: ms, rest)
    | .error _ => do
      let (_, rest) ← readMark '\x7d' rest
      return ([(joinPairs key, v)], rest)

end

/-- Reads a text that holds one value. -/
def read (t : Text) : Except ReadError Json := do
  let (value, rest) ← readValue (2 * t.length + 1) (skipGap t)
  if skipGap rest = [] then return value else .error .malformed

end RouteAtlas.Json
