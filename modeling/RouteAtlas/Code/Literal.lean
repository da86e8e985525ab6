import RouteAtlas.Value

/-!
# Literal and comment text

How the text of an escape sequence, a number or a comment is read. Reading an escape fails in one
case only: it names a number too large to be tried as a code point. A number in a base other than
ten, or without a fraction, keeps its exact value.
-/

namespace RouteAtlas

/-- Why a literal could not be read. -/
inductive LiteralError
  | codePointOutOfRange
deriving DecidableEq

namespace Literal

/-- The letters that name a control character after a backslash. -/
def controlEscape? (c : CodePoint) : Option CodePoint :=
  if c = 'n' then some '\n'
  else if c = 't' then some '\t'
  else if c = 'r' then some '\r'
  else if c = 'b' then some '\x08'
  else if c = 'f' then some '\x0c'
  else if c = 'v' then some '\x0b'
  else if c = '0' then some '\x00'
  else none

/-- The braces that may surround the digits of an escape. -/
def isBrace (c : CodePoint) : Bool := c = '\x7b' || c = '\x7d'

/-- Code point numbers are tried up to this one. -/
def escapeBound : Int := 0x80000000

/-- The text of an escape sequence, whose first code point is the backslash. A hexadecimal escape
that names no code point stands for its own text, as does any unknown escape; a backslash at the
end of a line joins it to the next. -/
def escape (sequence : Text) : Except LiteralError Text :=
  match sequence.drop 1 with
  | [] => .ok []
  | head :: rest =>
    if head = 'u' ∨ head = 'x' then
      match Numeral.integer 16 (Text.trimBy isBrace rest) with
      | .error _ => .ok (head :: rest)
      | .ok n =>
        if n < -escapeBound ∨ escapeBound ≤ n then .error .codePointOutOfRange
        else if n < 0 then .ok (head :: rest)
        else
          match CodePoint.ofNat? n.toNat with
          | some c => .ok [c]
          | none => .ok (head :: rest)
    else if head = '\n' ∨ head = '\r' then .ok []
    else
      match controlEscape? head with
      | some c => .ok [c]
      | none => .ok (head :: rest)

/-- The value of a number: an integer if it is one, after separators and one `n` at the end are
left out. Text that is no number has no value. -/
def number (text : Text) : Value :=
  let digits : Text := text.filter (· ≠ CodePoint.ofChar '_')
  let digits := if digits.getLast? = some (CodePoint.ofChar 'n') then digits.dropLast else digits
  match Numeral.anyInteger digits with
  | .ok n => .int n
  | .error _ =>
    match Numeral.real? digits with
    | none => .null
    | some x =>
      match x.toInt? with
      | some n => .int n
      | none => .real x

/-- The text of a comment without its marks. -/
def comment (text : Text) : Text :=
  if text.startsWith "//" then text.drop 2
  else if text.startsWith "/*" && text.endsWith "*/" then (text.take (text.length - 2)).drop 2
  else text

end Literal

end RouteAtlas
