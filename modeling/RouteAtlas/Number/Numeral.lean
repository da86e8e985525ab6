import RouteAtlas.Number.Binary64
import RouteAtlas.Number.Digit
import RouteAtlas.Text.Blank

/-!
# Reading numerals

A numeral may stand between blanks, may have a sign, and may use the decimal digits of any script.
An integer numeral in a base that is no power of two has at most 4300 digits, and the same bound
holds for the decimal text of an integer.
-/

namespace RouteAtlas.Numeral

/-- The greatest number of decimal digits that are read or written. -/
def digitLimit : Nat := 4300

/-- Why a text is no integer. -/
inductive IntegerError
  | malformed
  | tooManyDigits
deriving DecidableEq

/-- A numeral in ASCII: digits of other scripts become ASCII digits and blanks become spaces; a code
point that has no place in a numeral becomes `?`. -/
def toAscii (t : Text) : List Char :=
  t.map fun c =>
    if c.val < 127 then (c.toChar?.getD '?')
    else if c.isBlank then ' '
    else
      match c.decimalDigit? with
      | some d => Nat.digitChar d
      | none => '?'

/-- The blanks of ASCII. -/
def isAsciiBlank (c : Char) : Bool := c == ' ' || (0x09 ≤ c.toNat && c.toNat ≤ 0x0D)

/-- Removes the ASCII blanks at both ends. -/
def trim (cs : List Char) : List Char :=
  ((cs.dropWhile isAsciiBlank).reverse.dropWhile isAsciiBlank).reverse

/-- Splits off a sign; true means negative. -/
def splitSign : List Char → Bool × List Char
  | '-' :: r => (true, r)
  | '+' :: r => (false, r)
  | cs => (false, cs)

/-- The value of a digit or letter in bases up to 36. -/
def digitValue? (c : Char) : Option Nat :=
  let n := c.toNat
  if 0x30 ≤ n && n ≤ 0x39 then some (n - 0x30)
  else if 0x61 ≤ n && n ≤ 0x7A then some (n - 0x61 + 10)
  else if 0x41 ≤ n && n ≤ 0x5A then some (n - 0x41 + 10)
  else none

/-- Reads digits with single underscores between them: their value and their number. -/
def digits? (base : Nat) : List Char → Option (Nat × Nat)
  | [] => none
  | c :: r =>
    let rec go : List Char → Nat → Nat → Option (Nat × Nat)
      | [], value, count => some (value, count)
      | '_' :: d :: r, value, count =>
        match digitValue? d with
        | some v => if v < base then go r (value * base + v) (count + 1) else none
        | none => none
      | d :: r, value, count =>
        match digitValue? d with
        | some v => if v < base then go r (value * base + v) (count + 1) else none
        | none => none
    match digitValue? c with
    | some v => if v < base then go r v 1 else none
    | none => none

/-- The base that the letter after a leading zero names. -/
def namedBase? (c : Char) : Option Nat :=
  if c == 'x' || c == 'X' then some 16
  else if c == 'o' || c == 'O' then some 8
  else if c == 'b' || c == 'B' then some 2
  else none

/-- The digits after a base name, where one underscore may come first. -/
def afterBase : List Char → List Char
  | '_' :: r => r
  | cs => cs

/-- The digits of a numeral in `base`, which may repeat the base by name. -/
def withoutBaseName (base : Nat) : List Char → List Char
  | '0' :: c :: r => if namedBase? c = some base then afterBase r else '0' :: c :: r
  | cs => cs

/-- Reads unsigned digits in `base` and applies the limit on their number. -/
def magnitude (base : Nat) (cs : List Char) : Except IntegerError Nat :=
  match digits? base cs with
  | none => .error .malformed
  | some (value, count) =>
    if base = 10 ∧ digitLimit < count then .error .tooManyDigits else .ok value

/-- Reads an integer in `base`; a base of 2, 8 or 16 may be repeated by name. -/
def integer (base : Nat) (t : Text) : Except IntegerError Int :=
  let (negative, cs) := splitSign (trim (toAscii t))
  (magnitude base (withoutBaseName base cs)).map fun n => if negative then -(n : Int) else n

/-- Reads an integer whose base is ten unless it names another. A decimal integer that begins with
a zero has no other digit. -/
def anyInteger (t : Text) : Except IntegerError Int :=
  let (negative, cs) := splitSign (trim (toAscii t))
  let value :=
    match cs with
    | '0' :: c :: r =>
      match namedBase? c with
      | some base => magnitude base (afterBase r)
      | none => (magnitude 10 cs).bind fun n => if n = 0 then .ok n else .error .malformed
    | _ => magnitude 10 cs
  value.map fun n => if negative then -(n : Int) else n

/-- A run of decimal digits at the front: their value, their number, and the rest. -/
def takeDigits : List Char → Nat → Nat → Nat × Nat × List Char
  | [], value, count => (value, count, [])
  | c :: r, value, count =>
    if c.isDigit then takeDigits r (value * 10 + (c.toNat - 0x30)) (count + 1)
    else (value, count, c :: r)

/-- The exponent at the end of a decimal numeral; nothing is an exponent of zero. -/
def exponent? : List Char → Option Int
  | [] => some 0
  | c :: r =>
    if c == 'e' || c == 'E' then
      let (negative, r) := splitSign r
      let (value, count, rest) := takeDigits r 0 0
      if count = 0 ∨ rest ≠ [] then none else some (if negative then -(value : Int) else value)
    else none

/-- Reads a decimal numeral, or `inf`, `infinity` or `nan` in any case, to the nearest value. -/
def real? (t : Text) : Option Binary64 :=
  let (negative, cs) := splitSign (trim (toAscii t))
  let word := String.ofList (cs.map Char.toLower)
  if word = "inf" ∨ word = "infinity" then some (.infinity negative)
  else if word = "nan" then some .nan
  else
    let (whole, wholeCount, rest) := takeDigits cs 0 0
    let (value, partCount, rest) :=
      match rest with
      | '.' :: r =>
        let (value, count, rest) := takeDigits r whole 0
        (value, count, rest)
      | rest => (whole, 0, rest)
    if wholeCount + partCount = 0 then none
    else (exponent? rest).map fun e => .ofDecimal negative value (e - partCount)

/-- The decimal text of an integer, unless it has too many digits. -/
def decimal? (n : Int) : Option Text :=
  if digitLimit < (Nat.toDigits 10 n.natAbs).length then none else some (Text.ofString (toString n))

end RouteAtlas.Numeral
