import RouteAtlas.Text.Quoted
import RouteAtlas.Value

/-!
# Log messages

A message is a pattern with places for values. A place begins with a percent sign and ends with the
letter of a form; flags, a width, a number of digits and the mark of a length may stand in between,
and a star takes the width or the number of digits from the values. Two percent signs stand for one.
A pattern without values is the message as it is. Values and places must match in number and kind.
-/

namespace RouteAtlas.Log

/-- A place for a value in a pattern. -/
structure Slot where
  left : Bool
  zeros : Bool
  plus : Bool
  blank : Bool
  marked : Bool
  width : Nat
  digits : Option Nat
deriving DecidableEq

/-- A place without flags. -/
def Slot.plain : Slot := ⟨false, false, false, false, false, 0, none⟩

/-- Fills a text up to a width. -/
def Slot.pad (s : Slot) (t : Text) : Text :=
  let gap := List.replicate (s.width - t.length) (CodePoint.ofChar ' ')
  if s.left then t ++ gap else gap ++ t

/-- The sign of a number in a place. -/
def Slot.sign (s : Slot) (negative : Bool) : Text :=
  if negative then "-" else if s.plus then "+" else if s.blank then " " else []

/-- A number in a place: its sign and its mark, zeros or blanks, and its digits. -/
def Slot.number (s : Slot) (negative : Bool) (mark body : Text) : Text :=
  let front := s.sign negative ++ mark
  if s.zeros && !s.left then
    front ++ List.replicate (s.width - (front.length + body.length)) (CodePoint.ofChar '0') ++ body
  else s.pad (front ++ body)

/-- Characters of a number, in upper case if the letter of the form is. -/
def cased (upper : Bool) (cs : List Char) : Text :=
  cs.map fun c => CodePoint.ofChar (if upper then c.toUpper else c)

/-- The digits of a number, at least as many as the place wants. -/
def Slot.body (s : Slot) (digits : Text) : Text :=
  List.replicate (s.digits.getD 0 - digits.length) (CodePoint.ofChar '0') ++ digits

/-- The integer that a value stands for; a truth value is one or zero. -/
def integer? : Value → Option Int
  | .int n => some n
  | .bool b => some (if b then 1 else 0)
  | _ => none

/-- The integer part of a value. -/
def wholePart? : Value → Option Int
  | .real (.finite negative m e) =>
    let (num, den) := Binary64.ratio m e
    let n : Int := num / den
    some (if negative then -n else n)
  | v => integer? v

/-- The number that a value stands for; an integer beyond the greatest number stands for none. -/
def number? : Value → Option Binary64
  | .real x => some x
  | v =>
    match (integer? v).map fun n => Binary64.ofRatio (decide (n < 0)) n.natAbs 1 with
    | some (.infinity _) => none
    | x => x

/-- Digits in front of the point and behind it. A point behind which nothing comes is written only
on request. -/
def pointed (marked : Bool) (whole part : List Char) : List Char :=
  whole ++ if part.isEmpty && !marked then [] else '.' :: part

/-- A ratio with a fixed number of digits behind the point. -/
def fixedPoint (marked : Bool) (places num den : Nat) : List Char :=
  let digits := Nat.toDigits 10 (roundRatio (num * Nat.pow 10 places) den)
  let digits := List.replicate (places + 1 - digits.length) '0' ++ digits
  pointed marked (digits.take (digits.length - places)) (digits.drop (digits.length - places))

/-- The first digits of a ratio, rounded to a number of them, and how many come before the point. -/
def firstDigits (count num den : Nat) : List Char × Int :=
  if num = 0 then (List.replicate count '0', 1)
  else
    let order := Binary64.decimalOrder num den
    let (up, down) := Binary64.scale 10 (order - count)
    let digits := Nat.toDigits 10 (roundRatio (num * down) (den * up))
    -- rounding up may have made a digit more
    (digits.take count, order + (digits.length - count : Nat))

/-- Digits with one of them in front of the point, and a power of ten. -/
def powered (marked : Bool) (digits : List Char) (point : Int) : List Char :=
  let power := Nat.toDigits 10 (point - 1).natAbs
  pointed marked (digits.take 1) (digits.drop 1) ++ ['e', if point < 1 then '-' else '+']
    ++ List.replicate (2 - power.length) '0' ++ power

/-- A ratio with a power of ten and a fixed number of digits behind the point. -/
def scientific (marked : Bool) (places num den : Nat) : List Char :=
  let (digits, point) := firstDigits (places + 1) num den
  powered marked digits point

/-- A ratio with a number of digits, and with a power of ten only if it is very small or has more
digits than that in front of the point. Zeros at the end are written only on request. -/
def general (marked : Bool) (count num den : Nat) : List Char :=
  let count := max count 1
  let (digits, point) := firstDigits count num den
  let digits := if marked then digits else (digits.reverse.dropWhile (· = '0')).reverse
  if point ≤ -4 ∨ count < point then powered marked digits point
  else if point ≤ 0 then pointed marked ['0'] (List.replicate (-point).toNat '0' ++ digits)
  else
    let whole := digits.take point.toNat
    pointed marked (whole ++ List.replicate (point.toNat - whole.length) '0')
      (digits.drop point.toNat)

/-- A number in a place, its magnitude in a notation. -/
def Slot.real (s : Slot) (upper : Bool) (notated : Bool → Nat → Nat → Nat → List Char) :
    Binary64 → Text
  | .nan => s.number false [] (cased upper "nan".toList)
  | .infinity negative => s.number negative [] (cased upper "inf".toList)
  | .finite negative m e =>
    let (num, den) := Binary64.ratio m e
    s.number negative [] (cased upper (notated s.marked (s.digits.getD 6) num den))

/-- The text of a value for a reader who must see its kind. -/
def shown? : Value → Option Text
  | .text t => some t.quoted
  | v => v.toText?

/-- A text with its other code points escaped, so that only ASCII is left. -/
def asciiOnly (t : Text) : Text :=
  t.flatMap fun c =>
    let n := c.val
    if n < 0x80 then [c]
    else if n < 0x100 then Text.ofString "\\x" ++ Text.hexDigits 2 n
    else if n < 0x10000 then Text.ofString "\\u" ++ Text.hexDigits 4 n
    else Text.ofString "\\U" ++ Text.hexDigits 8 n

/-- A text in a place, cut to the number of digits. -/
def Slot.text (s : Slot) (t : Text) : Text :=
  s.pad (match s.digits with
    | some n => t.take n
    | none => t)

/-- An integer in a place, in base ten. -/
def Slot.decimal (s : Slot) (v : Value) : Option Text := do
  let n ← wholePart? v
  let digits ← Numeral.decimal? n.natAbs
  return s.number (decide (n < 0)) [] (s.body digits)

/-- An integer in a place, in a base that a mark can name. -/
def Slot.based (s : Slot) (upper : Bool) (base : Nat) (mark : Text) (v : Value) : Option Text :=
  (integer? v).map fun n =>
    s.number (decide (n < 0)) (if s.marked then mark else [])
      (s.body (cased upper (Nat.toDigits base n.natAbs)))

/-- A value in a place whose form has a letter. -/
def Slot.fill (s : Slot) (form : Char) (v : Value) : Option Text :=
  match form with
  | 's' => v.toText?.map s.text
  | 'r' => (shown? v).map s.text
  | 'a' => (shown? v).map fun t => s.text (asciiOnly t)
  | 'd' => s.decimal v
  | 'i' => s.decimal v
  | 'u' => s.decimal v
  | 'x' => s.based false 16 "0x" v
  | 'X' => s.based true 16 "0X" v
  | 'o' => s.based false 8 "0o" v
  | 'f' => (number? v).map (s.real false fixedPoint)
  | 'F' => (number? v).map (s.real true fixedPoint)
  | 'e' => (number? v).map (s.real false scientific)
  | 'E' => (number? v).map (s.real true scientific)
  | 'g' => (number? v).map (s.real false general)
  | 'G' => (number? v).map (s.real true general)
  | 'c' =>
    match v with
    | .text [c] => some (s.pad [c])
    | v =>
      match integer? v with
      | some (.ofNat n) => (CodePoint.ofNat? n).map fun c => s.pad [c]
      | _ => none
  | _ => none

/-- How far a place has been read: to its flags, into its width, behind a width that was a value, to
its number of digits, into it, behind one that was a value, or behind the mark of a length. -/
inductive Stage
  | flags
  | width
  | widthGiven
  | point
  | digits
  | digitsGiven
  | length
deriving DecidableEq

/-- Where reading a pattern stands: in text, or in a place. -/
inductive Reading
  | text
  | slot (stage : Stage) (s : Slot)

/-- Adds a flag to a place. -/
def Slot.flag? (s : Slot) (c : CodePoint) : Option Slot :=
  if c = '-' then some { s with left := true }
  else if c = '0' then some { s with zeros := true }
  else if c = '+' then some { s with plus := true }
  else if c = ' ' then some { s with blank := true }
  else if c = '#' then some { s with marked := true }
  else none

/-- Gives a place a width, unless it is too great. -/
def Slot.widen? (s : Slot) (n : Nat) : Option Slot :=
  if n < 0x8000000000000000 then some { s with width := n } else none

/-- Gives a place a number of digits, unless it is too great. -/
def Slot.lengthen? (s : Slot) (n : Nat) : Option Slot :=
  if n < 0x80000000 then some { s with digits := some n } else none

/-- Gives a place the width that a value stands for; a negative one is that of a place whose value
stands at the left. -/
def Slot.widenBy? (s : Slot) (v : Value) : Option Slot :=
  (integer? v).bind fun n => { s with left := s.left || decide (n < 0) }.widen? n.natAbs

/-- Gives a place the number of digits that a value stands for; a negative one is none. -/
def Slot.lengthenBy? (s : Slot) (v : Value) : Option Slot :=
  (integer? v).bind fun n => if n < -0x80000000 then none else s.lengthen? n.toNat

/-- Goes on with a place where a point or the mark of a length may come. -/
def Slot.later? (s : Slot) (withPoint : Bool) (c : CodePoint) : Option Reading :=
  if withPoint && decide (c = '.') then some (.slot .point { s with digits := some 0 })
  else if c = 'h' ∨ c = 'l' ∨ c = 'L' then some (.slot .length s)
  else none

/-- Goes on with a place where its next character does not end it. A star takes a value. -/
def Slot.next? (s : Slot) (stage : Stage) (c : CodePoint) (values : List Value) :
    Option (Reading × List Value) :=
  let digit := c.asciiDigit?
  let starred (give : Value → Option Slot) (stage : Stage) : Option (Reading × List Value) :=
    match values with
    | v :: rest => (give v).map fun s => (.slot stage s, rest)
    | [] => none
  match stage with
  | .flags =>
    match s.flag? c, digit with
    | some s, _ => some (.slot .flags s, values)
    | none, some d => (s.widen? d).map fun s => (.slot .width s, values)
    | none, none =>
      if c = '*' then starred s.widenBy? .widthGiven
      else (s.later? true c).map (·, values)
  | .width =>
    match digit with
    | some d => (s.widen? (s.width * 10 + d)).map fun s => (.slot .width s, values)
    | none => (s.later? true c).map (·, values)
  | .widthGiven => (s.later? true c).map (·, values)
  | .point =>
    match digit with
    | some d => (s.lengthen? d).map fun s => (.slot .digits s, values)
    | none =>
      if c = '*' then starred s.lengthenBy? .digitsGiven
      else (s.later? false c).map (·, values)
  | .digits =>
    match digit with
    | some d => (s.lengthen? (s.digits.getD 0 * 10 + d)).map fun s => (.slot .digits s, values)
    | none => (s.later? false c).map (·, values)
  | .digitsGiven => (s.later? false c).map (·, values)
  | .length => none

/-- Ends a place with the letter of its form, and fills in the next value. A percent sign right
behind the first one takes no value. -/
def Slot.close (s : Slot) (stage : Stage) (c : CodePoint) (values : List Value) :
    Option (Text × List Value) :=
  if c = '%' ∧ stage = .flags ∧ s = .plain then some ([c], values)
  else
    match values with
    | v :: rest => (c.toChar?.bind fun form => s.fill form v).map (·, rest)
    | [] => none

/-- Fills values into a pattern. -/
def fillFrom : Reading → Text → List Value → Option Text
  | .text, [], [] => some []
  | _, [], _ => none
  | .text, c :: rest, values =>
    if c = '%' then fillFrom (.slot .flags .plain) rest values
    else (fillFrom .text rest values).map (c :: ·)
  | .slot stage s, c :: rest, values =>
    match s.next? stage c values with
    | some (state, values) => fillFrom state rest values
    | none =>
      match s.close stage c values with
      | some (t, values) => (fillFrom .text rest values).map (t ++ ·)
      | none => none

/-- The message of a pattern and its values. -/
def fill (pattern : Text) (values : List Value) : Option Text :=
  if values.isEmpty then some pattern else fillFrom .text pattern values

example : fill "%-*d|%#.3g|%%" [.int 4, .int 7, .int 1] = some "7   |1.00|%" := rfl

end RouteAtlas.Log
