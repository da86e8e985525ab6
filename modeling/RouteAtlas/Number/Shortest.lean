import RouteAtlas.Number.Binary64
import RouteAtlas.Text

/-!
# Decimal text of a floating point number

The digits of a number are the fewest that read back as the same number, and among those the
nearest. The search tries the grids of one to seventeen digits in turn and looks at the two grid
points around the number, in exact arithmetic.
-/

namespace RouteAtlas.Binary64

/-- A positive decimal: the digits of `digits`, of which `point` stand before the decimal point. -/
structure Digits where
  digits : Nat
  point : Int

/-- The least `p` with `num / den < 10 ^ p`, found next to an estimate from the binary order. -/
def decimalOrder (num den : Nat) : Int :=
  let estimate : Int := (binaryOrder num den * 30103).fdiv 100000
  let below (p : Int) : Bool :=
    let (up, down) := scale 10 p
    num * down < den * up
  if below estimate then estimate
  else if below (estimate + 1) then estimate + 1
  else estimate + 2

/-- The grid point with spacing `10 ^ k` that reads back as the number `m * 2 ^ e`, if the grid has
one. The numbers that round to `m * 2 ^ e` lie between two half steps, and the half steps count
when `m` is even; below a power of two the step is half as long. -/
def onGrid? (m : Nat) (e k : Int) : Option Nat :=
  let (up₂, down₂) := scale 2 (e - 2)
  let (up₁₀, down₁₀) := scale 10 k
  let a := up₂ * down₁₀
  let b := down₂ * up₁₀
  let low := (4 * m - (if m = hiddenBit ∧ -1074 < e then 1 else 2)) * a
  let high := (4 * m + 2) * a
  let fits (c : Nat) : Bool :=
    if m % 2 = 0 then low ≤ c * b && c * b ≤ high else low < c * b && c * b < high
  let value := 4 * m * a
  let c := value / b
  match fits c, fits (c + 1) with
  | true, true =>
    let below := value - c * b
    let above := (c + 1) * b - value
    some (if below < above then c else if above < below then c + 1 else c + c % 2)
  | true, false => some c
  | false, true => some (c + 1)
  | false, false => none

/-- Tries the grids with `n`, `n + 1`, … digits, `tries` of them. -/
def searchGrid (m : Nat) (e order : Int) : (tries n : Nat) → Nat × Int
  | 0, n => (roundRatio ((ratio m e).1 * (scale 10 (order - n)).2)
      ((ratio m e).2 * (scale 10 (order - n)).1), order - n)
  | tries + 1, n =>
    match onGrid? m e (order - n) with
    | some c => (c, order - n)
    | none => searchGrid m e order tries (n + 1)

/-- Drops trailing zeros, at most `fuel` of them. -/
def dropZeros : (fuel c : Nat) → (k : Int) → Nat × Int
  | 0, c, k => (c, k)
  | fuel + 1, c, k => if c ≠ 0 ∧ c % 10 = 0 then dropZeros fuel (c / 10) (k + 1) else (c, k)

/-- The fewest digits that read back as the positive number `m * 2 ^ e`. -/
def shortest (m : Nat) (e : Int) : Digits :=
  let (num, den) := ratio m e
  let (c, k) := searchGrid m e (decimalOrder num den) 16 1
  let (c, k) := dropZeros 17 c k
  ⟨c, k + (Nat.toDigits 10 c).length⟩

/-- A number from `10 ^ -4` to below `10 ^ 16` is written positionally and keeps a zero after the
point; any other has one digit before the point and an exponent of at least two digits. -/
def Digits.toString (d : Digits) : String :=
  let cs := Nat.toDigits 10 d.digits
  let zeros (n : Nat) : List Char := List.replicate n '0'
  if -4 < d.point ∧ d.point ≤ 16 then
    if d.point ≤ 0 then String.ofList ("0.".toList ++ zeros (-d.point).toNat ++ cs)
    else
      let n := d.point.toNat
      let whole := cs.take n ++ zeros (n - cs.length)
      let part := cs.drop n
      String.ofList (whole ++ '.' :: (if part.isEmpty then ['0'] else part))
  else
    let exponent := d.point - 1
    let size := Nat.toDigits 10 exponent.natAbs
    let size := if size.length < 2 then '0' :: size else size
    let mantissa :=
      match cs with
      | [] => ['0']
      | [c] => [c]
      | c :: rest => c :: '.' :: rest
    String.ofList (mantissa ++ 'e' :: (if exponent < 0 then '-' else '+') :: size)

/-- The decimal text of a number. -/
def toText : Binary64 → Text
  | nan => "nan"
  | infinity negative => if negative then "-inf" else "inf"
  | finite negative m e =>
    let text := if m = 0 then "0.0" else (shortest m e).toString
    if negative then ("-" ++ text : String) else text

end RouteAtlas.Binary64
