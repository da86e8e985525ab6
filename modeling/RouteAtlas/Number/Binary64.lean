/-!
# Binary floating point

A number with 53 bits of precision is a sign, a mantissa and a power of two. Every operation here
computes its exact result as a ratio of natural numbers and rounds once, to the nearest value, ties
to the even mantissa.
-/

namespace RouteAtlas

/-- A floating point number of 64 bits: `finite s m e` is `m * 2 ^ e`, negated when `s` is true. -/
inductive Binary64
  | nan
  | infinity (negative : Bool)
  | finite (negative : Bool) (mantissa : Nat) (exponent : Int)
deriving DecidableEq

/-- The quotient of two natural numbers, rounded to the nearest, ties to even. -/
def roundRatio (num den : Nat) : Nat :=
  let q := num / den
  let r := num % den
  if 2 * r < den then q else if den < 2 * r then q + 1 else q + q % 2

namespace Binary64

/-- The mantissa of a normal number is at least this and less than twice this: two to the 52. -/
def hiddenBit : Nat := 0x10000000000000

/-- The scale `2 ^ e` or `10 ^ e` as a ratio of natural numbers. -/
def scale (base : Nat) (e : Int) : Nat × Nat :=
  if 0 ≤ e then (Nat.pow base e.toNat, 1) else (1, Nat.pow base (-e).toNat)

/-- The greatest `e` with `2 ^ e ≤ num / den`, for positive numbers. -/
def binaryOrder (num den : Nat) : Int :=
  let e : Int := (num.log2 : Int) - den.log2
  let (up, down) := scale 2 e
  if den * up ≤ num * down then e else e - 1

/-- The value nearest to `num / den`, with the given sign. -/
def ofRatio (negative : Bool) (num den : Nat) : Binary64 :=
  if num = 0 ∨ den = 0 then finite negative 0 (-1074)
  else
    let e : Int := max (binaryOrder num den - 52) (-1074)
    let (up, down) := scale 2 e
    let m := roundRatio (num * down) (den * up)
    let (m, e) := if m = 2 * hiddenBit then (hiddenBit, e + 1) else (m, e)
    if 971 < e then infinity negative else finite negative m e

/-- The value nearest to `digits * 10 ^ exponent`, with the given sign. -/
def ofDecimal (negative : Bool) (digits : Nat) (exponent : Int) : Binary64 :=
  let order : Int := exponent + (Nat.toDigits 10 digits).length
  if digits = 0 ∨ order < -330 then finite negative 0 (-1074)
  else if 310 < order then infinity negative
  else
    let (up, down) := scale 10 exponent
    ofRatio negative (digits * up) down

/-- The magnitude of a finite value as a ratio. -/
def ratio (mantissa : Nat) (exponent : Int) : Nat × Nat :=
  let (up, down) := scale 2 exponent
  (mantissa * up, down)

/-- The integer that a value equals, if it equals one. -/
def toInt? : Binary64 → Option Int
  | nan => none
  | infinity _ => none
  | finite negative m e =>
    let (num, den) := ratio m e
    if num % den = 0 then
      some (if negative then -((num / den : Nat) : Int) else ((num / den : Nat) : Int))
    else none

/-- Truth of a number: everything but the two zeros. -/
def isNonzero : Binary64 → Bool
  | finite _ m _ => m != 0
  | _ => true

/-- The value with the opposite sign. -/
def neg : Binary64 → Binary64
  | nan => nan
  | infinity s => infinity !s
  | finite s m e => finite (!s) m e

/-- The sum, rounded once; the sum of two zeros is negative only if both are. -/
def add : Binary64 → Binary64 → Binary64
  | nan, _ => nan
  | _, nan => nan
  | infinity s, infinity t => if s = t then infinity s else nan
  | infinity s, finite .. => infinity s
  | finite .., infinity t => infinity t
  | finite s m e, finite t n f =>
    let (num₁, den₁) := ratio m e
    let (num₂, den₂) := ratio n f
    let a : Int := (if s then -1 else 1) * (num₁ * den₂ : Nat)
    let b : Int := (if t then -1 else 1) * (num₂ * den₁ : Nat)
    if a + b = 0 then finite (s && t) 0 (-1074)
    else ofRatio (decide (a + b < 0)) (a + b).natAbs (den₁ * den₂)

/-- The product with a natural number that is itself rounded to a value first. -/
def mulNat (x : Binary64) (k : Nat) : Binary64 :=
  match x, ofRatio false k 1 with
  | nan, _ => nan
  | infinity s, finite _ n _ => if n = 0 then nan else infinity s
  | infinity s, _ => infinity s
  | finite s m _, infinity _ => if m = 0 then nan else infinity s
  | finite _ _ _, nan => nan
  | finite s m e, finite _ n f =>
    let (num₁, den₁) := ratio m e
    let (num₂, den₂) := ratio n f
    ofRatio s (num₁ * num₂) (den₁ * den₂)

end Binary64

end RouteAtlas
