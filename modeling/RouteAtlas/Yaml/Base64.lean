import RouteAtlas.Text

/-!
# Base 64

Four characters stand for three bytes. Characters without a meaning are skipped, and reading ends
where a group is filled up with equals signs.
-/

namespace RouteAtlas.Yaml.Base64

/-- The value of a character. -/
def digit? (c : Char) : Option Nat :=
  if 'A' ≤ c ∧ c ≤ 'Z' then some (c.toNat - 0x41)
  else if 'a' ≤ c ∧ c ≤ 'z' then some (c.toNat - 0x61 + 26)
  else if '0' ≤ c ∧ c ≤ '9' then some (c.toNat - 0x30 + 52)
  else if c = '+' then some 62
  else if c = '/' then some 63
  else none

/-- Reads on, given how many characters of the group were read, the bits left over from them, and
the equals signs since. A group that is not complete at the end is an error. -/
def decodeFrom : (place bits pads : Nat) → List Char → Option (List UInt8)
  | place, _, _, [] => if place = 0 then some [] else none
  | place, bits, pads, c :: cs =>
    if c = '=' then
      if 2 ≤ place ∧ 4 ≤ place + (pads + 1) then some []
      else decodeFrom place bits (if 2 ≤ place then pads + 1 else pads) cs
    else
      match digit? c with
      | none => decodeFrom place bits pads cs
      | some d =>
        match place with
        | 0 => decodeFrom 1 d 0 cs
        | 1 => (decodeFrom 2 (d % 16) 0 cs).map ((bits * 4 + d / 16).toUInt8 :: ·)
        | 2 => (decodeFrom 3 (d % 4) 0 cs).map ((bits * 16 + d / 4).toUInt8 :: ·)
        | _ => (decodeFrom 0 0 0 cs).map ((bits * 64 + d).toUInt8 :: ·)

/-- Reads bytes. -/
def decode? (cs : List Char) : Option (List UInt8) := decodeFrom 0 0 0 cs

end RouteAtlas.Yaml.Base64
