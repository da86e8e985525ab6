import RouteAtlas.Text

/-!
# UTF-8

Writing fails exactly on surrogates. Reading splits the bytes into code points and broken runs; a
broken run is a longest beginning of some encoding, or one byte that begins none. The reader is
told what to put in the place of a run: nothing, a replacement, or failure.
-/

namespace RouteAtlas.Utf8

/-- The bytes of one code point. -/
def encodePoint (c : CodePoint) : List UInt8 :=
  let n := c.val
  if n < 0x80 then [n.toUInt8]
  else if n < 0x800 then [(0xC0 + n / 0x40).toUInt8, (0x80 + n % 0x40).toUInt8]
  else if n < 0x10000 then
    [(0xE0 + n / 0x1000).toUInt8, (0x80 + n / 0x40 % 0x40).toUInt8, (0x80 + n % 0x40).toUInt8]
  else
    [(0xF0 + n / 0x40000).toUInt8, (0x80 + n / 0x1000 % 0x40).toUInt8,
      (0x80 + n / 0x40 % 0x40).toUInt8, (0x80 + n % 0x40).toUInt8]

/-- The bytes of a text, surrogates included, as they would be if surrogates had an encoding. -/
def encodeLoose (t : Text) : ByteArray :=
  ByteArray.mk (t.flatMap encodePoint).toArray

/-- The bytes of a text without surrogates. -/
def encode? (t : Text) : Option ByteArray :=
  if t.any (fun c => decide c.IsSurrogate) then none else some (encodeLoose t)

/-- A code point of which some bytes have been read: how many are missing, the range of the next
one, and the bits so far. -/
structure Pending where
  missing : Nat
  least : UInt8
  greatest : UInt8
  bits : Nat

/-- What a first byte announces; `none` for a byte that begins no encoding of two or more. -/
def lead? (b : UInt8) : Option Pending :=
  if 0xC2 ≤ b && b ≤ 0xDF then some ⟨1, 0x80, 0xBF, b.toNat - 0xC0⟩
  else if b == 0xE0 then some ⟨2, 0xA0, 0xBF, 0⟩
  else if b == 0xED then some ⟨2, 0x80, 0x9F, 0xD⟩
  else if 0xE1 ≤ b && b ≤ 0xEF then some ⟨2, 0x80, 0xBF, b.toNat - 0xE0⟩
  else if b == 0xF0 then some ⟨3, 0x90, 0xBF, 0⟩
  else if b == 0xF4 then some ⟨3, 0x80, 0x8F, 4⟩
  else if 0xF1 ≤ b && b ≤ 0xF3 then some ⟨3, 0x80, 0xBF, b.toNat - 0xF0⟩
  else none

/-- A piece of decoded input: a code point or a broken run. -/
abbrev Piece := Option CodePoint

/-- The code point with these bits; the ranges of `lead?` keep them below the bound. -/
def pointOfBits (n : Nat) : Piece := CodePoint.ofNat? n

/-- Reads a byte outside any encoding. -/
def start (b : UInt8) : Option Pending × List Piece :=
  if b < 0x80 then (none, [pointOfBits b.toNat])
  else
    match lead? b with
    | some p => (some p, [])
    | none => (none, [none])

/-- Reads one byte in the state left by those before it. -/
def step (state : Option Pending) (b : UInt8) : Option Pending × List Piece :=
  match state with
  | none => start b
  | some p =>
    if p.least ≤ b && b ≤ p.greatest then
      let bits := p.bits * 0x40 + (b.toNat - 0x80)
      if p.missing ≤ 1 then (none, [pointOfBits bits])
      else (some ⟨p.missing - 1, 0x80, 0xBF, bits⟩, [])
    else
      let (state', out) := start b
      (state', none :: out)

/-- The code points and broken runs of some bytes, in order. -/
def pieces (bytes : ByteArray) : List Piece :=
  let (state, out) := bytes.foldl
    (fun (acc : Option Pending × Array Piece) b =>
      let (state', new) := step acc.1 b
      (state', new.foldl Array.push acc.2)) (none, #[])
  out.toList ++ (if state.isSome then [none] else [])

/-- Reads bytes and puts `broken` in the place of every broken run. -/
def decodeWith (broken : Text) (bytes : ByteArray) : Text :=
  (pieces bytes).flatMap fun
    | some c => [c]
    | none => broken

/-- Leaves broken runs out. -/
def decodeDropping : ByteArray → Text := decodeWith []

/-- Puts U+FFFD for every broken run. -/
def decodeReplacing : ByteArray → Text := decodeWith [CodePoint.ofChar '\uFFFD']

/-- Reads bytes that hold no broken run. -/
def decode? (bytes : ByteArray) : Option Text := (pieces bytes).mapM id

end RouteAtlas.Utf8
