import RouteAtlas.Text.Utf8

/-!
# Names as bytes

The names of a file tree are bytes. A byte that is no part of UTF-8 stands in a text as an escape, a
low surrogate from U+DC80 to U+DCFF; other surrogates have no bytes. Escapes whose bytes together
are a code point lead to the same name as the code point, and the file tree spells it with the code
point.
-/

namespace RouteAtlas

namespace CodePoint

/-- The byte that an escape stands for. -/
def escapedByte? (c : CodePoint) : Option UInt8 :=
  if 0xDC80 ≤ c.val ∧ c.val ≤ 0xDCFF then some (c.val - 0xDC00).toUInt8 else none

/-- The code point can be part of a name. -/
def hasBytes (c : CodePoint) : Bool := !decide c.IsSurrogate || c.escapedByte?.isSome

end CodePoint

namespace Name

/-- The most bytes that a name can have. -/
def limit : Nat := 255

/-- The number of bytes of a name. -/
def size : Text → Nat
  | [] => 0
  | c :: rest =>
    (if c.escapedByte?.isSome then 1 else (Utf8.encodePoint c).length) + size rest

/-- Spells a text anew after some escapes that begin a code point: `state` is what their bytes
announce, and `held` are the escapes themselves. -/
def respellAfter (state : Option Utf8.Pending) (held : Text) : Text → Text
  | [] => held
  | c :: rest =>
    match c.escapedByte? with
    | none => held ++ c :: respellAfter none [] rest
    | some b =>
      match Utf8.step state b with
      | (none, [some point]) => point :: respellAfter none [] rest
      | (none, _) => held ++ c :: respellAfter none [] rest
      | (some pending, []) => respellAfter (some pending) (held ++ [c]) rest
      | (some pending, _) => held ++ respellAfter (some pending) [c] rest

/-- Puts code points in the place of the escapes that spell them. -/
def respell : Text → Text := respellAfter none []

end Name

end RouteAtlas
