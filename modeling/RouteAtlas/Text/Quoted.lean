import RouteAtlas.Text

/-!
# Quoted text

A text for a reader who must see every code point: in quotes, with escapes for what does not show.
Single quotes are used unless they stand in the text and double quotes do not.
-/

namespace RouteAtlas

/-- The code point shows nothing: a control, a format or private code point, a surrogate, or a
blank other than the space. -/
def CodePoint.isHidden (c : CodePoint) : Bool :=
  let n := c.val
  n < 0x20 || (0x7F ≤ n && n ≤ 0xA0) || n == 0xAD || (0x600 ≤ n && n ≤ 0x605) || n == 0x61C
    || n == 0x6DD || n == 0x70F || n == 0x890 || n == 0x891 || n == 0x8E2 || n == 0x1680
    || n == 0x180E || (0x2000 ≤ n && n ≤ 0x200F) || (0x2028 ≤ n && n ≤ 0x202F)
    || (0x205F ≤ n && n ≤ 0x206F) || n == 0x3000 || (0xD800 ≤ n && n ≤ 0xF8FF) || n == 0xFEFF
    || (0xFFF0 ≤ n && n ≤ 0xFFFB) || n == 0xFFFE || n == 0xFFFF || 0xE0000 ≤ n

namespace Text

/-- The last `places` hexadecimal digits of a number. -/
def hexDigits : (places : Nat) → Nat → Text
  | 0, _ => []
  | places + 1, n => hexDigits places (n / 16) ++ [CodePoint.ofChar (Nat.digitChar (n % 16))]

/-- A code point between quotes. -/
def quotedPoint (quote c : CodePoint) : Text :=
  let n := c.val
  if c = quote ∨ c = '\\' then ['\\', c]
  else if c = '\n' then "\\n"
  else if c = '\r' then "\\r"
  else if c = '\t' then "\\t"
  else if c.isHidden then
    if n < 0x100 then Text.ofString "\\x" ++ hexDigits 2 n
    else if n < 0x10000 then Text.ofString "\\u" ++ hexDigits 4 n
    else Text.ofString "\\U" ++ hexDigits 8 n
  else [c]

/-- A text in quotes. -/
def quoted (t : Text) : Text :=
  let single := CodePoint.ofChar '\''
  let double := CodePoint.ofChar '"'
  let quote := if single ∈ t ∧ double ∉ t then double else single
  quote :: t.flatMap (quotedPoint quote) ++ [quote]

end Text

end RouteAtlas
