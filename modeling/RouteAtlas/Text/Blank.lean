import RouteAtlas.Text

/-!
# White space

Two sets of blanks are in use. `CodePoint.IsBlank` is Unicode's `White_Space` with the four
information separators, and is what trimming a text removes. The ASCII blanks around a numeral are
the six that every table of ASCII names.
-/

namespace RouteAtlas

/-- White space of Unicode, and the information separators U+001C to U+001F. -/
def CodePoint.isBlank (c : CodePoint) : Bool :=
  let n := c.val
  (0x09 ≤ n && n ≤ 0x0D) || (0x1C ≤ n && n ≤ 0x20) || n == 0x85 || n == 0xA0 || n == 0x1680
    || (0x2000 ≤ n && n ≤ 0x200A) || n == 0x2028 || n == 0x2029 || n == 0x202F || n == 0x205F
    || n == 0x3000

/-- Removes the blanks at both ends. -/
def Text.strip (t : Text) : Text := t.trimBy CodePoint.isBlank

end RouteAtlas
