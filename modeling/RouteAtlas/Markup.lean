import RouteAtlas.Text

/-!
# Markup

A page is a sequence of fixed pieces of markup and of values. Only values are escaped, so a value
can neither open nor close a tag.
-/

namespace RouteAtlas

/-- A part of a page. -/
inductive Markup
  | fixed (text : String)
  | value (text : Text)

namespace Markup

/-- The reference that stands for a code point which markup gives a meaning. -/
def reference? (c : CodePoint) : Option String :=
  if c = '&' then some "&amp;"
  else if c = '<' then some "&lt;"
  else if c = '>' then some "&gt;"
  else if c = '"' then some "&#34;"
  else if c = '\'' then some "&#39;"
  else none

/-- A text with a reference for every code point that needs one. -/
def escape (t : Text) : Text :=
  t.flatMap fun c =>
    match reference? c with
    | some r => Text.ofString r
    | none => [c]

/-- The text of a part. -/
def toText : Markup → Text
  | fixed s => s
  | value t => escape t

/-- The text of a page. -/
def render (page : List Markup) : Text := page.flatMap toText

end Markup

end RouteAtlas
