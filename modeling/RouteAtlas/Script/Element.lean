import RouteAtlas.Script.Function

/-!
# Elements

Elements are markup inside a script. Between tags everything is text up to the next tag or brace;
an expression may stand in braces.
-/

namespace RouteAtlas.Script.Parse

variable (sub : Sub)

/-- The name of an element or an attribute: names with hyphens, points and colons. -/
def elementName : Parse Tree := do
  let p ← advance
  let s ← source
  require (isNameStart (s.charAt p))
  let q := s.skipWhile (fun c => isNamePart c || c == '-' || c == '.' || c == ':') p
  goTo q
  return leaf "identifier" p q

/-- An expression in braces, which may be missing. -/
def elementExpression : Parse Tree :=
  return node "jsx_expression" (← between '\x7b' '\x7d'
    (optional (spread sub <|> expressions sub true)))

/-- Quoted text of an attribute, without escapes. -/
def attributeText : Parse Tree := do
  let p ← advance
  let s ← source
  let quote := s.charAt p
  require (quote == '"' || quote == '\'')
  let q := s.skipWhile (· != quote) (p + 1)
  require (!s.isEnd q)
  goTo (q + 1)
  return leaf "string" p (q + 1)

/-- An attribute. -/
def elementAttribute : Parse Tree :=
  let named : Parse Tree := do
    let name ← elementName
    let value ← optionally
      (return [← char '=', ← attributeText <|> elementExpression sub <|> sub .element])
    return node "jsx_attribute" (name :: value)
  named <|> elementExpression sub

/-- Text between tags. -/
def elementText : Parse Tree := do
  let p ← get
  let s ← source
  let q := s.skipWhile (fun c => c != '<' && c != '\x7b' && c != '\x7d' && c != '>') p
  require (decide (p < q))
  goTo q
  return leaf "jsx_text" p q

/-- The tag at the end of an element. -/
def closingTag : Parse Tree := do
  let o ← char '<'
  let slash ← char '/'
  let name ← optional elementName
  return (node "jsx_closing_element" (o :: slash :: name ++ [← char '>'])).as "close_tag"

/-- An element. -/
def element : Parse Tree := do
  let o ← char '<'
  require ((← source).charAt o.stop != '/')
  let name ← optional elementName
  let types ← optional typeArguments
  let attributes ← many (elementAttribute sub)
  let head := o :: name ++ types ++ attributes
  let selfClosing : Parse Tree := do
    let slash ← char '/'
    return node "jsx_self_closing_element" (head ++ [slash, ← char '>'])
  let open_ : Parse Tree := do
    let opening := (node "jsx_opening_element" (head ++ [← char '>'])).as "open_tag"
    let inside ← many (elementText <|> elementExpression sub <|> sub .element)
    return node "jsx_element" (opening :: inside ++ [← closingTag])
  selfClosing <|> open_

end RouteAtlas.Script.Parse
