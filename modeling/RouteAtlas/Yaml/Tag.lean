import RouteAtlas.Yaml.Timestamp

/-!
# Tags

A tag says of what type a node is. A plain scalar without a tag gets one by its form.
-/

namespace RouteAtlas.Yaml

/-- The types of nodes that have a meaning, and every other tag. -/
inductive Tag
  | null
  | bool
  | int
  | real
  | binary
  | timestamp
  | omap
  | pairs
  | set
  | text
  | sequence
  | mapping
  | merge
  | value
  | unknown
deriving DecidableEq

namespace Tag

/-- The beginning of the standard tags. -/
def standard : Text := "tag:yaml.org,2002:"

/-- The names of the standard tags. -/
def names : List (Text × Tag) := [
  ("null", null), ("bool", bool), ("int", int), ("float", real), ("binary", binary),
  ("timestamp", timestamp), ("omap", omap), ("pairs", pairs), ("set", set), ("str", text),
  ("seq", sequence), ("map", mapping), ("merge", merge), ("value", value)]

/-- The tag that a text spells. -/
def ofText (t : Text) : Tag :=
  match names.find? fun e => standard ++ e.1 = t with
  | some (_, tag) => tag
  | none => unknown

/-! ### Plain scalars -/

/-- The words for truth values. -/
def truthWords : List String := [
  "yes", "Yes", "YES", "no", "No", "NO", "true", "True", "TRUE", "false", "False", "FALSE",
  "on", "On", "ON", "off", "Off", "OFF"]

/-- Without a sign at the front. -/
def unsigned : List Char → List Char
  | '-' :: rest => rest
  | '+' :: rest => rest
  | cs => cs

/-- A digit or an underscore. -/
def isDigitOrGap (c : Char) : Bool := c.isDigit || c == '_'

/-- Not empty, and all characters have a property. -/
def allOf (property : Char → Bool) (cs : List Char) : Bool := !cs.isEmpty && cs.all property

/-- Pieces between colons, at least one: one digit or two, of which the first is at most five. -/
def areSixtieths (cs : List Char) : Bool :=
  match cs with
  | ':' :: rest =>
    (rest.splitOn ':').all fun piece =>
      match piece with
      | [d] => d.isDigit
      | [c, d] => '0' ≤ c && c ≤ '5' && d.isDigit
      | _ => false
  | _ => false

/-- Nothing, or an exponent with its sign. -/
def isExponent : List Char → Bool
  | [] => true
  | e :: sign :: ds =>
    (e == 'e' || e == 'E') && (sign == '+' || sign == '-') && allOf Char.isDigit ds
  | _ => false

/-- The form of a number that is no integer. -/
def isReal (cs : List Char) : Bool :=
  let body := unsigned cs
  let word := String.ofList body
  let whole := body.takeWhile isDigitOrGap
  let rest := body.drop whole.length
  let hasWhole := (whole.head?.map Char.isDigit).getD false
  let decimal :=
    match rest with
    | '.' :: part => hasWhole && isExponent (part.dropWhile isDigitOrGap)
    | _ => false
  let fraction :=
    match cs with
    | '.' :: d :: part => d.isDigit && isExponent (part.dropWhile isDigitOrGap)
    | _ => false
  let sixtieths :=
    let steps := rest.takeWhile (· != '.')
    hasWhole && areSixtieths steps
      && (match rest.drop steps.length with
        | '.' :: part => part.all isDigitOrGap
        | _ => false)
  decimal || fraction || sixtieths || [".inf", ".Inf", ".INF"].contains word
    || [".nan", ".NaN", ".NAN"].contains (String.ofList cs)

/-- The form of an integer. -/
def isInt (cs : List Char) : Bool :=
  match unsigned cs with
  | ['0'] => true
  | '0' :: 'b' :: ds => allOf (fun c => c == '0' || c == '1' || c == '_') ds
  | '0' :: 'x' :: ds =>
    allOf (fun c => isDigitOrGap c || ('a' ≤ c && c ≤ 'f') || ('A' ≤ c && c ≤ 'F')) ds
  | '0' :: ds => allOf (fun c => ('0' ≤ c && c ≤ '7') || c == '_') ds
  | d :: ds =>
    let rest := ds.dropWhile isDigitOrGap
    d.isDigit && (rest.isEmpty || areSixtieths rest)
  | [] => false

/-- The form of a timestamp. -/
def isTimestamp (cs : List Char) : Bool :=
  match Timestamp.ofChars? cs with
  | some t => t.padded || t.time.isSome
  | none => false

/-- The tag that a scalar gets by its form. One line feed at the end does not count. -/
def ofPlain (t : Text) : Tag :=
  let cs := t.map fun c => c.toChar?.getD '\uFFFD'
  let cs := if cs.getLast? = some '\n' then cs.dropLast else cs
  let word := String.ofList cs
  if truthWords.contains word then bool
  else if isReal cs then real
  else if isInt cs then int
  else if word == "<<" then merge
  else if t = [] || ["~", "null", "Null", "NULL"].contains word then null
  else if isTimestamp cs then timestamp
  else if word == "=" then value
  else if ["!", "&", "*"].contains word then unknown
  else text

end Tag

end RouteAtlas.Yaml
