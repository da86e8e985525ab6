import RouteAtlas.Settings.Data
import RouteAtlas.Yaml.Base64
import RouteAtlas.Yaml.Node

/-!
# The content of YAML nodes

The content of a node is what its tag makes of it. A mapping takes over the entries of the mappings
that it merges; its own come later and count. Of several faults in a document the outermost counts,
and of those at one level the first.
-/

namespace RouteAtlas.Yaml

/-- Why a node has no content. -/
inductive ContentError
  | malformed
  | badNumber
  | badTime
  | badTruth
  | noDigits
  | noTimestamp
deriving DecidableEq

/-- A part of some content, or why there is none. -/
abbrev Content := Except ContentError

/-- A fault at a level of a document; the parts of the root are at level one. -/
structure Fault where
  level : Nat
  error : ContentError

/-- The content of a node somewhere in a document, or the fault that counts. -/
abbrev Found := Except Fault

namespace Content

/-- The truth values by their words in lower case. -/
def truths : List (Text × Bool) := [
  ("yes", true), ("no", false), ("true", true), ("false", false), ("on", true), ("off", false)]

/-- Without underscores. -/
def withoutGaps (t : Text) : Text := t.filter (· ≠ CodePoint.ofChar '_')

/-- A sign at the front, true for a minus, and the rest; there must be something to look at. -/
def sign (t : Text) : Content (Bool × Text) :=
  match t with
  | [] => .error .noDigits
  | c :: rest =>
    if c = '-' then .ok (true, rest) else if c = '+' then .ok (false, rest) else .ok (false, t)

/-- An integer in a base. -/
def integer (base : Nat) (t : Text) : Content Int :=
  match Numeral.integer base t with
  | .ok n => .ok n
  | .error _ => .error .badNumber

/-- A number that need not be an integer. -/
def real (t : Text) : Content Binary64 :=
  match Numeral.real? t with
  | some x => .ok x
  | none => .error .badNumber

/-- The pieces between colons. -/
def pieces (t : Text) : List Text := Text.splitAt (CodePoint.ofChar ':') t

/-- The integer of a scalar: a leading zero makes it octal, and colons separate digits of base
sixty. -/
def int (t : Text) : Content Int := do
  let (negative, t) ← sign (withoutGaps t)
  let hasColon := t.contains (CodePoint.ofChar ':')
  let n ←
    if t = Text.ofString "0" then pure 0
    else if t.startsWith "0b" then integer 2 (t.drop 2)
    else if t.startsWith "0x" then integer 16 (t.drop 2)
    else if t = [] then .error .noDigits
    else if t.startsWith "0" then integer 8 t
    else if hasColon then do
      let digits ← (pieces t).mapM (integer 10)
      pure (digits.foldl (fun n d => n * 60 + d) 0)
    else integer 10 t
  return if negative then -n else n

/-- The sum of digits of base sixty, each times its power of sixty, from the last on. -/
def sixtieths (digits : List Binary64) : Binary64 :=
  let start : Binary64 × Nat := (.finite false 0 (-1074), 1)
  (digits.reverse.foldl (fun (sum, power) d => (sum.add (d.mulNat power), power * 60)) start).1

/-- The number of a scalar. -/
def float (t : Text) : Content Binary64 := do
  let (negative, t) ← sign (Text.asciiLower (withoutGaps t))
  let x ←
    if t = Text.ofString ".inf" then pure (Binary64.infinity false)
    else if t = Text.ofString ".nan" then pure Binary64.nan
    else if t.contains (CodePoint.ofChar ':') then do
      let digits ← (pieces t).mapM real
      pure (sixtieths digits)
    else real t
  return if negative then x.neg else x

/-- The truth value of a scalar. -/
def truth (t : Text) : Content Bool :=
  match truths.find? (·.1 = Text.asciiLower t) with
  | some (_, b) => .ok b
  | none => .error .badTruth

/-- The bytes of a scalar. -/
def bytes (t : Text) : Content (List UInt8) :=
  if t.all (·.val < 0x80) then
    match Base64.decode? (t.filterMap CodePoint.toChar?) with
    | some bs => .ok bs
    | none => .error .malformed
  else .error .malformed

/-- A scalar has the form of a timestamp, and is one of the calendar and the clock. -/
def time (t : Text) : Content Unit :=
  let cs := t.map fun c => c.toChar?.getD '\uFFFD'
  let cs := if cs.getLast? = some '\n' then cs.dropLast else cs
  match Timestamp.ofChars? cs with
  | none => .error .noTimestamp
  | some s => if s.isValid then .ok () else .error .badTime

/-- The content of a scalar. -/
def scalar (tag : Tag) (t : Text) : Content Data :=
  match tag with
  | .null => .ok .null
  | .bool => (truth t).map fun b => .value (.bool b)
  | .int => (int t).map fun n => .value (.int n)
  | .real => (float t).map fun x => .value (.real x)
  | .binary => (bytes t).map .bytes
  | .timestamp => (time t).map fun _ => .moment
  | .text => .ok (.value (.text t))
  | _ => .error .malformed

/-- The tags that make a scalar. -/
def scalarTags : List Tag := [.null, .bool, .int, .real, .binary, .timestamp, .text]

/-- The tags that make a collection. Whether the node is one is noticed only with its parts. -/
def collectionTags : List Tag := [.sequence, .mapping, .set, .omap, .pairs]

/-- A content that can be a key. -/
def isKey : Data → Bool
  | .list _ => false
  | .mapping _ => false
  | .set => false
  | _ => true

/-- The tag of a node. -/
def tagOf : Node → Option Tag
  | .scalar tag _ => some tag
  | .sequence tag _ => some tag
  | .mapping tag _ => some tag
  | .enclosing _ => none

/-- The entries among which a mapping's own are found when others merge it: merged ones first. -/
def arrange (parts : List (Bool × List (Node × Node))) : List (Node × Node) :=
  (parts.filter (·.1)).flatMap Prod.snd ++ (parts.filter (!·.1)).flatMap Prod.snd

mutual

/-- The entries of a mapping with those that it merges in front, `depth` mappings deep. -/
def flatten : (depth : Nat) → List (Node × Node) → Content (List (Node × Node))
  | 0, _ => .error .malformed
  | depth + 1, entries => do
    let parts ← entries.mapM fun (k, v) => do
      if tagOf k = some .merge then return (true, ← mergeable depth v) else return (false, [(k, v)])
    return arrange parts

/-- The entries that a node to be merged has. Of several mappings the first counts most. -/
def mergeable : (depth : Nat) → Node → Content (List (Node × Node))
  | 0, _ => .error .malformed
  | depth + 1, node =>
    match node with
    | .mapping _ entries => flatten depth entries
    | .sequence _ items => do
      let parts ← items.mapM fun item =>
        match item with
        | .mapping _ entries => flatten depth entries
        | .enclosing _ => .ok []
        | _ => .error .malformed
      return parts.reverse.flatten
    | .enclosing _ => .ok []
    | .scalar .. => .error .malformed

end

/-- The text of a node that is to be a scalar; a mapping has that of its entry for the value. -/
def textOf : (depth : Nat) → Node → Content Text
  | 0, _ => .error .malformed
  | depth + 1, node =>
    match node with
    | .scalar _ t => .ok t
    | .mapping _ entries =>
      match entries.find? fun e => tagOf e.1 = some .value with
      | some (_, v) => textOf depth v
      | none => .error .malformed
    | _ => .error .malformed

/-- Two contents, or the fault of them that counts. -/
def both {α β : Type} : Found α → Found β → Found (α × β)
  | .ok a, .ok b => .ok (a, b)
  | .ok _, .error f => .error f
  | .error e, .ok _ => .error e
  | .error e, .error f => .error (if f.level < e.level then f else e)

/-- All of some contents, or the fault of them that counts. -/
def all {α : Type} : List (Found α) → Found (List α)
  | [] => .ok []
  | a :: rest => (both a (all rest)).map fun (a, rest) => a :: rest

/-- A content at a level. -/
def atLevel {α : Type} (level : Nat) : Content α → Found α
  | .ok a => .ok a
  | .error e => .error ⟨level, e⟩

/-- A fault in the form of a node at a level. -/
def badForm {α : Type} (level : Nat) : Found α := .error ⟨level, .malformed⟩

/-- The content of a scalar at a level. -/
def scalarAt (level : Nat) (tag : Tag) (t : Text) : Found Data :=
  if collectionTags.contains tag then badForm (level + 1) else atLevel level (scalar tag t)

mutual

/-- The content of a node at a level, whose parts are nested at most `depth` deep. -/
def ofNode : (depth level : Nat) → Node → Found Data
  | 0, level, _ => badForm level
  | depth + 1, level, node =>
    match node with
    | .enclosing _ => .ok (.list [])
    | .scalar tag t => scalarAt level tag t
    | .sequence tag items =>
      match tag with
      | .sequence => (all (items.map (ofNode depth (level + 1)))).map .list
      | .omap => (all (items.map (ofPair depth (level + 1)))).map .list
      | .pairs => (all (items.map (ofPair depth (level + 1)))).map .list
      | .mapping => badForm (level + 1)
      | .set => badForm (level + 1)
      | _ => badForm level
    | .mapping tag entries =>
      match tag with
      | .mapping => (ofEntries depth (level + 1) entries).map .mapping
      | .set => (ofEntries depth (level + 1) entries).map fun _ => .set
      | .sequence => badForm (level + 1)
      | .omap => badForm (level + 1)
      | .pairs => badForm (level + 1)
      | _ =>
        if scalarTags.contains tag then
          atLevel level ((textOf (depth + 1) (.mapping tag entries)).bind (scalar tag))
        else badForm level

/-- The content of a mapping with one entry, as an entry of a list of pairs. -/
def ofPair : (depth level : Nat) → Node → Found Data
  | 0, level, _ => badForm level
  | depth + 1, level, node =>
    match node with
    | .mapping _ [(k, v)] =>
      (both (ofNode depth level k) (ofNode depth level v)).map fun _ => .moment
    | _ => badForm level

/-- The content of the entries of a mapping. -/
def ofEntries : (depth level : Nat) → List (Node × Node) → Found (List (Data × Data))
  | 0, level, _ => badForm level
  | depth + 1, level, entries => do
    let flat ← atLevel level (flatten (depth + 1) entries)
    all (flat.map fun (k, v) => both (ofKey depth level k) (ofNode depth level v))

/-- The content of a key. -/
def ofKey : (depth level : Nat) → Node → Found Data
  | 0, level, _ => badForm level
  | depth + 1, level, node =>
    match node with
    | .scalar .value t => .ok (.value (.text t))
    | .scalar tag t => scalarAt level tag t
    | node => do
      let key ← ofNode depth level node
      if isKey key then return key else badForm level

end

end Content

mutual

/-- How deep the parts of a node are nested. -/
def Node.depth : Node → Nat
  | .scalar .. => 1
  | .enclosing _ => 1
  | .sequence _ items => 1 + Node.depthOfItems items
  | .mapping _ entries => 1 + Node.depthOfEntries entries

/-- How deep the parts of some nodes are nested. -/
def Node.depthOfItems : List Node → Nat
  | [] => 0
  | n :: ns => max (Node.depth n) (Node.depthOfItems ns)

/-- How deep the parts of some entries are nested. -/
def Node.depthOfEntries : List (Node × Node) → Nat
  | [] => 0
  | (k, v) :: es => max (max (Node.depth k) (Node.depth v)) (Node.depthOfEntries es)

end

/-- The content of a node. -/
def Node.content (n : Node) : Content Data :=
  match Content.ofNode (4 * n.depth + 4) 0 n with
  | .ok data => .ok data
  | .error fault => .error fault.error

end RouteAtlas.Yaml
