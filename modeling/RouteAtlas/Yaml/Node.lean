import RouteAtlas.Assoc
import RouteAtlas.Yaml.Tag
import RouteAtlas.Yaml.Token

/-!
# YAML nodes

The one document of a text as a tree. A reference stands for a copy of the node it names. Inside
that node it stands for the enclosing collection, which holds itself there: such a tree has no end,
and it is kept up to the place where the collection begins again for the second time.
-/

namespace RouteAtlas.Yaml

/-- A node of a document. -/
inductive Node
  | scalar (tag : Tag) (text : Text)
  | sequence (tag : Tag) (items : List Node)
  | mapping (tag : Tag) (entries : List (Node × Node))
  | enclosing (anchor : Text)

/-- Why a text has no document. -/
inductive NodeError
  | malformed
  | token (error : TokenError)
deriving DecidableEq

/-- The state between two nodes: the tokens to come, why they end, the short names of tags, and the
named nodes. -/
structure NodeState where
  tokens : List Token
  ending : Option TokenError
  handles : Assoc Text Text
  anchors : Assoc Text Node

/-- A step of reading nodes. -/
abbrev Compose := StateT NodeState (Except NodeError)

namespace Compose

/-- The text cannot be read on. -/
def malformed {α : Type} : Compose α := throw .malformed

/-- The next token; none at the end of the text. -/
def peek : Compose (Option Token) := do
  let s ← get
  match s.tokens, s.ending with
  | t :: _, _ => return some t
  | [], some e => throw (.token e)
  | [], none => return none

/-- Drops the next token. -/
def drop : Compose Unit := modify fun s => { s with tokens := s.tokens.tail }

/-- The next token is this one. -/
def isNext (t : Token) : Compose Bool := return (← peek) == some t

/-- Drops the next token if it is this one, and tells whether it was. -/
def take (t : Token) : Compose Bool := do
  if ← isNext t then drop; return true
  else return false

/-- The next token is one of these, or the text ends. -/
def isAmong (ts : List Token) : Compose Bool := do
  match ← peek with
  | some t => return ts.contains t
  | none => return true

/-- A scalar that is left out. -/
def missing : Node := .scalar .null []

/-- Names a node; no name is given twice. -/
def name (anchor : Option Text) (n : Node) : Compose Unit := do
  match anchor with
  | none => pure ()
  | some a => modify fun s => { s with anchors := s.anchors.put a n }

/-- Names a collection before its parts are read. -/
def announce (anchor : Option Text) : Compose Unit := do
  match anchor with
  | none => pure ()
  | some a => name anchor (.enclosing a)

/-- The anchor before a node. -/
def anchor? : Compose (Option Text) := do
  match ← peek with
  | some (.anchor a) => drop; return some a
  | _ => return none

/-- The tag before a node, its short name replaced; no tag is not the same as an exclamation mark
alone. -/
def tag? : Compose (Option Text) := do
  match ← peek with
  | some (.tag none suffix) => drop; return some suffix
  | some (.tag (some handle) suffix) => do
    drop
    match (← get).handles.get? handle with
    | some expansion => return some (expansion ++ suffix)
    | none => malformed
  | _ => return none

/-- The anchor and the tag before a node, in either order. -/
def properties : Compose (Option Text × Option Text) := do
  match ← anchor? with
  | some a => return (some a, ← tag?)
  | none =>
    match ← tag? with
    | some t => return (← anchor?, some t)
    | none => return (none, none)

/-- The tag of a collection. -/
def collectionTag (tag : Option Text) (standard : Tag) : Tag :=
  match tag with
  | none => standard
  | some t => if t = Text.ofString "!" then standard else Tag.ofText t

/-- The tag of a scalar. -/
def scalarTag (tag : Option Text) (plain : Bool) (text : Text) : Tag :=
  match tag with
  | none => if plain then Tag.ofPlain text else .text
  | some t => if t = Text.ofString "!" then Tag.ofPlain text else Tag.ofText t

/-- What kinds of node may stand somewhere: collections in blocks, and sequences that are not
indented. -/
structure Place where
  block : Bool
  indentless : Bool

/-- Repeats a step that may give something, up to a number of times. -/
def collect {α : Type} (step : Compose (Option α)) : Nat → Compose (List α)
  | 0 => malformed
  | n + 1 => do
    match ← step with
    | some a => return a :: (← collect step n)
    | none => return []

/-- A node, or a missing scalar before one of some tokens. -/
def nodeUnless (node : Place → Compose Node) (place : Place) (ts : List Token) : Compose Node := do
  if ← isAmong ts then
    let _ ← peek
    return missing
  else node place

variable (node : Place → Compose Node)

/-- An entry of a sequence in a block. -/
def blockItem : Compose (Option Node) := do
  if ← take .blockEntry then
    return some (← nodeUnless node ⟨true, false⟩ [.blockEntry, .blockEnd])
  else if ← take .blockEnd then return none
  else malformed

/-- An entry of a sequence that is not indented. -/
def indentlessItem : Compose (Option Node) := do
  if ← take .blockEntry then
    return some (← nodeUnless node ⟨true, false⟩ [.blockEntry, .key, .value, .blockEnd])
  else return none

/-- An entry of a mapping in a block. -/
def blockPair : Compose (Option (Node × Node)) := do
  let place : Place := ⟨true, true⟩
  let ends := [Token.key, .value, .blockEnd]
  if ← take .blockEnd then return none
  else
    if !(← take .key) then malformed
    let k ← nodeUnless node place ends
    let v ← if ← take .value then nodeUnless node place ends else pure missing
    return some (k, v)

/-- The comma before an entry that is not the first. -/
def comma (first : Bool) : Compose Unit := do
  if !first then
    if !(← take .flowEntry) then malformed

/-- The key and the value of a pair in brackets or braces, up to an end. -/
def flowPair (ends : Token) : Compose (Node × Node) := do
  let k ← nodeUnless node ⟨false, false⟩ [.value, .flowEntry, ends]
  let v ← if ← take .value then nodeUnless node ⟨false, false⟩ [.flowEntry, ends] else pure missing
  return (k, v)

/-- An entry of a sequence in brackets. A pair there is a mapping of its own. -/
def flowItem (first : Bool) : Compose (Option Node) := do
  if ← take .flowSequenceEnd then return none
  else
    comma first
    if ← take .key then
      let (k, v) ← flowPair node .flowSequenceEnd
      return some (.mapping .mapping [(k, v)])
    else if ← take .flowSequenceEnd then return none
    else return some (← node ⟨false, false⟩)

/-- An entry of a mapping in braces. -/
def flowEntry (first : Bool) : Compose (Option (Node × Node)) := do
  if ← take .flowMappingEnd then return none
  else
    comma first
    if ← take .key then return some (← flowPair node .flowMappingEnd)
    else if ← take .flowMappingEnd then return none
    else return some (← node ⟨false, false⟩, missing)

/-- Entries with commas between them. -/
def flowEntries {α : Type} (entry : Bool → Compose (Option α)) (bound : Nat) :
    Compose (List α) := do
  match ← entry true with
  | some a => return a :: (← collect (entry false) bound)
  | none => return []

/-- A node without its anchor and tag. -/
def content (place : Place) (anchor tag : Option Text) : Compose Node := do
  let bound := (← get).tokens.length + 1
  let sequence (items : Compose (List Node)) : Compose Node := do
    announce anchor
    return .sequence (collectionTag tag .sequence) (← items)
  let mapping (entries : Compose (List (Node × Node))) : Compose Node := do
    announce anchor
    return .mapping (collectionTag tag .mapping) (← entries)
  match ← peek with
  | some (.scalar text plain) => do
    drop
    return .scalar (scalarTag tag plain text) text
  | some .flowSequenceStart => do
    drop
    sequence (flowEntries (flowItem node) bound)
  | some .flowMappingStart => do
    drop
    mapping (flowEntries (flowEntry node) bound)
  | t =>
    if place.indentless && t == some .blockEntry then
      sequence (collect (indentlessItem node) bound)
    else if place.block && t == some .blockSequenceStart then do
      drop
      sequence (collect (blockItem node) bound)
    else if place.block && t == some .blockMappingStart then do
      drop
      mapping (collect (blockPair node) bound)
    else if anchor.isSome || tag.isSome then return .scalar (scalarTag tag true []) []
    else malformed

end Compose

/-- A node whose parts are nested at most `depth` deep. -/
def Compose.nodeWithin : (depth : Nat) → Compose.Place → Compose Node
  | 0, _ => malformed
  | depth + 1, place => do
    match ← peek with
    | some (.reference a) => do
      drop
      match (← get).anchors.get? a with
      | some n => return n
      | none => malformed
    | _ => do
      let (anchor, tag) ← properties
      if let some a := anchor then
        if ((← get).anchors.get? a).isSome then malformed
      let n ← content (nodeWithin depth) place anchor tag
      name anchor n
      return n

namespace Compose

/-- The short names of tags that need no directive. -/
def standardHandles : Assoc Text Text := [("!", "!"), ("!!", Tag.standard)]

/-- The directives before a document: at most one version, and short names, each given once. -/
def directives : (count : Nat) → (versioned : Bool) → Assoc Text Text → Compose (Assoc Text Text)
  | 0, _, handles => pure handles
  | count + 1, versioned, handles => do
    match ← peek with
    | some (.version major) => do
      drop
      if versioned || major != 1 then malformed else directives count true handles
    | some (.handle n expansion) => do
      drop
      if (handles.get? n).isSome then malformed
      else directives count versioned (handles.put n expansion)
    | some .directive => do
      drop
      directives count versioned handles
    | _ => return handles

/-- Skips the marks at the end of a document. -/
def skipEnds : Nat → Compose Unit
  | 0 => pure ()
  | n + 1 => do if ← take .documentEnd then skipEnds n

/-- The only document of a text; none if there is nothing but comments. -/
def document : Compose (Option Node) := do
  let bound := (← get).tokens.length + 1
  let node (place : Place) : Compose Node := nodeWithin bound place
  let start ← peek
  let isDirective (t : Token) : Bool :=
    match t with
    | .version _ => true
    | .handle .. => true
    | .directive => true
    | _ => false
  match start with
  | none => return none
  | some t =>
    let found ←
      if isDirective t || t == .documentStart then do
        let own ← directives bound false []
        modify fun s => { s with handles := standardHandles.putAll own }
        if !(← take .documentStart) then malformed
        let isEmpty ← do
          match ← peek with
          | none => pure true
          | some t => pure (isDirective t || t == .documentStart || t == .documentEnd)
        if isEmpty then pure missing else node ⟨true, false⟩
      else node ⟨true, false⟩
    skipEnds bound
    match ← peek with
    | none => return some found
    | some _ => malformed

end Compose

/-- The characters that a text may hold. -/
def isPrintable (c : Char) : Bool :=
  let n := c.toNat
  n == 0x09 || n == 0x0A || n == 0x0D || (0x20 ≤ n && n ≤ 0x7E) || n == 0x85
    || (0xA0 ≤ n && n ≤ 0xD7FF) || (0xE000 ≤ n && n ≤ 0xFFFD) || 0x10000 ≤ n

mutual

/-- Puts the named nodes in the place of references from inside them. Keys stay as they are: no
collection can be one. -/
def Node.unroll (anchors : Assoc Text Node) : Node → Node
  | .scalar tag text => .scalar tag text
  | .sequence tag items => .sequence tag (unrollItems anchors items)
  | .mapping tag entries => .mapping tag (unrollEntries anchors entries)
  | .enclosing a => (anchors.get? a).getD (.enclosing a)

/-- The same in each of some nodes. -/
def Node.unrollItems (anchors : Assoc Text Node) : List Node → List Node
  | [] => []
  | n :: ns => n.unroll anchors :: unrollItems anchors ns

/-- The same in the value of each of some entries. -/
def Node.unrollEntries (anchors : Assoc Text Node) : List (Node × Node) → List (Node × Node)
  | [] => []
  | (k, v) :: es => (k, v.unroll anchors) :: unrollEntries anchors es

end

/-- The document of a text. -/
def Node.ofChars? (cs : List Char) : Except NodeError (Option Node) :=
  if cs.all isPrintable then
    let (tokens, ending) := Token.scan cs
    (Compose.document.run ⟨tokens, ending, Compose.standardHandles, []⟩).map fun (found, state) =>
      found.map (Node.unroll state.anchors)
  else .error .malformed

end RouteAtlas.Yaml
