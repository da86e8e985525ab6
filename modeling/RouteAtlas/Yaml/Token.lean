import RouteAtlas.Number.Numeral
import RouteAtlas.Text.Utf8

/-!
# YAML tokens

The tokens of a YAML text. Indentation becomes explicit: the start and the end of every block
collection is a token. A key that shows as one only by the colon behind it gets its token, and that
of the mapping it begins, in front afterwards; until then its place is remembered.
-/

namespace RouteAtlas.Yaml

/-- A token. -/
inductive Token
  | version (major : Nat)
  | handle (name expansion : Text)
  | directive
  | documentStart
  | documentEnd
  | blockSequenceStart
  | blockMappingStart
  | blockEnd
  | flowSequenceStart
  | flowSequenceEnd
  | flowMappingStart
  | flowMappingEnd
  | blockEntry
  | flowEntry
  | key
  | value
  | reference (name : Text)
  | anchor (name : Text)
  | tag (handle : Option Text) (suffix : Text)
  | scalar (text : Text) (plain : Bool)
deriving DecidableEq

/-- Why a text has no further tokens. -/
inductive TokenError
  | malformed
  | noCodePoint
  | codePointOutOfRange
deriving DecidableEq

/-- The place of a token that may turn out to be a key. -/
structure PossibleKey where
  token : Nat
  required : Bool
  position : Nat
  line : Nat
  column : Nat

/-- The state between two tokens: the position, the indentation of the open block collections, the
number of open flow collections, and the possible keys by that number. -/
structure TokenState where
  position : Nat
  line : Nat
  column : Nat
  flow : Nat
  indent : Int
  indents : List Int
  allowsKey : Bool
  possible : List (Nat × PossibleKey)
  tokens : Array Token

/-- A step of reading tokens; the tokens found before an error are kept. -/
abbrev Scan := ReaderT (Array Char) (ExceptT TokenError (StateM TokenState))

namespace Scan

/-- The text cannot be read on. -/
def malformed {α : Type} : Scan α := throw .malformed

/-- Goes on only if a condition holds. -/
def require (b : Bool) : Scan Unit := if b then pure () else malformed

/-- The character some places on; the end of the text counts as NUL. -/
def peek (offset : Nat) : Scan Char := return (← read)[(← get).position + offset]?.getD '\x00'

/-- The characters that end a line. -/
def isBreak (c : Char) : Bool :=
  c == '\r' || c == '\n' || c == '\u0085' || c == '\u2028' || c == '\u2029'

/-- The end of the text or of a line. -/
def isBreakOrEnd (c : Char) : Bool := c == '\x00' || isBreak c

/-- The end of the text or of a line, or a space. -/
def isSpaceOrEnd (c : Char) : Bool := c == ' ' || isBreakOrEnd c

/-- The end of the text or of a line, a space or a tab. -/
def isBlankOrEnd (c : Char) : Bool := c == '\t' || isSpaceOrEnd c

/-- A letter, a digit, a hyphen or an underscore. -/
def isWordChar (c : Char) : Bool := c.isAlphanum || c == '-' || c == '_'

/-- A hexadecimal digit. -/
def isHexDigit (c : Char) : Bool :=
  c.isDigit || ('a' ≤ c && c ≤ 'f') || ('A' ≤ c && c ≤ 'F')

/-- Goes on by one character. -/
def forward : Scan Unit := do
  let c ← peek 0
  let next ← peek 1
  modify fun s =>
    let s := { s with position := s.position + 1 }
    if c == '\n' || c == '\u0085' || c == '\u2028' || c == '\u2029'
        || (c == '\r' && next != '\n') then
      { s with line := s.line + 1, column := 0 }
    else if c != '\uFEFF' then { s with column := s.column + 1 }
    else s

/-- Goes on by several characters. -/
def forwardBy : Nat → Scan Unit
  | 0 => pure ()
  | n + 1 => do forward; forwardBy n

/-- Repeats a step while it says so, at most as often as there are characters. -/
def repeatWhile (step : Scan Bool) : Scan Unit := do
  let rec go : Nat → Scan Unit
    | 0 => pure ()
    | n + 1 => do if ← step then go n
  go ((← read).size + 2)

/-- Skips characters with a property. -/
def skipWhile (property : Char → Bool) : Scan Unit := repeatWhile do
  let c ← peek 0
  if property c then forward; return true
  else return false

/-- Takes characters with a property. -/
def takeWhile (property : Char → Bool) : Scan (List Char) := do
  let start := (← get).position
  skipWhile property
  return ((← read).extract start (← get).position).toList

/-- Takes one line break; each counts as a line feed, the line and paragraph separators aside. -/
def takeBreak : Scan (List Char) := do
  let c ← peek 0
  let next ← peek 1
  if c == '\r' && next == '\n' then forwardBy 2; return ['\n']
  else if c == '\r' || c == '\n' || c == '\u0085' then forward; return ['\n']
  else if c == '\u2028' || c == '\u2029' then forward; return [c]
  else return []

/-- Skips a comment. -/
def skipComment : Scan Unit := do
  if (← peek 0) == '#' then skipWhile (!isBreakOrEnd ·)

/-- Skips spaces and a comment up to the end of the line, and the line break. -/
def skipRestOfLine : Scan Unit := do
  skipWhile (· == ' ')
  skipComment
  require (isBreakOrEnd (← peek 0))
  let _ ← takeBreak

/-- A line here separates documents: three hyphens or three points, and a blank. -/
def isSeparator : Scan Bool := do
  let a ← peek 0
  let b ← peek 1
  let c ← peek 2
  let d ← peek 3
  return (a == '-' || a == '.') && a == b && b == c && isBlankOrEnd d

/-- The text of some characters. -/
def textOf (cs : List Char) : Text := cs.map CodePoint.ofChar

/-- Adds a token. -/
def emit (t : Token) : Scan Unit := modify fun s => { s with tokens := s.tokens.push t }

/-! ### Tags and anchors -/

/-- The characters of a tag that are neither letters nor digits. -/
def tagSymbols : List Char := "-;/?:@&=+$,_.!~*'()[]%".toList

/-- The text of percent escapes, which are the bytes of UTF-8. -/
def percentEscapes : Scan Text := do
  let rec go : Nat → Scan (List UInt8)
    | 0 => pure []
    | n + 1 => do
      if (← peek 0) == '%' then
        let a ← peek 1
        let b ← peek 2
        require (isHexDigit a && isHexDigit b)
        forwardBy 3
        let digit (c : Char) : Nat := (Numeral.digitValue? c).getD 0
        return (digit a * 16 + digit b).toUInt8 :: (← go n)
      else return []
  let bytes ← go (← read).size
  match Utf8.decode? ⟨bytes.toArray⟩ with
  | some t => return t
  | none => malformed

/-- The text of a tag, at least one character. -/
def tagText : Scan Text := do
  let rec go : Nat → Scan Text
    | 0 => pure []
    | n + 1 => do
      let c ← peek 0
      if c == '%' then return (← percentEscapes) ++ (← go n)
      else if c.isAlphanum || tagSymbols.contains c then
        forward
        return CodePoint.ofChar c :: (← go n)
      else return []
  let c ← peek 0
  require (c.isAlphanum || tagSymbols.contains c)
  go ((← read).size + 1)

/-- The short name of a group of tags: nothing or a word, between exclamation marks. -/
def tagHandle : Scan Text := do
  require ((← peek 0) == '!')
  forward
  if (← peek 0) == ' ' then return "!"
  else
    let w ← takeWhile isWordChar
    require ((← peek 0) == '!')
    forward
    return textOf ('!' :: w ++ ['!'])

/-- A tag has an exclamation mark behind its first, which makes the front of it a short name. -/
def hasHandle : Scan Bool := do
  let rec go (cs : Array Char) : Nat → Nat → Bool
    | 0, _ => false
    | n + 1, p =>
      let c := cs[p]?.getD '\x00'
      if isSpaceOrEnd c then false else if c == '!' then true else go cs n (p + 1)
  let cs ← read
  return go cs cs.size ((← get).position + 1)

/-- A tag. -/
def tag : Scan Token := do
  let next ← peek 1
  let t ←
    if next == '<' then do
      forwardBy 2
      let suffix ← tagText
      require ((← peek 0) == '>')
      forward
      pure (Token.tag none suffix)
    else if isBlankOrEnd next then do
      forward
      pure (Token.tag none "!")
    else if ← hasHandle then do
      let handle ← tagHandle
      pure (Token.tag (some handle) (← tagText))
    else do
      forward
      pure (Token.tag (some "!") (← tagText))
  require (isSpaceOrEnd (← peek 0))
  return t

/-- The name behind an anchor or a reference. -/
def anchorName : Scan Text := do
  forward
  let w ← takeWhile isWordChar
  let c ← peek 0
  require (!w.isEmpty && (isBlankOrEnd c || "?:,]\x7d%@`".toList.contains c))
  return textOf w

/-! ### Directives -/

/-- Digits. -/
def directiveNumber : Scan Nat := do
  let ds ← takeWhile Char.isDigit
  require (!ds.isEmpty)
  return ds.foldl (fun n d => n * 10 + (d.toNat - 0x30)) 0

/-- A directive. -/
def directive : Scan Token := do
  forward
  let name ← takeWhile isWordChar
  require (!name.isEmpty && isSpaceOrEnd (← peek 0))
  let t ←
    if name == "YAML".toList then do
      skipWhile (· == ' ')
      let major ← directiveNumber
      require ((← peek 0) == '.')
      forward
      let _ ← directiveNumber
      require (isSpaceOrEnd (← peek 0))
      pure (Token.version major)
    else if name == "TAG".toList then do
      skipWhile (· == ' ')
      let handle ← tagHandle
      require ((← peek 0) == ' ')
      skipWhile (· == ' ')
      let expansion ← tagText
      require (isSpaceOrEnd (← peek 0))
      pure (Token.handle handle expansion)
    else do
      skipWhile (!isBreakOrEnd ·)
      pure Token.directive
  skipRestOfLine
  return t

/-! ### Scalars in blocks -/

/-- What becomes of the line breaks at the end of a block scalar. -/
inductive Ending
  | strip
  | clip
  | keep
deriving DecidableEq

/-- The sign that tells what becomes of the last line breaks. -/
def ending? (c : Char) : Option Ending :=
  if c == '+' then some .keep else if c == '-' then some .strip else none

/-- The ending and the indentation that the head of a block scalar gives, in either order. -/
def blockHead : Scan (Ending × Option Nat) := do
  let sign : Scan (Option Ending) := do
    match ending? (← peek 0) with
    | some e => forward; return some e
    | none => return none
  let digit : Scan (Option Nat) := do
    let c ← peek 0
    if c.isDigit then
      require (c != '0')
      forward
      return some (c.toNat - 0x30)
    else return none
  let result ← do
    match ← sign with
    | some e => pure (e, ← digit)
    | none =>
      match ← digit with
      | some n => pure ((← sign).getD .clip, some n)
      | none => pure (Ending.clip, none)
  require (isSpaceOrEnd (← peek 0))
  return result

/-- The line breaks before the first line of a block scalar, and the deepest column of the spaces
between them. -/
def blockIndentation : Scan (List Char × Nat) := do
  let rec go : Nat → List Char → Nat → Scan (List Char × Nat)
    | 0, breaks, deepest => pure (breaks, deepest)
    | n + 1, breaks, deepest => do
      let c ← peek 0
      if c == ' ' then
        forward
        go n breaks (max deepest (← get).column)
      else if isBreak c then go n (breaks ++ (← takeBreak)) deepest
      else return (breaks, deepest)
  go ((← read).size + 1) [] 0

/-- Skips the indentation of a line. -/
def skipIndentation (indent : Nat) : Scan Unit := repeatWhile do
  if (← get).column < indent && (← peek 0) == ' ' then forward; return true
  else return false

/-- The line breaks before the next line of a block scalar. -/
def blockBreaks (indent : Nat) : Scan (List Char) := do
  let rec go : Nat → List Char → Scan (List Char)
    | 0, breaks => pure breaks
    | n + 1, breaks => do
      skipIndentation indent
      if isBreak (← peek 0) then go n (breaks ++ (← takeBreak)) else return breaks
  go ((← read).size + 1) []

/-- A scalar whose lines are indented. In a folded one, a line break between two lines that begin
with no blank becomes a space. -/
def blockScalar (folded : Bool) : Scan Token := do
  forward
  let (ending, increment) ← blockHead
  skipRestOfLine
  let least := max 1 ((← get).indent + 1).toNat
  let (indent, breaks) ←
    match increment with
    | some n => do
      let indent := least + n - 1
      pure (indent, ← blockBreaks indent)
    | none => do
      let (breaks, deepest) ← blockIndentation
      pure (max least deepest, breaks)
  let isLine : Scan Bool := return (← get).column == indent && (← peek 0) != '\x00'
  let rec go : Nat → List Char → List Char → List Char → Scan (List Char × List Char × List Char)
    | 0, text, lineBreak, breaks => pure (text, lineBreak, breaks)
    | n + 1, text, _, breaks => do
      let first ← peek 0
      let line ← takeWhile (!isBreakOrEnd ·)
      let text := text ++ breaks ++ line
      let lineBreak ← takeBreak
      let breaks ← blockBreaks indent
      if ← isLine then
        let next ← peek 0
        let isBlank (c : Char) : Bool := c == ' ' || c == '\t'
        let joint :=
          if folded && lineBreak == ['\n'] && !isBlank first && !isBlank next then
            if breaks.isEmpty then [' '] else []
          else lineBreak
        go n (text ++ joint) lineBreak breaks
      else return (text, lineBreak, breaks)
  let (text, lineBreak, breaks) ←
    if ← isLine then go ((← read).size + 1) [] [] breaks else pure ([], [], breaks)
  let tail :=
    match ending with
    | .strip => []
    | .clip => lineBreak
    | .keep => lineBreak ++ breaks
  return .scalar (textOf (text ++ tail)) false

/-! ### Scalars in quotes -/

/-- The character that a letter stands for behind a backslash. -/
def escaped? (c : Char) : Option Char :=
  match c with
  | '0' => some '\x00'
  | 'a' => some '\x07'
  | 'b' => some '\x08'
  | 't' => some '\t'
  | '\t' => some '\t'
  | 'n' => some '\n'
  | 'v' => some '\x0b'
  | 'f' => some '\x0c'
  | 'r' => some '\r'
  | 'e' => some '\x1b'
  | ' ' => some ' '
  | '"' => some '"'
  | '\\' => some '\\'
  | '/' => some '/'
  | 'N' => some '\u0085'
  | '_' => some '\u00a0'
  | 'L' => some '\u2028'
  | 'P' => some '\u2029'
  | _ => none

/-- The number of hexadecimal digits behind a letter behind a backslash. -/
def escapeLength? (c : Char) : Option Nat :=
  if c == 'x' then some 2 else if c == 'u' then some 4 else if c == 'U' then some 8 else none

/-- The code point with a number; numbers from `2 ^ 31` on are refused in another way. -/
def codePoint (n : Nat) : Scan CodePoint := do
  match CodePoint.ofNat? n with
  | some c => return c
  | none => if n < 0x80000000 then throw .noCodePoint else throw .codePointOutOfRange

/-- Blanks and line breaks inside quotes, behind a first line break. -/
def quotedBreaks : Scan Text := do
  let rec go : Nat → Text → Scan Text
    | 0, breaks => pure breaks
    | n + 1, breaks => do
      require !(← isSeparator)
      skipWhile fun c => c == ' ' || c == '\t'
      if isBreak (← peek 0) then go n (breaks ++ textOf (← takeBreak)) else return breaks
  go ((← read).size + 1) []

/-- Blanks inside quotes. A single line break among them becomes a space. -/
def quotedBlanks : Scan Text := do
  let blanks ← takeWhile fun c => c == ' ' || c == '\t'
  let c ← peek 0
  require (c != '\x00')
  if isBreak c then
    let lineBreak ← takeBreak
    let breaks ← quotedBreaks
    if lineBreak != ['\n'] then return textOf lineBreak ++ breaks
    else if breaks.isEmpty then return [CodePoint.ofChar ' ']
    else return breaks
  else return textOf blanks

/-- The escape behind a backslash inside double quotes. -/
def escape : Scan Text := do
  forward
  let c ← peek 0
  match escaped? c, escapeLength? c with
  | some d, _ => forward; return [CodePoint.ofChar d]
  | none, some length => do
    forward
    let cs ← read
    let p := (← get).position
    let digits := (cs.extract p (p + length)).toList
    require (digits.length == length && digits.all isHexDigit)
    let n := digits.foldl (fun n d => n * 16 + (Numeral.digitValue? d).getD 0) 0
    let c ← codePoint n
    forwardBy length
    return [c]
  | none, none => do
    require (isBreak c)
    let _ ← takeBreak
    quotedBreaks

/-- What stands between blanks inside quotes. -/
def quotedWord (double : Bool) : Scan Text := do
  let rec go : Nat → Text → Scan Text
    | 0, text => pure text
    | n + 1, text => do
      let run ← takeWhile fun c => !(isBlankOrEnd c || c == '\'' || c == '"' || c == '\\')
      let text := text ++ textOf run
      let c ← peek 0
      let next ← peek 1
      if !double && c == '\'' && next == '\'' then
        forwardBy 2
        go n (text ++ textOf ['\''])
      else if (double && c == '\'') || (!double && (c == '"' || c == '\\')) then
        forward
        go n (text ++ textOf [c])
      else if double && c == '\\' then go n (text ++ (← escape))
      else return text
  go ((← read).size + 1) []

/-- A scalar in quotes. -/
def quotedScalar (double : Bool) : Scan Token := do
  let quote := if double then '"' else '\''
  forward
  let rec go : Nat → Text → Scan Text
    | 0, text => pure text
    | n + 1, text => do
      if (← peek 0) == quote then return text
      else
        let blanks ← quotedBlanks
        let word ← quotedWord double
        go n (text ++ blanks ++ word)
  let first ← quotedWord double
  let text ← go ((← read).size + 1) first
  forward
  return .scalar text false

/-! ### Plain scalars -/

/-- The line breaks behind a line of a plain scalar; none where a separator follows. -/
def plainBreaks : Scan (Option (List Char)) := do
  let rec go : Nat → List Char → Scan (Option (List Char))
    | 0, breaks => pure (some breaks)
    | n + 1, breaks => do
      let c ← peek 0
      if c == ' ' then
        forward
        go n breaks
      else if isBreak c then
        let breaks := breaks ++ (← takeBreak)
        if ← isSeparator then return none else go n breaks
      else return some breaks
  go ((← read).size + 1) []

/-- The blanks behind a piece of a plain scalar, as they count if it goes on; empty where it
ends. -/
def plainBlanks : Scan (List Char) := do
  let blanks ← takeWhile (· == ' ')
  if isBreak (← peek 0) then
    let lineBreak ← takeBreak
    modify fun s => { s with allowsKey := true }
    if ← isSeparator then return []
    else
      match ← plainBreaks with
      | none => return []
      | some breaks =>
        if lineBreak != ['\n'] then return lineBreak ++ breaks
        else if breaks.isEmpty then return [' ']
        else return breaks
  else return blanks

/-- A piece of a plain scalar: up to a blank, a colon before a blank, or a mark of a flow
collection. -/
def plainPiece : Scan (List Char) := do
  let inFlow := (← get).flow != 0
  let rec go : Nat → List Char → Scan (List Char)
    | 0, piece => pure piece
    | n + 1, piece => do
      let c ← peek 0
      let next ← peek 1
      let ends := isBlankOrEnd c
        || (c == ':' && (isBlankOrEnd next || (inFlow && ",[]\x7b\x7d".toList.contains next)))
        || (inFlow && ",?[]\x7b\x7d".toList.contains c)
      if ends then return piece.reverse
      else
        forward
        go n (c :: piece)
  go ((← read).size + 1) []

/-- A scalar without quotes. -/
def plainScalar : Scan Token := do
  let least := (← get).indent + 1
  let rec go : Nat → List Char → List Char → Scan (List Char)
    | 0, text, _ => pure text
    | n + 1, text, blanks => do
      if (← peek 0) == '#' then return text
      else
        let piece ← plainPiece
        if piece.isEmpty then return text
        else
          modify fun s => { s with allowsKey := false }
          let text := text ++ blanks ++ piece
          let blanks ← plainBlanks
          let s ← get
          if blanks.isEmpty || (← peek 0) == '#' || (s.flow == 0 && s.column < least) then
            return text
          else go n text blanks
  return .scalar (textOf (← go ((← read).size + 1) [] [])) true

/-! ### Keys and indentation -/

/-- Forgets the possible key among the open collections; a required one cannot be forgotten. -/
def forgetKey : Scan Unit := do
  let s ← get
  match s.possible.find? (·.1 == s.flow) with
  | some (_, k) => require (!k.required)
  | none => pure ()
  set { s with possible := s.possible.filter (·.1 != s.flow) }

/-- Forgets the possible keys that are on another line or too far back. -/
def forgetStale : Scan Unit := do
  let s ← get
  let isStale (k : PossibleKey) : Bool := k.line != s.line || k.position + 1024 < s.position
  require (s.possible.all fun (_, k) => !(isStale k && k.required))
  set { s with possible := s.possible.filter fun (_, k) => !isStale k }

/-- Remembers the next token as a possible key, where a key may stand. -/
def rememberKey : Scan Unit := do
  let s ← get
  let required := s.flow == 0 && s.indent == s.column
  if s.allowsKey then
    forgetKey
    let k : PossibleKey := ⟨s.tokens.size, required, s.position, s.line, s.column⟩
    modify fun s => { s with possible := (s.flow, k) :: s.possible }

/-- Closes the block collections that are indented more than a column. -/
def unwind (column : Int) : Scan Unit := modify fun s =>
  if s.flow != 0 then s
  else
    let rec go (indent : Int) (tokens : Array Token) : List Int → Int × List Int × Array Token
      | [] => (indent, [], tokens)
      | outer :: rest =>
        if column < indent then go outer (tokens.push .blockEnd) rest
        else (indent, outer :: rest, tokens)
    let (indent, indents, tokens) := go s.indent s.tokens s.indents
    { s with indent := indent, indents := indents, tokens := tokens }

/-- Opens a block collection at a column, unless one is open there or further in. -/
def indentTo (column : Nat) : Scan Bool := do
  let s ← get
  if s.indent < column then
    set { s with indent := (column : Int), indents := s.indent :: s.indents }
    return true
  else return false

/-- Says whether a key may come next. -/
def allowKey (b : Bool) : Scan Unit := modify fun s => { s with allowsKey := b }

/-! ### One token -/

/-- Skips everything before the next token. -/
def skipToToken : Scan Unit := do
  if (← get).position == 0 && (← peek 0) == '\uFEFF' then forward
  repeatWhile do
    skipWhile (· == ' ')
    skipComment
    if (← takeBreak).isEmpty then return false
    else
      if (← get).flow == 0 then allowKey true
      return true

/-- A mark that opens a flow collection. -/
def openFlow (t : Token) : Scan Unit := do
  rememberKey
  modify fun s => { s with flow := s.flow + 1, allowsKey := true }
  forward
  emit t

/-- A mark that closes a flow collection. -/
def closeFlow (t : Token) : Scan Unit := do
  forgetKey
  require ((← get).flow != 0)
  modify fun s => { s with flow := s.flow - 1, allowsKey := false }
  forward
  emit t

/-- A mark between documents. -/
def separate (t : Token) : Scan Unit := do
  unwind (-1)
  forgetKey
  allowKey false
  forwardBy 3
  emit t

/-- The hyphen before an entry. -/
def entry : Scan Unit := do
  let s ← get
  if s.flow == 0 then
    require s.allowsKey
    if ← indentTo s.column then emit .blockSequenceStart
  allowKey true
  forgetKey
  forward
  emit .blockEntry

/-- The question mark before a key. -/
def explicitKey : Scan Unit := do
  let s ← get
  if s.flow == 0 then
    require s.allowsKey
    if ← indentTo s.column then emit .blockMappingStart
  allowKey (s.flow == 0)
  forgetKey
  forward
  emit .key

/-- Inserts a token at a place among the tokens. -/
def insert (place : Nat) (t : Token) : Scan Unit := modify fun s =>
  { s with tokens := s.tokens.extract 0 place ++ #[t] ++ s.tokens.extract place s.tokens.size }

/-- The colon before a value. A possible key before it becomes one. -/
def valueMark : Scan Unit := do
  let s ← get
  match s.possible.find? (·.1 == s.flow) with
  | some (_, k) => do
    set { s with possible := s.possible.filter (·.1 != s.flow) }
    insert k.token .key
    if s.flow == 0 then
      if ← indentTo k.column then insert k.token .blockMappingStart
    allowKey false
  | none => do
    if s.flow == 0 then
      require s.allowsKey
      if ← indentTo s.column then emit .blockMappingStart
    allowKey (s.flow == 0)
    forgetKey
  forward
  emit .value

/-- A token that may be a key. -/
def simple (p : Scan Token) : Scan Unit := do
  rememberKey
  allowKey false
  emit (← p)

/-- A scalar in a block. -/
def block (folded : Bool) : Scan Unit := do
  allowKey true
  forgetKey
  emit (← blockScalar folded)

/-- The marks that never begin a plain scalar. -/
def marks : List Char := "-?:,[]\x7b\x7d#&*!|>'\"%@`".toList

/-- A plain scalar may begin here. A hyphen, and outside of flow collections a question mark or a
colon, begins one before anything but a blank. -/
def beginsPlain : Scan Bool := do
  let c ← peek 0
  let next ← peek 1
  let inFlow := (← get).flow != 0
  return !(isBlankOrEnd c || marks.contains c)
    || (!isBlankOrEnd next && (c == '-' || (!inFlow && (c == '?' || c == ':'))))

/-- Reads what is next; false at the end of the text. -/
def next : Scan Bool := do
  skipToToken
  forgetStale
  unwind (← get).column
  let s ← get
  let c ← peek 0
  let d ← peek 1
  let inFlow := s.flow != 0
  if c == '\x00' then
    unwind (-1)
    forgetKey
    return false
  else if c == '%' && s.column == 0 then
    unwind (-1)
    forgetKey
    allowKey false
    emit (← directive)
  else if c == '-' && s.column == 0 && (← isSeparator) then separate .documentStart
  else if c == '.' && s.column == 0 && (← isSeparator) then separate .documentEnd
  else if c == '[' then openFlow .flowSequenceStart
  else if c == '\x7b' then openFlow .flowMappingStart
  else if c == ']' then closeFlow .flowSequenceEnd
  else if c == '\x7d' then closeFlow .flowMappingEnd
  else if c == ',' then
    allowKey true
    forgetKey
    forward
    emit .flowEntry
  else if c == '-' && isBlankOrEnd d then entry
  else if c == '?' && (inFlow || isBlankOrEnd d) then explicitKey
  else if c == ':' && (inFlow || isBlankOrEnd d) then valueMark
  else if c == '*' then simple (return .reference (← anchorName))
  else if c == '&' then simple (return .anchor (← anchorName))
  else if c == '!' then simple tag
  else if c == '|' && !inFlow then block false
  else if c == '>' && !inFlow then block true
  else if c == '\'' then simple (quotedScalar false)
  else if c == '"' then simple (quotedScalar true)
  else if ← beginsPlain then simple plainScalar
  else malformed
  return true

end Scan

/-- The tokens of a text, and why they end before the text does, if they do. -/
def Token.scan (text : List Char) : List Token × Option TokenError :=
  let cs := text.toArray
  let start : TokenState := ⟨0, 0, 0, 0, -1, [], true, [], #[]⟩
  let (result, s) := (((Scan.repeatWhile Scan.next).run cs).run).run start
  (s.tokens.toList, match result with
    | .ok _ => none
    | .error e => some e)

end RouteAtlas.Yaml
