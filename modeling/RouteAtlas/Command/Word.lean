import RouteAtlas.Number.Digit
import RouteAtlas.Text

/-!
# Words of a command line

Every argument of a command line is a word: an option, the mark behind which there are no options,
or a value. An option may be shortened as long as only one option begins like it, and may have a
value attached behind `=`. A short option may have more short options attached.
-/

namespace RouteAtlas.Command

/-- The options of the command line. -/
inductive Flag
  | help
  | settings
  | outputFolder
  | resolveMounts
  | logFile
  | verbose
deriving DecidableEq

/-- The spellings of the options, in the order in which they are listed. -/
def spellings : List (Text × Flag) := [
  ("-h", .help), ("--help", .help), ("--config", .settings), ("--output-dir", .outputFolder),
  ("--resolve-mounts", .resolveMounts), ("--log-file", .logFile), ("-v", .verbose),
  ("--verbose", .verbose)]

/-- All spellings of an option. -/
def Flag.name (f : Flag) : Text :=
  Text.join "/" ((spellings.filter (·.2 = f)).map Prod.fst)

/-- The option has a value. -/
def Flag.hasValue : Flag → Bool
  | .settings => true
  | .outputFolder => true
  | .logFile => true
  | _ => false

/-- What is attached to an option, behind `=` or directly. -/
structure Attached where
  behindEquals : Bool
  text : Text

/-- An option as it was found: in which spelling, and with what attached. -/
structure Found where
  spelling : Text
  flag : Flag
  attached : Option Attached

/-- What an argument is. -/
inductive Word
  | value (t : Text)
  | mark
  | option (whole : Text) (found : Found)
  | unknown (whole : Text)

/-- The text of the argument that a word was. -/
def Word.text : Word → Text
  | .value t => t
  | .mark => "--"
  | .option whole _ => whole
  | .unknown whole => whole

/-- The argument is the beginning of several options. -/
structure Ambiguous where
  text : Text
  candidates : List Text
deriving DecidableEq

/-- The hyphen in front of options. -/
def hyphen : CodePoint := CodePoint.ofChar '-'

/-- Cuts a text at its first `=`. -/
def cutAtEquals (t : Text) : Text × Option Text :=
  match t.dropWhile (· ≠ CodePoint.ofChar '=') with
  | [] => (t, none)
  | _ :: rest => (t.takeWhile (· ≠ CodePoint.ofChar '='), some rest)

/-- The option with a spelling. -/
def flag? (spelling : Text) : Option Flag :=
  (spellings.find? (·.1 = spelling)).map Prod.snd

/-- The options that a long spelling can be short for. -/
def longMatches (t : Text) : List Found :=
  let (beginning, attached) := cutAtEquals t
  (spellings.filter fun s => s.1.startsWith beginning).map fun (spelling, flag) =>
    ⟨spelling, flag, attached.map (⟨true, ·⟩)⟩

/-- The options that a text with one hyphen can mean: a short one with something attached, or a long
one that begins like it. -/
def shortMatches (t : Text) : List Found :=
  spellings.filterMap fun (spelling, flag) =>
    if spelling = t.take 2 then some ⟨spelling, flag, some ⟨false, t.drop 2⟩⟩
    else if spelling.startsWith t then some ⟨spelling, flag, none⟩
    else none

/-- The digits at the front are all there is, apart from a line end. -/
def isDigits (t : Text) : Bool :=
  let rest := t.dropWhile fun c => c.decimalDigit?.isSome
  rest.length < t.length && (rest = [] || rest = Text.ofString "\n")

/-- A text is a negative number without exponent. -/
def isNegativeNumber : Text → Bool
  | [] => false
  | c :: t =>
    let behindPoint :=
      match t.dropWhile fun c => c.decimalDigit?.isSome with
      | [] => false
      | d :: rest => d = CodePoint.ofChar '.' && isDigits rest
    c = hyphen && (isDigits t || behindPoint)

/-- What an argument is that does not spell an option exactly. -/
def inexact (t : Text) : Except Ambiguous Word :=
  let found := if t.startsWith "--" then longMatches t else shortMatches t
  match found with
  | [f] => .ok (.option t f)
  | [] =>
    if isNegativeNumber t ∨ CodePoint.ofChar ' ' ∈ t then .ok (.value t) else .ok (.unknown t)
  | fs => .error ⟨t, fs.map (·.spelling)⟩

/-- What an argument is, unless it comes behind the mark. -/
def Word.ofText (t : Text) : Except Ambiguous Word :=
  match t with
  | [] => .ok (.value t)
  | c :: rest =>
    if c ≠ hyphen then .ok (.value t)
    else
      match flag? t with
      | some flag => .ok (.option t ⟨t, flag, none⟩)
      | none =>
        if rest = [] then .ok (.value t)
        else
          match cutAtEquals t with
          | (spelling, some attached) =>
            match flag? spelling with
            | some flag => .ok (.option t ⟨spelling, flag, some ⟨true, attached⟩⟩)
            | none => inexact t
          | (_, none) => inexact t

/-- The words of a command line. -/
def words : List Text → Except Ambiguous (List Word)
  | [] => .ok []
  | t :: ts =>
    if t = Text.ofString "--" then .ok (.mark :: ts.map .value)
    else do
      let word ← Word.ofText t
      return word :: (← words ts)

end RouteAtlas.Command
