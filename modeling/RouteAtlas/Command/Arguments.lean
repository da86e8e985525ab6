import RouteAtlas.Command.Word
import RouteAtlas.Text.Quoted

/-!
# Arguments

A command line has options in any order and at most one other argument, the path of a source tree.
An option given twice has its last value. A request for help is answered at once, before anything
wrong behind it is noticed.
-/

namespace RouteAtlas.Command

/-- The arguments of a run. -/
structure Arguments where
  path : Option Text
  settings : Option Text
  outputFolder : Option Text
  resolveMounts : Bool
  logFile : Option Text
  verbose : Bool

/-- The arguments of an empty command line. -/
def Arguments.none : Arguments := ⟨.none, .none, .none, false, .none, false⟩

/-- What is wrong with a command line. -/
inductive ArgumentError
  | ambiguous (a : Ambiguous)
  | noValue (flag : Flag)
  | unusedValue (flag : Flag) (value : Text)
  | tooMany (arguments : List Text)
deriving DecidableEq

/-- The message of an error. -/
def ArgumentError.message : ArgumentError → Text
  | .ambiguous a =>
    "ambiguous option: " ++ a.text ++ " could match " ++ Text.join ", " a.candidates
  | .noValue flag => "argument " ++ flag.name ++ ": expected one argument"
  | .unusedValue flag value =>
    "argument " ++ flag.name ++ ": ignored explicit argument " ++ value.quoted
  | .tooMany arguments => "unrecognized arguments: " ++ Text.join " " arguments

/-- What a command line asks for. -/
inductive Demand
  | help
  | run (arguments : Arguments)

/-- Gives an option without a value its effect; nothing is left to do after a request for help. -/
def Arguments.switch (a : Arguments) : Flag → Option Arguments
  | .help => .none
  | .resolveMounts => some { a with resolveMounts := true }
  | .verbose => some { a with verbose := true }
  | _ => some a

/-- Gives an option its value. -/
def Arguments.assign (a : Arguments) (value : Text) : Flag → Arguments
  | .settings => { a with settings := some value }
  | .outputFolder => { a with outputFolder := some value }
  | .logFile => { a with logFile := some value }
  | _ => a

/-- Gives several options without a value their effects. -/
def Arguments.switchAll (a : Arguments) : List Flag → Option Arguments
  | [] => some a
  | f :: fs => (a.switch f).bind fun a => a.switchAll fs

/-- How a group of options ends: with an option that needs nothing more, one with its value, one
whose value is the next argument, or options that there are not. -/
inductive GroupEnd
  | complete (flag : Flag)
  | valued (flag : Flag) (value : Text)
  | wanting (flag : Flag)
  | unknown (rest : Text)

/-- A group of options: those before its end, all of them without a value, and its end. -/
structure Group where
  before : List Flag
  ending : GroupEnd

/-- The end of a group at an option with nothing attached. -/
def Flag.alone (f : Flag) : GroupEnd := if f.hasValue then .wanting f else .complete f

/-- Takes a group apart at an option with something attached. What is attached directly to a short
option without a value is more such options. -/
def ungroup (flag : Flag) (isShort behindEquals : Bool) : Text → Except ArgumentError Group
  | [] => if flag.hasValue then .ok ⟨[], .valued flag []⟩ else .error (.unusedValue flag [])
  | c :: rest =>
    if flag.hasValue then .ok ⟨[], .valued flag (c :: rest)⟩
    else if !isShort || behindEquals || c = hyphen then .error (.unusedValue flag (c :: rest))
    else
      match flag? [hyphen, c] with
      | none => .ok ⟨[flag], .unknown (hyphen :: c :: rest)⟩
      | some next =>
        match rest with
        | [] => .ok ⟨[flag], next.alone⟩
        | d :: rest' =>
          let group := if d = CodePoint.ofChar '=' then ungroup next true true rest'
            else ungroup next true false (d :: rest')
          group.map fun g => { g with before := flag :: g.before }

/-- The group that a found option is. -/
def Found.group (f : Found) : Except ArgumentError Group :=
  match f.attached with
  | some a => ungroup f.flag (f.spelling.length = 2) a.behindEquals a.text
  | none => .ok ⟨[], f.flag.alone⟩

/-- Takes the path from the front of words that begin with no option; the mark around it goes. -/
def takePath : List Word → Option Text × List Word
  | .mark :: .value t :: rest => (some t, rest)
  | .mark :: rest => (.none, rest)
  | .value t :: .mark :: rest => (some t, rest)
  | .value t :: rest => (some t, rest)
  | words => (.none, words)

/-- Where reading words stands: what was found, whether the path can still come, and what has no
use. -/
structure Reader where
  arguments : Arguments
  isPathDue : Bool
  unused : List Text

/-- Reads words; at most `fuel` of them. -/
def read : (fuel : Nat) → Reader → List Word → Except ArgumentError Demand
  | 0, r, _ => .ok (.run r.arguments)
  | _ + 1, r, [] => if r.unused = [] then .ok (.run r.arguments) else .error (.tooMany r.unused)
  | fuel + 1, r, .unknown t :: rest => read fuel { r with unused := r.unused ++ [t] } rest
  | fuel + 1, r, .option _ found :: rest => do
    let group ← found.group
    let (ending, rest) ←
      match group.ending, rest with
      | .wanting flag, .value v :: rest => pure (GroupEnd.valued flag v, rest)
      | .wanting flag, _ => .error (.noValue flag)
      | ending, rest => pure (ending, rest)
    match r.arguments.switchAll group.before with
    | .none => return .help
    | some a =>
      match ending with
      | .complete flag =>
        match a.switch flag with
        | .none => return .help
        | some a => read fuel { r with arguments := a } rest
      | .valued flag value => read fuel { r with arguments := a.assign value flag } rest
      | .wanting _ => read fuel { r with arguments := a } rest
      | .unknown t => read fuel { r with arguments := a, unused := r.unused ++ [t] } rest
  | fuel + 1, r, word :: rest =>
    if r.isPathDue then
      let (path, rest) := takePath (word :: rest)
      read fuel { r with arguments := { r.arguments with path := path }, isPathDue := false } rest
    else read fuel { r with unused := r.unused ++ [word.text] } rest

/-- What a command line asks for. -/
def Demand.ofTexts (ts : List Text) : Except ArgumentError Demand :=
  match words ts with
  | .error a => .error (.ambiguous a)
  | .ok ws => read (ws.length + 1) ⟨.none, true, []⟩ ws

end RouteAtlas.Command
