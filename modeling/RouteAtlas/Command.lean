import RouteAtlas.Command.Arguments
import RouteAtlas.Run
import RouteAtlas.Settings.File

/-!
# The command line

A command sets up the log, checks the source tree, reads the settings and documents the tree. It
ends well, or with a status and a message, or it fails for a reason that has no message of its own.
-/

namespace RouteAtlas.Command

/-- The page of help. -/
def help : Text :=
  "usage: docly [-h] [--config CONFIG] [--output-dir OUTPUT_DIR]
             [--resolve-mounts] [--log-file LOG_FILE] [-v]
             [path]

Generate API documentation from an Express-style source tree.

positional arguments:
  path                  Root folder of the JavaScript/TypeScript sources.

options:
  -h, --help            show this help message and exit
  --config CONFIG       Path to a .docly.yml file (defaults to ./.docly.yml).
  --output-dir OUTPUT_DIR
                        Directory for the JSON and HTML output (defaults to
                        the current directory).
  --resolve-mounts      Prefix routes of router files mounted with
                        app.use(path, router).
  --log-file LOG_FILE   Also write a DEBUG-level log of the run to this file.
  -v, --verbose         Increase log verbosity for troubleshooting.
"

/-- The first lines of the page of help. -/
def usage : Text :=
  "usage: docly [-h] [--config CONFIG] [--output-dir OUTPUT_DIR]
             [--resolve-mounts] [--log-file LOG_FILE] [-v]
             [path]
"

/-- A reason for which a command fails without a message. -/
inductive Failure
  | file (error : FileError)
  | settings (error : SettingsError)
  | run (error : RunError)
deriving DecidableEq

/-- How a command ends. -/
inductive Ending
  | finished
  | stopped (status : Nat)
  | failed (reason : Failure)
deriving DecidableEq

/-- How a command ends and what it prints, messages aside. -/
structure Outcome where
  ending : Ending
  printed : Text

/-- A step of a command: it changes the workspace and may end the command. -/
abbrev Step := ExceptT Ending (StateM Workspace)

/-- Ends a command with a message. -/
def stop {α : Type} (status : Nat) (message : Text) : Step α := do
  modify (·.display message)
  throw (.stopped status)

/-- Ends a command for a reason, unless there is none. -/
def need {ε α : Type} (reason : ε → Failure) : Except ε α → Step α
  | .ok a => pure a
  | .error e => throw (.failed (reason e))

/-- The message for a path whose beginning is no folder. -/
def noFolderMessage (path : Text) : Text := "[Errno 20] Not a directory: " ++ path.quoted

/-- The message of a failed run, if something that should be a folder is not. -/
def folderMessage? : RunError → Option Text
  | .scan (.notAFolder path) => Scan.Failure.message? (.notAFolder path)
  | .scan (.unusable ⟨.notFolder, path⟩) => some (noFolderMessage path)
  | .file ⟨.notFolder, path⟩ => some (noFolderMessage path)
  | _ => none

/-- The path of an output file as it is printed: relative to the current folder if it is inside. -/
def shownPath (d : Disk) (p : Path) : Except FileError Text := do
  let place := (← d.realPlace p).reverse
  let current := d.current.reverse
  if current.isPrefixOf place then
    return Path.toText ⟨[], place.drop current.length⟩
  else return p.toText

/-- Documents the tree at a path and gives what is printed in the end. -/
def document (words : Settings.Words) (a : Arguments) (path : Text) : Step Text := do
  let d := (← get).disk
  let root ← need .file ((d.expandHome (Path.ofText path)).bind d.realPlace)
  unless ← need .file (d.doesExist root.toText) do
    stop 1 ("Folder not found: " ++ root.toText ++ "\n")
  let settings ←
    match Settings.load d a.settings with
    | .ok found => pure found.settings
    | .error e =>
      match e.message? words with
      | some message => stop 1 (message ++ "\n")
      | none => throw (.failed (.settings e))
  let mounts := if a.resolveMounts then some true else none
  let (result, w) := (Run.whole settings mounts root.toText a.outputFolder).run (← get)
  set w
  match result with
  | .error e =>
    match folderMessage? e with
    | some message => stop 1 (message ++ "\n")
    | none => throw (.failed (.run e))
  | .ok (document, output) =>
    let json ← need .file (shownPath w.disk output.json)
    let page ← need .file (shownPath w.disk output.page)
    return "Documented " ++ Text.ofNat document.routes.length ++ " route(s)\nJSON written to "
      ++ json ++ "\nHTML written to " ++ page ++ "\n"

/-- Does what a command line asks for and gives what is printed. -/
def obey (words : Settings.Words) (arguments : List Text) : Step Text := do
  match Demand.ofTexts arguments with
  | .error e => stop 2 (usage ++ "docly: error: " ++ e.message ++ "\n")
  | .ok .help => return help
  | .ok (.run a) => do
    let (opened, w) := (← get).openLog a.verbose a.logFile
    set w
    need .file opened
    match a.path with
    | some (c :: path) => document words a (c :: path)
    | _ => stop 1 "Usage: docly <src-folder>\n"

/-- Runs a command line. The words are those that are printed of a settings file in the way. -/
def run (arguments : List Text) (w : Workspace) (words : Settings.Words := Settings.silence) :
    Outcome × Workspace :=
  match (obey words arguments).run w with
  | (.ok printed, w) => (⟨.finished, printed⟩, w)
  | (.error ending, w) => (⟨ending, []⟩, w)

end RouteAtlas.Command
