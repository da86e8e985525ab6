import RouteAtlas.Disk.Change
import RouteAtlas.Log

/-!
# The workspace of a run

A run works on files and keeps a log. What the log shows on the console is part of the workspace, so
that a run that fails still shows what it did.
-/

namespace RouteAtlas

/-- Files, a log, what the console has shown, and what comes first in a line of a log file. -/
structure Workspace where
  disk : Disk
  log : Log
  console : Text
  stamp : Text

namespace Workspace

/-- The workspace before anything has happened. -/
def ofDisk (d : Disk) (stamp : Text) : Workspace := ⟨d, .unset, [], stamp⟩

/-- Shows a text on the console. -/
def display (w : Workspace) (t : Text) : Workspace := { w with console := w.console ++ t }

theorem display_nil (w : Workspace) : w.display [] = w :=
  congrArg (fun t => { w with console := t }) (List.append_nil w.console)

/-- Adds a line to the end of a log file, if it can be written. -/
def append (w : Workspace) (p : Place) (line : Text) : Workspace :=
  match Utf8.encode? line with
  | none => w
  | some bytes =>
    match w.disk.append p.toText bytes with
    | .ok d => { w with disk := d }
    | .error _ => w

/-- Gives a record to the log. -/
def record (w : Workspace) (r : Record) : Workspace :=
  let w :=
    match w.log.consoleLine r with
    | some line => w.display line
    | none => w
  match w.log.fileLine w.stamp r with
  | some (p, line) => w.append p line
  | none => w

section Record

variable {w : Workspace} {r : Record}

theorem record_of_none (sink : w.log.fileLine w.stamp r = none) :
    w.record r = w.display ((w.log.consoleLine r).getD []) := by
  unfold record
  cases w.log.consoleLine r with
  | none => simp only [sink, Option.getD_none, display_nil]
  | some line => simp only [display, sink, Option.getD_some]

/-- A record is shown first and written to a file then. -/
theorem record_of_some {p : Place} {line : Text}
    (sink : w.log.fileLine w.stamp r = some (p, line)) :
    w.record r = (w.display ((w.log.consoleLine r).getD [])).append p line := by
  unfold record
  cases w.log.consoleLine r with
  | none => simp only [sink, Option.getD_none, display_nil]
  | some line => simp only [display, sink, Option.getD_some]

end Record

/-- The place of a file, by text alone. -/
def placeOf (current : Place) (p : Path) : Place :=
  Place.walk (if p.isAbsolute then [] else current) p.names

/-- Sets the log up, in the place of whatever it was before. The file of a log is made at once, with
the folders around it, and keeps what it held. Folders that have been made stay where the file
cannot be. -/
def openLog (w : Workspace) (verbose : Bool) (file : Option Text) :
    Except FileError Unit × Workspace :=
  match file with
  | none => (.ok (), { w with log := .setUp verbose none })
  | some t =>
    let p := Path.ofText t
    let folders := w.disk.reachFolders p.parent
    let w := { w with disk := folders.disk }
    match folders.failure with
    | some e => (.error e, w)
    | none =>
      let place := placeOf w.disk.current p
      match w.disk.append place.toText ByteArray.empty with
      | .error e => (.error e, w)
      | .ok d => (.ok (), { w with disk := d, log := .setUp verbose (some place) })

/-- The workspace with its log set up, if that succeeds. -/
def setUpLog (w : Workspace) (verbose : Bool) (file : Option Text) : Except FileError Workspace :=
  match w.openLog verbose file with
  | (.ok (), w) => .ok w
  | (.error e, _) => .error e

end Workspace

end RouteAtlas
