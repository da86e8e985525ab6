import RouteAtlas.Command

/-!
# The program

The program takes a picture of the files that a command can need, runs the command on the picture,
and makes the changes of the picture on the files themselves.
-/

namespace RouteAtlas.Main

/-- The text of a path in the picture as a string. -/
def toString (t : Text) : String := (Text.toString? t).getD ""

/-- The picture after a change; a change that cannot be made is left out. -/
def changed (d : Disk) (change : Except FileError Disk) : Disk :=
  match change with
  | .ok d => d
  | .error _ => d

/-- Puts what is at an absolute path into the picture: a file, a link with what it leads to, or a
folder. Of a folder, `depth` levels of entries are put in. -/
partial def lay (depth : Nat) (d : Disk) (path : String) : IO Disk := do
  let top ← IO.currentDir
  let place := top / path
  let text : Text := path
  try
    match (← place.symlinkMetadata).type with
    | .dir => do
      let d := changed d (d.ensureFolder text)
      if depth = 0 then return d
      let mut d := d
      for entry in ← place.readDir do
        d ← lay (depth - 1) d (path ++ "/" ++ entry.fileName)
      return d
    | .symlink => do
      let target := (← IO.FS.realPath place).toString
      lay depth (changed d (d.createLink text target)) target
    | .file => return changed d (d.write text (← IO.FS.readBinFile place))
    | .other => return d
  catch _ => return d

/-- Puts a path into the picture, and the folders around it. -/
def layAll (depth : Nat) (d : Disk) (path : Text) : IO Disk := do
  let p := Path.ofText path
  let names := if p.isAbsolute then p.names else d.current.reverse ++ p.names
  let mut d := d
  let mut above := ""
  for name in names.dropLast do
    above := above ++ "/" ++ toString name
    d ← lay 0 d above
  lay depth d ("/" ++ toString (Text.join [slash] names))

/-- The depth of folders that is deep enough for any tree. -/
def wholeTree : Nat := 4096

/-- The picture of the files that a command can need. -/
def picture (arguments : List Text) : IO Disk := do
  let here : Text := (← IO.currentDir).toString
  let home : Text := ((← IO.getEnv "HOME").getD "/")
  let d : Disk := ⟨[], (Path.ofText here).names.reverse, home⟩
  let mut d ← layAll 1 d here
  match Command.Demand.ofTexts arguments with
  | .ok (.run a) =>
    for path in a.path.toList do
      let p := (d.expandHome (Path.ofText path)).toOption.getD (Path.ofText path)
      d ← layAll wholeTree d p.toText
    for path in a.settings.toList ++ a.outputFolder.toList ++ a.logFile.toList do
      let p := (d.expandHome (Path.ofText path)).toOption.getD (Path.ofText path)
      d ← layAll 1 d p.toText
    match Settings.load d a.settings with
    | .ok found =>
      let folder := Run.outputFolder d a.outputFolder
      for name in [found.settings.output.json, found.settings.output.html] do
        d ← layAll 0 d (folder ++ Path.ofText name).toText
      return d
    | .error _ => return d
  | _ => return d

/-- Makes the entries of a folder as they are in the picture, as far as they have changed. -/
partial def make (above : String) (old new : List (Text × Entry)) : IO Unit := do
  for (name, entry) in new do
    let path := above ++ "/" ++ toString name
    match entry, Entry.among name old with
    | .file bytes, some (.file before) =>
      if bytes.toList != before.toList then IO.FS.writeBinFile path bytes
    | .file bytes, _ => IO.FS.writeBinFile path bytes
    | .folder entries, before =>
      if before.isNone then IO.FS.createDirAll path
      make path ((before.map Entry.entries).getD []) entries
    | .link _, _ => pure ()

/-- The status of a command that failed without a message. -/
def failureStatus : UInt32 := 1

end RouteAtlas.Main

open RouteAtlas in
/-- Runs the command line. -/
def main (arguments : List String) : IO UInt32 := do
  let arguments := arguments.map Text.ofString
  let d ← Main.picture arguments
  let stamp := toString (← IO.monoMsNow) ++ " "
  let (outcome, w) := Command.run arguments (.ofDisk d stamp)
  Main.make "" d.entries w.disk.entries
  (← IO.getStderr).putStr (Main.toString w.console)
  (← IO.getStdout).putStr (Main.toString outcome.printed)
  match outcome.ending with
  | .finished => return 0
  | .stopped status => return status.toUInt32
  | .failed _ => return Main.failureStatus
