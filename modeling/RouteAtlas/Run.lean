import RouteAtlas.Document.Json
import RouteAtlas.Document.Merge
import RouteAtlas.Document.Page
import RouteAtlas.Facts.File
import RouteAtlas.Scan
import RouteAtlas.Settings
import RouteAtlas.Workspace

/-!
# A run

A run finds the source files of a tree, gathers the facts of each, makes one document of them, and
writes it as JSON and as a page. A run that fails keeps what it has done so far.
-/

namespace RouteAtlas

/-- Why a run failed. -/
inductive RunError
  | scan (failure : Scan.Failure)
  | file (error : FileError)
  | literal (error : LiteralError)
  | tooManyDigits
  | unencodable
deriving DecidableEq

/-- A step of a run: it changes the workspace and may fail. -/
abbrev Run := ExceptT RunError (StateM Workspace)

namespace Run

/-- Gives a record to a part of the log. -/
def log (part : Text) (level : Level) (message : Text) : Run Unit :=
  modify fun w => w.record ⟨Log.partName part, level, message⟩

/-- Fails with the reason that `explain` makes of an error. -/
def lift {ε α : Type} (explain : ε → RunError) : Except ε α → Run α
  | .ok a => pure a
  | .error e => throw (explain e)

/-- Changes the files. -/
def change (f : Disk → Except FileError Disk) : Run Unit := do
  let d ← lift .file (f (← get).disk)
  modify fun w => { w with disk := d }

/-- Makes a folder and the folders around it. -/
def makeFolders (p : Path) : Run Unit := do
  let reached := (← get).disk.reachFolders p
  modify fun w => { w with disk := reached.disk }
  match reached.failure with
  | none => return
  | some e => throw (.file e)

/-- The line that sums up the facts of a file. -/
def factsLine (f : Facts) : Text :=
  f.file ++ ": " ++ Text.ofNat f.bindings.length ++ " bindings, " ++ Text.ofNat f.routes.length
    ++ " routes, " ++ Text.ofNat f.imports.length ++ " imports"

/-- The facts of one file, and the answers about imports known after it. -/
def readFile (reading : Reading) (memo : Import.Memo) (path : Text) :
    Run (Facts × Import.Memo) := do
  log "orchestrator" .debug ("Extracting " ++ path)
  let d := (← get).disk
  let bytes ← lift .file (d.read path)
  let (parsed, complete) := ParsedText.ofText path (sourceText bytes)
  unless complete do
    log "parser" .debug ("Syntax errors in " ++ path ++ "; extracting from partial tree")
  let (facts, memo) := (Facts.ofFile reading d parsed).run.run memo
  let facts ← lift .literal facts
  log "extractor" .debug (factsLine facts)
  return (facts, memo)

/-- The facts of some files, one after the other. -/
def readFiles (reading : Reading) : Import.Memo → List Text → Run (List Facts)
  | _, [] => return []
  | memo, path :: paths => do
    let (facts, memo) ← readFile reading memo path
    return facts :: (← readFiles reading memo paths)

/-- The settings' instructions for reading files, with another choice about mounts if there is
one. -/
def readingOf (s : Settings) (mounts : Option Bool) : Reading :=
  ⟨s.framework, s.marker, mounts.getD s.resolveMounts⟩

/-- The facts of all files of a source tree. -/
def gather (s : Settings) (mounts : Option Bool) (path : Text) : Run (List Facts) := do
  let d := (← get).disk
  let top ← lift (.scan ∘ .unusable) ((d.expandHome (Path.ofText path)).bind d.realPlace)
  log "orchestrator" .info ("Starting extraction for " ++ top.toText)
  let files ← lift .scan (Scan.sources d ⟨s.excluded, s.extensions⟩ top)
  log "orchestrator" .debug ("Scanner discovered " ++ Text.ofNat files.length ++ " source files")
  readFiles (readingOf s mounts) [] files

/-- The document of a source tree. -/
def build (s : Settings) (mounts : Option Bool) (path : Text) : Run Document := do
  let facts ← gather s mounts path
  let points := MountPoints.ofFacts facts
  unless points.isEmpty do
    log "aggregator" .debug
      ("Applying mount prefixes to " ++ Text.ofNat points.length ++ " file(s)")
  let document := Document.ofFacts facts
  log "orchestrator" .info ("Documented " ++ Text.ofNat document.routes.length ++ " route(s), "
    ++ Text.ofNat document.globals.length ++ " global middleware")
  return document

/-- Where a document has been written. -/
structure Output where
  json : Path
  page : Path

/-- The folder for output: the given one, or the current one. -/
def outputFolder (d : Disk) : Option Text → Path
  | some t => Path.ofText t
  | none => ⟨[slash], d.current.reverse⟩

/-- Writes a text. One that cannot be encoded leaves an empty file. -/
def writeText (p : Path) (t : Text) : Run Unit := do
  match Utf8.encode? t with
  | some bytes => change fun d => d.write p.toText bytes
  | none => do
    change fun d => d.write p.toText ByteArray.empty
    throw .unencodable

/-- Writes a document. The JSON file is written before the page is made. -/
def publish (names : OutputNames) (folder : Option Text) (document : Document) : Run Output := do
  let target := outputFolder (← get).disk folder
  makeFolders target
  let output : Output := ⟨target ++ Path.ofText names.json, target ++ Path.ofText names.html⟩
  let json ← lift (fun | Json.PrintError.tooManyDigits => .tooManyDigits) document.jsonText
  writeText output.json json
  let page ← lift (fun | Page.Failure.tooManyDigits => .tooManyDigits) document.page
  writeText output.page page
  log "orchestrator" .info ("Wrote " ++ output.json.toText ++ " and " ++ output.page.toText)
  return output

/-- Documents a source tree. -/
def whole (s : Settings) (mounts : Option Bool) (path : Text) (folder : Option Text) :
    Run (Document × Output) := do
  let document ← build s mounts path
  let output ← publish s.output folder document
  return (document, output)

end Run

end RouteAtlas
