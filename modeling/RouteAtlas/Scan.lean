import RouteAtlas.Disk.Real

/-!
# Finding source files

A source tree is walked from its top: the files of a folder first, then the folders in it, both by
name. Links to folders are not entered. A path below the top that contains an excluded text is left
out, with everything below it.
-/

namespace RouteAtlas.Scan

/-- The path contains one of the excluded texts; the empty text excludes nothing. -/
def isExcluded (path : Text) (excluded : List Text) : Bool :=
  excluded.any fun part => !part.isEmpty && Text.hasPart part path

/-- Why a source tree cannot be walked. -/
inductive Failure
  | noFolder (path : Text)
  | notAFolder (path : Text)
  | unusable (error : FileError)
deriving DecidableEq

/-- The message of a failure that the walk itself notices. -/
def Failure.message? : Failure → Option Text
  | .noFolder path => some ("Folder not found: " ++ path)
  | .notAFolder path => some ("Source path is not a directory: " ++ path)
  | .unusable _ => none

/-- The files to look for. -/
structure Choice where
  excluded : List Text
  extensions : List Text

/-- The path of a name in a folder that is `above` the top; the top itself has an empty path. -/
def below (above name : Text) : Text := if above = [] then name else above ++ [slash] ++ name

/-- The names that are to be walked, in order. -/
def kept (choice : Choice) (above : Text) (names : List Text) : List Text :=
  (Text.sort names).filter fun n => !isExcluded (below above n) choice.excluded

/-- The entry with a name is a folder, or a link to one. -/
def leadsToFolder (d : Disk) (folder : Place) (name : Text) : Entry → Bool
  | .file _ => false
  | .folder _ => true
  | .link _ => d.isFolder (Place.toText (name :: folder))

/-- The names of the entries that do not lead to a folder. -/
def fileNames (d : Disk) (folder : Place) (es : List (Text × Entry)) : List Text :=
  (es.filter fun e => !leadsToFolder d folder e.1 e.2).map Prod.fst

mutual

/-- The source files at and below an entry. -/
def filesOf (d : Disk) (choice : Choice) (folder : Place) (above : Text) : Entry → List Place
  | .file _ => []
  | .link _ => []
  | .folder es =>
    let files := (kept choice above (fileNames d folder es)).map (· :: folder)
    let folders := (filesAmong d choice folder above es).mergeSort fun a b => Text.le a.1 b.1
    files ++ folders.flatMap Prod.snd

/-- The source files below each folder among some entries that is not excluded. -/
def filesAmong (d : Disk) (choice : Choice) (folder : Place) (above : Text) :
    List (Text × Entry) → List (Text × List Place)
  | [] => []
  | (name, e) :: rest =>
    let others := filesAmong d choice folder above rest
    match e with
    | .folder es =>
      if isExcluded (below above name) choice.excluded then others
      else (name, filesOf d choice (name :: folder) (below above name) (.folder es)) :: others
    | _ => others

end

/-- The file has one of the endings looked for, and there is a file. -/
def isSource (d : Disk) (choice : Choice) (p : Place) : Except FileError Bool :=
  if choice.extensions.any fun x => Text.endsWith (p.headD []) x then d.hasFile p.toText
  else .ok false

/-- The source files of a tree, in order. -/
def sources (d : Disk) (choice : Choice) (top : Place) : Except Failure (List Text) := do
  match d.doesExist top.toText with
  | .error e => .error (.unusable e)
  | .ok false => .error (.noFolder top.toText)
  | .ok true =>
    match d.entry top.toText with
    | .ok (.folder es) =>
      match (filesOf d choice top [] (.folder es)).filterM (isSource d choice) with
      | .ok files => .ok (files.map Place.toText)
      | .error e => .error (.unusable e)
    | _ => .error (.notAFolder top.toText)

/-- The source files of the tree that a path leads to. -/
def run (d : Disk) (choice : Choice) (path : Text) : Except Failure (List Text) := do
  match (d.expandHome (Path.ofText path)).bind d.realPlace with
  | .error e => .error (.unusable e)
  | .ok top => sources d choice top

end RouteAtlas.Scan
