import RouteAtlas.Assoc
import RouteAtlas.Disk

/-!
# Import resolution

A relative import names a file beside its importer. The path is found by text alone: the folder of
the importer, followed along the specifier. The file is the first of the path itself and the path
with an ending of `endings` that there is.
-/

namespace RouteAtlas.Import

/-- The endings to try, in order: a file of a folder is tried after the files beside the folder. -/
def endings : List Text := ["", ".ts", ".js", "/index.ts", "/index.js"]

/-- A folder by its root and its place; the root keeps the two slashes that a path may begin
with. -/
structure Folder where
  root : Text
  place : Place
deriving DecidableEq

/-- The folder of a file, by text alone. -/
def folderOf (current : Place) (file : Text) : Folder :=
  let p := Path.ofText file
  if p.isAbsolute then ⟨p.root, (Place.walk [] p.names).tail⟩
  else ⟨[slash], (Place.walk current p.names).tail⟩

/-- The path that a specifier leads to from a folder. -/
def Folder.follow (folder : Folder) (specifier : Text) : Text :=
  Path.textBelow folder.root (folder.place.walk (Text.splitAt slash specifier))

/-- The paths to try for a specifier. -/
def candidates (folder : Folder) (specifier : Text) : List Text :=
  endings.map (folder.follow specifier ++ ·)

/-- The file that a specifier leads to from a folder; only relative specifiers lead anywhere. -/
def locate (d : Disk) (folder : Folder) (specifier : Text) : Option Text :=
  if specifier.startsWith "." then (candidates folder specifier).find? d.isFile else none

/-- The file that a specifier leads to from a file. -/
def resolve (d : Disk) (importer specifier : Text) : Option Text :=
  locate d (folderOf d.current importer) specifier

/-- The answers given so far, by folder and specifier. -/
abbrev Memo := Assoc (Folder × Text) (Option Text)

/-- Answers from memory, or looks and remembers. -/
def remember (d : Disk) (importer specifier : Text) : StateM Memo (Option Text) := do
  let key := (folderOf d.current importer, specifier)
  match Assoc.get? key (← get) with
  | some answer => return answer
  | none =>
    let answer := resolve d importer specifier
    modify (Assoc.put key answer)
    return answer

end RouteAtlas.Import
