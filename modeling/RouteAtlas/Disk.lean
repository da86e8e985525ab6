import RouteAtlas.Disk.Name
import RouteAtlas.Path

/-!
# Files

A file tree is a value: files with their bytes, folders with their entries, and links. A path leads
to an entry by following its names one after the other, and links on the way; two dots lead from a
folder to the folder around it. At most forty links are followed for one path, and a name that is
too long is refused where it is looked for.
-/

namespace RouteAtlas

/-- An entry of the file tree. -/
inductive Entry
  | file (bytes : ByteArray)
  | link (target : Text)
  | folder (entries : List (Text × Entry))

/-- Why a path could not be used. -/
inductive FileCause
  | notFound
  | notFolder
  | isFolder
  | alreadyThere
  | tooManyLinks
  | nameTooLong
  | nulInPath
  | unencodable
  | linkLoop
  | unknownUser
deriving DecidableEq

/-- A failed use of a path. -/
structure FileError where
  cause : FileCause
  path : Text
deriving DecidableEq

/-- A file tree with the folder in which relative paths begin and a user's own folder. -/
structure Disk where
  entries : List (Text × Entry)
  current : Place
  home : Text

namespace Entry

/-- The entry with a name, among entries. -/
def among (name : Text) : List (Text × Entry) → Option Entry
  | [] => none
  | (n, e) :: rest => if n = name then some e else among name rest

/-- The entries of a folder; nothing else has any. -/
def entries : Entry → List (Text × Entry)
  | folder es => es
  | _ => []

/-- The entry at the end of a chain of names, outermost first, links not followed. -/
def at? : List Text → Entry → Option Entry
  | [], e => some e
  | n :: ns, e => (among n e.entries).bind (at? ns)

end Entry

/-- Where a path leads: to an entry, or to a name that a folder does not have. -/
inductive Lead
  | entry (place : Place) (entry : Entry)
  | missing (folder : Place) (name : Text)

namespace Disk

/-- The whole tree as one folder. -/
def root (d : Disk) : Entry := .folder d.entries

/-- The entry at a place. -/
def entryAt? (d : Disk) (p : Place) : Option Entry := d.root.at? p.reverse

/-- Follows names from a folder, where `follow` says what to do with a link. A link at the very end
is followed only if `last` is true. -/
def leadWith (follow : Place → List Text → Except FileCause Lead) (d : Disk) (last : Bool) :
    Place → List Text → Except FileCause Lead
  | here, [] =>
    match d.entryAt? here with
    | some e => .ok (.entry here e)
    | none => .error .notFound
  | here, name :: names =>
    if name = [] ∨ name = Text.ofString "." then leadWith follow d last here names
    else if name = Text.ofString ".." then leadWith follow d last here.tail names
    else if Name.limit < Name.size name then .error .nameTooLong
    else
      match d.entryAt? (name :: here) with
      | none => if names.isEmpty then .ok (.missing here name) else .error .notFound
      | some (.link target) =>
        if names.isEmpty && !last then .ok (.entry (name :: here) (.link target))
        else
          let start := if target.head? = some slash then [] else here
          follow start (Text.splitAt slash target ++ names)
      | some (.file bytes) =>
        if names.isEmpty then .ok (.entry (name :: here) (.file bytes)) else .error .notFolder
      | some (.folder _) => leadWith follow d last (name :: here) names

/-- Follows names from a folder and at most `links` links. -/
def leadFrom (d : Disk) (last : Bool) : (links : Nat) → Place → List Text → Except FileCause Lead
  | 0 => leadWith (fun _ _ => .error .tooManyLinks) d last
  | links + 1 => leadWith (d.leadFrom last links) d last

/-- The spelling of a path that the file tree gives it. -/
def spelling (t : Text) : Except FileCause Text :=
  if t.all CodePoint.hasBytes then
    if CodePoint.ofChar '\x00' ∈ t then .error .nulInPath else .ok (Name.respell t)
  else .error .unencodable

/-- Where a path text leads. -/
def lead (d : Disk) (last : Bool) (path : Text) : Except FileCause Lead := do
  let t ← spelling path
  if t = [] then .error .notFound
  else
    let names := Text.splitAt slash t
    let start := if t.head? = some slash then [] else d.current
    d.leadFrom last 40 start names

/-- The entry that a path text leads to, links followed. -/
def entry (d : Disk) (path : Text) : Except FileCause Entry :=
  match d.lead true path with
  | .ok (.entry _ e) => .ok e
  | .ok (.missing ..) => .error .notFound
  | .error c => .error c

/-- The path leads to a folder. -/
def isFolder (d : Disk) (path : Text) : Bool :=
  match d.entry path with
  | .ok (.folder _) => true
  | _ => false

/-- The path leads to a file. -/
def isFile (d : Disk) (path : Text) : Bool :=
  match d.entry path with
  | .ok (.file _) => true
  | _ => false

/-- The path leads to something; a path with a name that is too long is refused. -/
def doesExist (d : Disk) (path : Text) : Except FileError Bool :=
  match d.entry path with
  | .ok _ => .ok true
  | .error .nameTooLong => .error ⟨.nameTooLong, path⟩
  | .error _ => .ok false

/-- The path leads to a file; a path with a name that is too long is refused. -/
def hasFile (d : Disk) (path : Text) : Except FileError Bool :=
  match d.entry path with
  | .ok (.file _) => .ok true
  | .ok _ => .ok false
  | .error .nameTooLong => .error ⟨.nameTooLong, path⟩
  | .error _ => .ok false

/-- The bytes of a file. -/
def read (d : Disk) (path : Text) : Except FileError ByteArray :=
  match d.entry path with
  | .ok (.file bytes) => .ok bytes
  | .ok _ => .error ⟨.isFolder, path⟩
  | .error c => .error ⟨c, path⟩

end Disk

end RouteAtlas
