import RouteAtlas.Disk

/-!
# Changing files

Every change gives a new file tree or says why it cannot be made. What a change does not concern
stays as it is, the order of entries included. Folders are made one by one, so some of them may be
there when the next one cannot be made.
-/

namespace RouteAtlas

namespace Entry

/-- Puts an entry among entries: in the place of the one with its name, or at the end. -/
def putAmong (name : Text) (new : Entry) : List (Text × Entry) → List (Text × Entry)
  | [] => [(name, new)]
  | (n, e) :: rest => if n = name then (n, new) :: rest else (n, e) :: putAmong name new rest

/-- Takes the entry with a name out. -/
def removeAmong (name : Text) : List (Text × Entry) → List (Text × Entry)
  | [] => []
  | (n, e) :: rest => if n = name then rest else (n, e) :: removeAmong name rest

/-- Changes the folder at the end of a chain of names. -/
def changeAt (change : List (Text × Entry) → List (Text × Entry)) : List Text → Entry → Entry
  | [], folder es => folder (change es)
  | n :: ns, folder es =>
    match among n es with
    | some e => folder (putAmong n (changeAt change ns e) es)
    | none => folder es
  | _, e => e

end Entry

/-- How far a change of several steps has come: the files as they are then, and what ended it. A
step that fails does not take back those before it. -/
structure Reached where
  disk : Disk
  failure : Option FileError

namespace Reached

/-- How far one step has come. -/
def ofStep (d : Disk) : Except FileError Disk → Reached
  | .ok d => ⟨d, none⟩
  | .error e => ⟨d, some e⟩

/-- The files, if nothing failed. -/
def result (r : Reached) : Except FileError Disk :=
  match r.failure with
  | none => .ok r.disk
  | some e => .error e

section Result

variable {r : Reached}

theorem result_eq_ok {d : Disk} (h : r.result = .ok d) : r.failure = none ∧ r.disk = d := by
  unfold result at h
  split at h
  · next none => exact ⟨none, Except.ok.inj h⟩
  · cases h

theorem result_eq_error {e : FileError} (h : r.result = .error e) : r.failure = some e := by
  unfold result at h
  split at h
  · cases h
  · next failed => rw [failed, Except.error.inj h]

end Result

end Reached

namespace Disk

/-- Changes the folder at a place. -/
def changeAt (d : Disk) (change : List (Text × Entry) → List (Text × Entry)) (p : Place) : Disk :=
  { d with entries := (d.root.changeAt change p.reverse).entries }

/-- Opens a file for writing: `change` makes its new bytes from the old ones, which are empty for a
new file. -/
def modify (d : Disk) (path : Text) (change : ByteArray → ByteArray) : Except FileError Disk :=
  match d.lead true path with
  | .ok (.entry (name :: folder) (.file bytes)) =>
    .ok (d.changeAt (Entry.putAmong name (.file (change bytes))) folder)
  | .ok (.entry ..) => .error ⟨.isFolder, path⟩
  | .ok (.missing folder name) =>
    .ok (d.changeAt (Entry.putAmong name (.file (change ByteArray.empty))) folder)
  | .error c => .error ⟨c, path⟩

/-- Writes a file anew. -/
def write (d : Disk) (path : Text) (bytes : ByteArray) : Except FileError Disk :=
  d.modify path fun _ => bytes

/-- Adds to the end of a file. -/
def append (d : Disk) (path : Text) (bytes : ByteArray) : Except FileError Disk :=
  d.modify path (· ++ bytes)

/-- Removes a file or a link. -/
def remove (d : Disk) (path : Text) : Except FileError Disk :=
  match d.lead false path with
  | .ok (.entry (_ :: _) (.folder _)) => .error ⟨.isFolder, path⟩
  | .ok (.entry (name :: folder) _) => .ok (d.changeAt (Entry.removeAmong name) folder)
  | .ok (.entry [] _) => .error ⟨.isFolder, path⟩
  | .ok (.missing ..) => .error ⟨.notFound, path⟩
  | .error c => .error ⟨c, path⟩

/-- Makes a link. -/
def createLink (d : Disk) (path target : Text) : Except FileError Disk :=
  match d.lead false path with
  | .ok (.entry ..) => .error ⟨.alreadyThere, path⟩
  | .ok (.missing folder name) => .ok (d.changeAt (Entry.putAmong name (.link target)) folder)
  | .error c => .error ⟨c, path⟩

/-- Makes one folder. -/
def createFolder (d : Disk) (path : Text) : Except FileError Disk :=
  match d.lead false path with
  | .ok (.entry ..) => .error ⟨.alreadyThere, path⟩
  | .ok (.missing folder name) => .ok (d.changeAt (Entry.putAmong name (.folder [])) folder)
  | .error c => .error ⟨c, path⟩

/-- Makes a folder unless there is one. -/
def ensureFolder (d : Disk) (path : Text) : Except FileError Disk :=
  match d.createFolder path with
  | .ok d => .ok d
  | .error e => if d.isFolder path then .ok d else .error e

/-- Makes the folder of a path and, if there is nothing to make it in, first those above it, at most
`names` of them. -/
def reachFoldersAbove (d : Disk) (p : Path) : (names : Nat) → Reached
  | 0 => .ofStep d (d.ensureFolder p.toText)
  | names + 1 =>
    match d.createFolder p.toText with
    | .ok d => ⟨d, none⟩
    | .error e =>
      if e.cause = .notFound then
        let above := d.reachFoldersAbove p.parent names
        match above.failure with
        | none => .ofStep above.disk (above.disk.ensureFolder p.toText)
        | some _ => above
      else ⟨d, if d.isFolder p.toText then none else some e⟩

/-- Makes a folder and the folders around it, as far as they are missing. -/
def reachFolders (d : Disk) (p : Path) : Reached := d.reachFoldersAbove p p.names.length

/-- The files with a folder and the folders around it, if all of them can be made. -/
def ensureFolders (d : Disk) (p : Path) : Except FileError Disk := (d.reachFolders p).result

end Disk

end RouteAtlas
