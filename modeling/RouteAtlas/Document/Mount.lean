import RouteAtlas.Facts

/-!
# Mounts

A file that mounts an imported name makes the routes of the imported file appear below the mount
path. A file that is mounted several times has each of its routes several times.
-/

namespace RouteAtlas

/-- Joins a mount path and a route path. One slash at the end of the mount path is left out, and the
route path begins with a slash. -/
def joinPath (mount path : Text) : Text :=
  let above := if mount.endsWith "/" then mount.dropLast else mount
  let below := if path.startsWith "/" then path else CodePoint.ofChar '/' :: path
  above ++ below

/-- The paths at which files are mounted. -/
abbrev MountPoints := Assoc Text (List Text)

namespace MountPoints

/-- Adds the mounts of one file, as far as its imports tell which file a name stands for. -/
def add (points : MountPoints) (f : Facts) : MountPoints :=
  f.mounts.foldl (fun points (localName, paths) =>
    match f.imports.get? localName with
    | some target => points.extend target paths
    | none => points) points

/-- The mount points of some files, in their order. -/
def ofFacts (fs : List Facts) : MountPoints := fs.foldl add []

/-- The mount paths of a file. -/
def of (points : MountPoints) (file : Text) : List Text := (points.get? file).getD []

/-- The copies of a route, one for each mount path of its file; without any, the route itself. -/
def copies (points : MountPoints) (r : Route) : List Route :=
  match points.of r.source with
  | [] => [r]
  | paths => paths.map fun mount => { r with path := joinPath mount r.path }

/-- Puts routes below the mount points of their files. -/
def apply (points : MountPoints) (routes : List Route) : List Route :=
  routes.flatMap points.copies

end MountPoints

end RouteAtlas
