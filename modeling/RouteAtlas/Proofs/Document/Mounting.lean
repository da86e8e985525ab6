import Mathlib.Algebra.GroupWithZero.Nat
import RouteAtlas.Document.Merge

/-!
# Routes below their mount points

Mount points are gathered mount by mount into one keyed list. `mountPaths` reads the mount paths of
a file straight off the facts instead. Both agree, so a document's routes are known one by one.
-/

namespace RouteAtlas

/-- The paths at which a file mounts `target`, in the order of its mounts. -/
def Facts.pathsTo (f : Facts) (target : Text) : List Text :=
  f.mounts.flatMap fun mount => if f.imports.get? mount.1 = some target then mount.2 else []

/-- The paths at which some files mount `target`, file after file. -/
def mountPaths (fs : List Facts) (target : Text) : List Text :=
  fs.flatMap fun f => f.pathsTo target

/-- The facts without the mounts of names that stand for no file. -/
def Facts.dropLooseMounts (f : Facts) : Facts :=
  { f with mounts := f.mounts.filter fun mount => (f.imports.get? mount.1).isSome }

namespace MountPoints

theorem of_extend (points : MountPoints) (target : Text) (paths : List Text) (file : Text) :
    MountPoints.of (points.extend target paths) file =
      points.of file ++ if target = file then paths else [] :=
  Assoc.getD_extend target file paths points

/-- One file adds its own paths to those of each target. -/
theorem of_add (points : MountPoints) (f : Facts) (file : Text) :
    (points.add f).of file = points.of file ++ f.pathsTo file := by
  unfold add Facts.pathsTo
  induction f.mounts generalizing points with
  | nil => simp
  | cons mount rest ih =>
      rw [List.foldl_cons, ih, List.flatMap_cons, ← List.append_assoc]
      congr 1
      cases h : f.imports.get? mount.1 with
      | none => simp [h]
      | some target => simp only [h, of_extend, Option.some.injEq]

theorem of_foldl_add (fs : List Facts) (points : MountPoints) (file : Text) :
    MountPoints.of (fs.foldl add points) file = points.of file ++ mountPaths fs file := by
  induction fs generalizing points with
  | nil => simp [mountPaths]
  | cons f rest ih =>
      rw [List.foldl_cons, ih, of_add]
      simp only [mountPaths, List.flatMap_cons, List.append_assoc]

/-- The gathered mount points hold for each file its mount paths. -/
theorem of_ofFacts (fs : List Facts) (file : Text) :
    (ofFacts fs).of file = mountPaths fs file := by
  rw [ofFacts, of_foldl_add]
  rfl

/-- A route of a mounted file has one copy below each mount path; another route stays as it is. -/
theorem copies_ofFacts (fs : List Facts) (r : Route) :
    (ofFacts fs).copies r =
      if mountPaths fs r.source = [] then [r]
      else (mountPaths fs r.source).map fun mount => { r with path := joinPath mount r.path } := by
  unfold copies
  rw [of_ofFacts]
  cases mountPaths fs r.source with
  | nil => rfl
  | cons mount rest => rfl

theorem length_copies_ofFacts (fs : List Facts) (r : Route) :
    ((ofFacts fs).copies r).length = max 1 (mountPaths fs r.source).length := by
  rw [copies_ofFacts]
  split
  · next h => simp [h]
  · next h =>
      have positive : 0 < (mountPaths fs r.source).length := List.length_pos_iff.mpr h
      rw [List.length_map]
      omega

end MountPoints

private theorem flatMap_filter {α β : Type} (p : α → Bool) (g : α → List β) (xs : List α)
    (h : ∀ x, p x = false → g x = []) : (xs.filter p).flatMap g = xs.flatMap g := by
  induction xs with
  | nil => rfl
  | cons x rest ih =>
      cases hp : p x with
      | true => simp [hp, ih]
      | false => simp [hp, h x hp, ih]

/-- A name that stands for no file mounts nothing. -/
theorem Facts.pathsTo_dropLooseMounts (f : Facts) (target : Text) :
    f.dropLooseMounts.pathsTo target = f.pathsTo target := by
  apply flatMap_filter
  intro mount loose
  have h : f.imports.get? mount.1 = none := by simpa using loose
  simp [dropLooseMounts, h]

theorem mountPaths_dropLooseMounts (fs : List Facts) (target : Text) :
    mountPaths (fs.map Facts.dropLooseMounts) target = mountPaths fs target := by
  simp only [mountPaths, List.flatMap_map, Facts.pathsTo_dropLooseMounts]

/-- The routes of a document are those of the files in order, each copied in its place. -/
theorem Document.routes_eq_copies (fs : List Facts) :
    (Document.ofFacts fs).routes =
      fs.flatMap fun f => f.routes.flatMap fun r => (MountPoints.ofFacts fs).copies r := by
  simp only [Document.ofFacts, MountPoints.apply, List.flatMap_assoc]

/-- A mount of a file meets every route of the file. -/
theorem Document.mem_routes_of_mount {fs : List Facts} {f g : Facts} (mounter : f ∈ fs)
    (mounted : g ∈ fs) {localName target mount : Text} {paths : List Text}
    (imported : f.imports.get? localName = some target) (made : (localName, paths) ∈ f.mounts)
    (mem : mount ∈ paths) {r : Route} (isRoute : r ∈ g.routes) (source : r.source = target) :
    { r with path := joinPath mount r.path } ∈ (Document.ofFacts fs).routes := by
  have inFile : mount ∈ f.pathsTo target := by
    refine List.mem_flatMap.mpr ⟨(localName, paths), made, ?_⟩
    rw [if_pos imported]
    exact mem
  have isMount : mount ∈ mountPaths fs r.source := by
    rw [source]
    exact List.mem_flatMap.mpr ⟨f, mounter, inFile⟩
  rw [routes_eq_copies]
  refine List.mem_flatMap.mpr ⟨g, mounted, List.mem_flatMap.mpr ⟨r, isRoute, ?_⟩⟩
  rw [MountPoints.copies_ofFacts, if_neg (List.ne_nil_of_mem isMount)]
  exact List.mem_map.mpr ⟨mount, isMount, rfl⟩

/-- A document has each route of each file once below every mount path of the file, or once as it
is when the file is not mounted, and no other route. Names that stand for no file change nothing. -/
theorem Document.routes_ofFacts (fs : List Facts) :
    (Document.ofFacts fs).routes =
        (fs.flatMap fun f => f.routes.flatMap fun r =>
          if mountPaths fs r.source = [] then [r]
          else (mountPaths fs r.source).map fun mount =>
            { r with path := joinPath mount r.path }) ∧
      (Document.ofFacts fs).routes.length =
        (fs.map fun f =>
          (f.routes.map fun r => max 1 (mountPaths fs r.source).length).sum).sum ∧
      (Document.ofFacts (fs.map Facts.dropLooseMounts)).routes = (Document.ofFacts fs).routes := by
  refine ⟨?_, ?_, ?_⟩
  · simp only [routes_eq_copies, MountPoints.copies_ofFacts]
  · simp only [routes_eq_copies, List.length_flatMap, MountPoints.length_copies_ofFacts]
  · simp only [routes_eq_copies, MountPoints.copies_ofFacts, mountPaths_dropLooseMounts,
      List.flatMap_map]
    rfl

end RouteAtlas
