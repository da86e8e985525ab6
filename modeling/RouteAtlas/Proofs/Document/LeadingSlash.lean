import RouteAtlas.Proofs.Document.Mounting

/-!
# Routes that begin with a slash

Joining puts a slash between a mount path and a route path, and none in front of the mount path. So
a route of a mounted file begins with a slash just when its mount path does, or when that path is
empty and the slash in front of the route comes first.
-/

namespace RouteAtlas

/-- The mount path leaves the slash at the front of the paths below it. -/
def LeadsWithSlash (mount : Text) : Prop := mount = [] ∨ mount.startsWith "/" = true

instance (mount : Text) : Decidable (LeadsWithSlash mount) := inferInstanceAs (Decidable (_ ∨ _))

theorem startsWith_slash_cons (c : CodePoint) (rest : Text) :
    Text.startsWith (c :: rest) "/" = true ↔ c = '/' := by
  have slash : Text.ofString "/" = [CodePoint.ofChar '/'] := rfl
  simp only [Text.startsWith, slash, List.isPrefixOf, Bool.and_true, beq_iff_eq]
  exact eq_comm

theorem endsWith_slash_singleton (c : CodePoint) :
    Text.endsWith [c] "/" = true ↔ c = '/' := by
  exact startsWith_slash_cons c []

/-- The part below a mount path begins with a slash, whatever the route is written as. -/
theorem startsWith_slash_below (path : Text) :
    Text.startsWith (if path.startsWith "/" then path else CodePoint.ofChar '/' :: path) "/" =
      true := by
  split
  · assumption
  · exact (startsWith_slash_cons _ path).mpr rfl

/-- A joined path begins as its mount path does; behind an empty one, or a single slash, the part
below comes first. -/
theorem startsWith_slash_joinPath (mount path : Text) :
    (joinPath mount path).startsWith "/" = true ↔ LeadsWithSlash mount := by
  match mount with
  | [] =>
      have noSlash : Text.endsWith [] "/" = false := rfl
      simp only [joinPath, noSlash, Bool.false_eq_true, if_false, List.nil_append]
      exact iff_of_true (startsWith_slash_below path) (.inl rfl)
  | [c] =>
      by_cases slash : c = '/'
      · have leads : LeadsWithSlash [c] := .inr ((startsWith_slash_cons c []).mpr slash)
        simp only [joinPath, (endsWith_slash_singleton c).mpr slash, if_true,
          List.dropLast_singleton, List.nil_append]
        exact iff_of_true (startsWith_slash_below path) leads
      · rw [joinPath, if_neg (mt (endsWith_slash_singleton c).mp slash)]
        simp only [List.cons_append, startsWith_slash_cons, LeadsWithSlash]
        simp [slash]
  | c :: d :: rest =>
      have first : ∃ above, joinPath (c :: d :: rest) path = c :: above := by
        unfold joinPath
        split <;> exact ⟨_, rfl⟩
      obtain ⟨above, eq⟩ := first
      rw [eq, startsWith_slash_cons, LeadsWithSlash, startsWith_slash_cons]
      simp

/-- Every route of a mounted file is one of the file's own routes below one of its mount paths, and
begins with a slash just when that mount path is empty or begins with one. -/
theorem Document.startsWith_slash_of_mounted (fs : List Facts) {r : Route}
    (mem : r ∈ (Document.ofFacts fs).routes) (mounted : (MountPoints.ofFacts fs).of r.source ≠ []) :
    ∃ mount ∈ (MountPoints.ofFacts fs).of r.source, ∃ f ∈ fs, ∃ written ∈ f.routes,
      r = { written with path := joinPath mount written.path } ∧
      (r.path.startsWith "/" = true ↔ LeadsWithSlash mount) := by
  rw [routes_eq_copies] at mem
  obtain ⟨f, isFile, inFile⟩ := List.mem_flatMap.mp mem
  obtain ⟨written, isRoute, copied⟩ := List.mem_flatMap.mp inFile
  rw [MountPoints.copies_ofFacts] at copied
  split at copied
  · next none =>
      obtain rfl := List.mem_singleton.mp copied
      rw [MountPoints.of_ofFacts] at mounted
      exact absurd none mounted
  · obtain ⟨mount, isMount, rfl⟩ := List.mem_map.mp copied
    rw [MountPoints.of_ofFacts]
    exact ⟨mount, isMount, f, isFile, written, isRoute, rfl, startsWith_slash_joinPath _ _⟩

/-- A server mounts `users`, which has one route, at these paths. -/
def mountedAt (paths : List Text) : List Facts := [
  { Facts.empty "/p/app.js" with
    imports := [("users", "/p/users.js")], mounts := [("users", paths)] },
  { Facts.empty "/p/users.js" with
    routes := [⟨"list", "get", some "users", "/p/users.js", [], none⟩] }]

/-- Three mounts of one file, one of them without a slash in front. -/
def mountedThrice : List Facts := mountedAt ["/v1/", "", "v2"]

theorem Document.startsWith_slash_mountedThrice :
    (Document.ofFacts mountedThrice).routes.map (·.path) =
        ["/v1/list", "/list", "v2/list"].map Text.ofString ∧
      ∀ r ∈ (Document.ofFacts mountedThrice).routes,
        ∃ mount ∈ (MountPoints.ofFacts mountedThrice).of r.source,
          ∃ f ∈ mountedThrice, ∃ written ∈ f.routes,
            r = { written with path := joinPath mount written.path } ∧
            (r.path.startsWith "/" = true ↔ LeadsWithSlash mount) := by
  refine ⟨by decide, fun r mem => ?_⟩
  have mounted : ∀ r ∈ (Document.ofFacts mountedThrice).routes,
      (MountPoints.ofFacts mountedThrice).of r.source ≠ [] := by decide
  exact Document.startsWith_slash_of_mounted _ mem (mounted r mem)

/-- A mount path without a slash in front passes on to the routes below it. -/
theorem Document.routes_without_slash :
    (Document.ofFacts (mountedAt ["api"])).routes.map (·.path) = [Text.ofString "api/list"] ∧
      ¬ ∀ fs : List Facts, ∀ r ∈ (Document.ofFacts fs).routes,
        (MountPoints.ofFacts fs).of r.source ≠ [] → r.path.startsWith "/" = true := by
  refine ⟨by decide, fun all => ?_⟩
  have here := all (mountedAt ["api"])
  revert here
  decide

end RouteAtlas
