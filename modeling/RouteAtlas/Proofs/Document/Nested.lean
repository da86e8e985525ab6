import RouteAtlas.Proofs.Assoc
import RouteAtlas.Proofs.Document.LeadingSlash

/-!
# Mounts within mounts

Routes can be put below mount points twice, first those of a router and then those of the server
that mounts it. This is the same as putting them once below joined mount paths, since joining three
paths does not depend on where one begins (`joinPath_assoc`).
-/

namespace RouteAtlas

/-! ## Joining three paths -/

/-- A mount path without the slash at its end. -/
def trimSlash (mount : Text) : Text := if mount.endsWith "/" then mount.dropLast else mount

/-- A route path with a slash at its front. -/
def leadSlash (path : Text) : Text :=
  if path.startsWith "/" then path else CodePoint.ofChar '/' :: path

theorem joinPath_eq (mount path : Text) : joinPath mount path = trimSlash mount ++ leadSlash path :=
  rfl

theorem leadSlash_cons (c : CodePoint) (rest : Text) :
    leadSlash (c :: rest) = if c = '/' then c :: rest else CodePoint.ofChar '/' :: c :: rest := by
  simp only [leadSlash, startsWith_slash_cons]

theorem leadSlash_append {s : Text} (ne : s ≠ []) (t : Text) :
    leadSlash (s ++ t) = leadSlash s ++ t := by
  cases s with
  | nil => exact absurd rfl ne
  | cons c rest =>
      rw [List.cons_append, leadSlash_cons, leadSlash_cons]
      split <;> rfl

theorem leadSlash_leadSlash (path : Text) : leadSlash (leadSlash path) = leadSlash path := by
  have first : (leadSlash path).startsWith "/" = true := startsWith_slash_below path
  rw [leadSlash, if_pos first]

theorem trimSlash_concat (s : Text) (c : CodePoint) :
    trimSlash (s ++ [c]) = if c = '/' then s else s ++ [c] := by
  have last : Text.endsWith (s ++ [c]) "/" = true ↔ c = '/' := by
    rw [Text.endsWith, List.isSuffixOf, List.reverse_append]
    exact startsWith_slash_cons c s.reverse
  simp only [trimSlash, last, List.dropLast_concat]

theorem trimSlash_append {t : Text} (ne : t ≠ []) (s : Text) :
    trimSlash (s ++ t) = s ++ trimSlash t := by
  cases t using List.reverseRecOn with
  | nil => exact absurd rfl ne
  | append_singleton front c =>
      rw [← List.append_assoc, trimSlash_concat, trimSlash_concat]
      split
      · rfl
      · rw [List.append_assoc]

/-- A path in the middle gets a slash in front and loses one at its end, in either order, unless it
is empty or a single slash. -/
theorem trimSlash_leadSlash (path : Text) :
    trimSlash (leadSlash path) =
      if trimSlash path = [] then [] else leadSlash (trimSlash path) := by
  cases path using List.reverseRecOn with
  | nil => decide
  | append_singleton front c =>
      have last_ne : [c] ≠ [] := List.cons_ne_nil c []
      by_cases front_ne : front = []
      · subst front_ne
        by_cases slash : c = '/'
        · subst slash
          decide
        · have kept : trimSlash [c] = [c] := (trimSlash_concat [] c).trans (if_neg slash)
          have led : leadSlash [c] = [CodePoint.ofChar '/'] ++ [c] :=
            (leadSlash_cons c []).trans (if_neg slash)
          rw [List.nil_append, led, trimSlash_append last_ne, kept, if_neg last_ne, led]
      · rw [leadSlash_append front_ne, trimSlash_append last_ne, trimSlash_append last_ne,
          if_neg (List.append_ne_nil_of_left_ne_nil front_ne _), leadSlash_append front_ne]

/-- A route path below a joined mount path is the joined path below the outer mount path. -/
theorem joinPath_assoc (outer inner path : Text) :
    joinPath outer (joinPath inner path) = joinPath (joinPath outer inner) path := by
  have some_slash : leadSlash inner ≠ [] := by
    have first := startsWith_slash_below inner
    intro none
    rw [leadSlash] at none
    rw [none] at first
    exact absurd first (by decide)
  have middle : leadSlash (trimSlash inner ++ leadSlash path) =
      trimSlash (leadSlash inner) ++ leadSlash path := by
    rw [trimSlash_leadSlash]
    by_cases empty : trimSlash inner = []
    · rw [if_pos empty, empty]
      exact leadSlash_leadSlash path
    · rw [if_neg empty, leadSlash_append empty]
  calc joinPath outer (joinPath inner path)
      = trimSlash outer ++ leadSlash (trimSlash inner ++ leadSlash path) := by
        rw [joinPath_eq, joinPath_eq]
    _ = trimSlash outer ++ trimSlash (leadSlash inner) ++ leadSlash path := by
        rw [middle, List.append_assoc]
    _ = trimSlash (trimSlash outer ++ leadSlash inner) ++ leadSlash path := by
        rw [trimSlash_append some_slash]
    _ = joinPath (joinPath outer inner) path := by rw [joinPath_eq, joinPath_eq]

/-! ## Mount points below mount points -/

namespace MountPoints

/-- Mount paths below mount paths, each inner path below every outer one. Where there are none, the
others stand alone. -/
def nestPaths (inner outer : List Text) : List Text :=
  if inner = [] then outer
  else if outer = [] then inner
  else inner.flatMap fun path => outer.map fun mount => joinPath mount path

/-- The mount points of files that are mounted at `inner`, below those at `outer`. -/
def nest (inner outer : MountPoints) : MountPoints :=
  inner.map (fun e => (e.1, nestPaths e.2 (outer.of e.1))) ++
    outer.filter fun e => (inner.get? e.1).isNone

theorem of_nest (inner outer : MountPoints) (file : Text) :
    (inner.nest outer).of file = nestPaths (inner.of file) (outer.of file) := by
  have found : (inner.nest outer).get? file =
      ((inner.get? file).map fun paths => nestPaths paths (outer.of file)).or
        (if (inner.get? file).isNone then outer.get? file else none) := by
    rw [nest, Assoc.get?_append, Assoc.get?_map file fun f paths => nestPaths paths (outer.of f),
      Assoc.get?_filter file fun f => (inner.get? f).isNone]
  unfold of at found ⊢
  rw [found]
  cases inner.get? file <;> rfl

/-- Which copies a route has is decided by the mount paths of its file. -/
theorem copies_of_nil {points : MountPoints} {r : Route} (none : points.of r.source = []) :
    points.copies r = [r] := by
  rw [copies, none]

theorem copies_of_ne_nil {points : MountPoints} {r : Route} (ne : points.of r.source ≠ []) :
    points.copies r =
      (points.of r.source).map fun mount => { r with path := joinPath mount r.path } := by
  unfold copies
  split
  · next none => exact absurd none ne
  · rfl

/-- The copies of copies come in the order of the inner mount paths, and for each of them in the
order of the outer ones. -/
theorem copies_nest (inner outer : MountPoints) (r : Route) :
    (inner.copies r).flatMap outer.copies = (inner.nest outer).copies r := by
  have paths := of_nest inner outer r.source
  by_cases unmounted : inner.of r.source = []
  · rw [nestPaths, if_pos unmounted] at paths
    rw [copies_of_nil unmounted, List.flatMap_singleton, copies, copies, paths]
  · rw [nestPaths, if_neg unmounted] at paths
    rw [copies_of_ne_nil unmounted, List.flatMap_map]
    by_cases alone : outer.of r.source = []
    · rw [if_pos alone] at paths
      have each (mount : Text) : outer.copies { r with path := joinPath mount r.path } =
          [{ r with path := joinPath mount r.path }] := copies_of_nil alone
      rw [copies_of_ne_nil (paths ▸ unmounted), paths]
      simp only [each]
      exact List.map_eq_flatMap.symm
    · rw [if_neg alone] at paths
      have each (mount : Text) : outer.copies { r with path := joinPath mount r.path } =
          (outer.of r.source).map fun above =>
            { r with path := joinPath above (joinPath mount r.path) } := copies_of_ne_nil alone
      have nested : (inner.nest outer).of r.source ≠ [] := by
        obtain ⟨mount, mounted⟩ := List.exists_mem_of_ne_nil _ unmounted
        rw [paths, Ne, List.flatMap_eq_nil_iff]
        exact fun none => alone (List.map_eq_nil_iff.mp (none mount mounted))
      rw [copies_of_ne_nil nested, paths, List.map_flatMap]
      simp only [each, joinPath_assoc, List.map_map, Function.comp_def]

/-- Putting routes below `inner` and then below `outer` is putting them below the nested mount
points, and it does with each part of a list what it does with the list. -/
theorem apply_apply (inner outer : MountPoints) (routes more : List Route) :
    outer.apply (inner.apply routes) = (inner.nest outer).apply routes ∧
      (∀ file, (inner.nest outer).of file =
        if inner.of file = [] then outer.of file
        else if outer.of file = [] then inner.of file
        else (inner.of file).flatMap fun path => (outer.of file).map fun mount =>
          joinPath mount path) ∧
      inner.apply (routes ++ more) = inner.apply routes ++ inner.apply more ∧
      ∀ mount path rest : Text,
        joinPath mount (joinPath path rest) = joinPath (joinPath mount path) rest := by
  refine ⟨?_, of_nest inner outer, List.flatMap_append, joinPath_assoc⟩
  simp only [apply, List.flatMap_assoc, copies_nest]

end MountPoints

end RouteAtlas
