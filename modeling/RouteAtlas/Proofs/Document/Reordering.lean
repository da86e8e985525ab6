import RouteAtlas.Proofs.Assoc
import RouteAtlas.Proofs.Document.Mounting

/-!
# Files in another order

The same files in another order make a document with the same routes and the same middlewares for
every path, each as often as before. The mount paths of a file can come from several others, so they
change places too. For a server detail and for the paths of a middleware name the last file counts:
there two orders disagree only if two files do.
-/

namespace RouteAtlas

/-- In another order a list has the same last member, or another of its members. -/
theorem getLast?_perm {α : Type} {xs ys : List α} (h : xs.Perm ys) :
    xs.getLast? = ys.getLast? ∨
      ∃ x ∈ xs, ∃ y ∈ xs, x ≠ y ∧ xs.getLast? = some x ∧ ys.getLast? = some y := by
  cases first : xs.getLast? with
  | none =>
      obtain rfl := List.getLast?_eq_none_iff.mp first
      obtain rfl := h.nil_eq
      exact .inl rfl
  | some x =>
      cases second : ys.getLast? with
      | none =>
          obtain rfl := List.getLast?_eq_none_iff.mp second
          obtain rfl := h.eq_nil
          cases first
      | some y =>
          by_cases same : x = y
          · exact .inl (congrArg some same)
          · have inFirst := h.mem_iff.mpr (List.mem_of_getLast? second)
            exact .inr ⟨x, List.mem_of_getLast? first, y, inFirst, same, rfl, rfl⟩

theorem mountPaths_perm {fs gs : List Facts} (h : fs.Perm gs) (target : Text) :
    (mountPaths fs target).Perm (mountPaths gs target) :=
  h.flatMap fun _ _ => .refl _

/-- The copies of a route change places with the mount paths of its file. -/
theorem MountPoints.copies_perm {fs gs : List Facts} (h : fs.Perm gs) (r : Route) :
    ((ofFacts fs).copies r).Perm ((ofFacts gs).copies r) := by
  have paths := mountPaths_perm h r.source
  rw [copies_ofFacts, copies_ofFacts]
  by_cases unmounted : mountPaths fs r.source = []
  · have other : mountPaths gs r.source = [] := (unmounted ▸ paths).nil_eq.symm
    rw [if_pos unmounted, if_pos other]
  · have other : mountPaths gs r.source ≠ [] := fun none => unmounted (none ▸ paths).eq_nil
    rw [if_neg unmounted, if_neg other]
    exact paths.map _

namespace ServerDetails

/-- Of several values for a detail the last one counts. -/
theorem get_foldl_set (k : Detail) (entries : List (Detail × Value)) (d : ServerDetails) :
    (entries.foldl (fun d e => d.set e.2 e.1) d).get k =
      (Assoc.given k entries).getLast?.getD (d.get k) := by
  induction entries using List.reverseRecOn with
  | nil => rfl
  | append_singleton earlier last ih =>
      rw [List.foldl_append, List.foldl_cons, List.foldl_nil, get_set, ih, Assoc.given_concat]
      by_cases same : last.1 = k <;> simp [same]

theorem foldl_merge (fs : List Facts) (d : ServerDetails) :
    fs.foldl merge d = (fs.flatMap (·.details)).foldl (fun d e => d.set e.2 e.1) d :=
  List.foldl_flatMap.symm

end ServerDetails

namespace Document

theorem get_server_ofFacts (fs : List Facts) (k : Detail) :
    (ofFacts fs).server.get k =
      (Assoc.given k (fs.flatMap (·.details))).getLast?.getD (ServerDetails.unknown.get k) := by
  rw [← ServerDetails.get_foldl_set, ← ServerDetails.foldl_merge]
  rfl

theorem locals_ofFacts (fs : List Facts) :
    (ofFacts fs).locals = Assoc.putAll (fs.flatMap (·.locals)) [] :=
  List.foldl_flatMap.symm

theorem get?_locals_ofFacts (fs : List Facts) (name : Text) :
    (ofFacts fs).locals.get? name = (Assoc.given name (fs.flatMap (·.locals))).getLast? := by
  rw [locals_ofFacts, Assoc.get?_putAll]
  exact Option.or_none

/-- The documents of two lists of files, as far as the order of the files does not matter. Where
they differ, each has one of the values that the first files give. -/
structure AgreesUpToOrder (fs gs : List Facts) : Prop where
  routes : (ofFacts fs).routes.Perm (ofFacts gs).routes
  globals : (ofFacts fs).globals.Perm (ofFacts gs).globals
  names : ((ofFacts fs).locals.map Prod.fst).Perm ((ofFacts gs).locals.map Prod.fst)
  locals : ∀ name, (ofFacts fs).locals.get? name = (ofFacts gs).locals.get? name ∨
    ∃ p ∈ Assoc.given name (fs.flatMap (·.locals)),
      ∃ q ∈ Assoc.given name (fs.flatMap (·.locals)), p ≠ q ∧
        (ofFacts fs).locals.get? name = some p ∧ (ofFacts gs).locals.get? name = some q
  details : ∀ k, (ofFacts fs).server.get k = (ofFacts gs).server.get k ∨
    ∃ v ∈ Assoc.given k (fs.flatMap (·.details)),
      ∃ w ∈ Assoc.given k (fs.flatMap (·.details)), v ≠ w ∧
        (ofFacts fs).server.get k = v ∧ (ofFacts gs).server.get k = w

/-- The order of the files decides on the order of routes and middlewares, and on which of several
different values counts for a detail or for a middleware name. -/
theorem agreesUpToOrder {fs gs : List Facts} (h : fs.Perm gs) : AgreesUpToOrder fs gs where
  routes := by
    rw [routes_eq_copies, routes_eq_copies]
    exact h.flatMap fun f _ => .flatMap_left _ fun r _ => MountPoints.copies_perm h r
  globals := h.flatMap fun _ _ => .refl _
  names := by
    rw [locals_ofFacts, locals_ofFacts]
    exact Assoc.keys_putAll_perm (h.flatMap fun _ _ => .refl _)
  locals name := by
    rw [get?_locals_ofFacts, get?_locals_ofFacts]
    exact getLast?_perm (Assoc.given_perm (h.flatMap fun _ _ => .refl _) name)
  details k := by
    have entries : (fs.flatMap (·.details)).Perm (gs.flatMap (·.details)) :=
      h.flatMap fun _ _ => .refl _
    rw [get_server_ofFacts, get_server_ofFacts]
    obtain same | ⟨v, mem, w, other, ne, last, last'⟩ :=
      getLast?_perm (Assoc.given_perm entries k)
    · exact .inl (by rw [same])
    · refine .inr ⟨v, mem, w, other, ne, ?_, ?_⟩
      · rw [last, Option.getD_some]
      · rw [last', Option.getD_some]

/-- Two servers that mount the file of `users` at different paths, and disagree about `auth`. -/
def rivalServers : List Facts := [
  { Facts.empty "/p/app.js" with
    imports := [("users", "/p/users.js")], mounts := [("users", ["/v1", "/v2"])]
    details := [(.portNumber, .int 80)], globals := ["cors"], locals := [("auth", ["/a"])] },
  { Facts.empty "/p/users.js" with
    routes := [⟨"/list", "get", some "users", "/p/users.js", [], none⟩] },
  { Facts.empty "/p/beta.js" with
    imports := [("people", "/p/users.js")], mounts := [("people", ["/beta"])]
    details := [(.portNumber, .int 81)], globals := ["log"], locals := [("auth", ["/b"])] }]

theorem agreesUpToOrder_rivalServers :
    AgreesUpToOrder rivalServers rivalServers.reverse ∧
      (ofFacts rivalServers).routes.map (·.path) =
        ["/v1/list", "/v2/list", "/beta/list"].map Text.ofString ∧
      (ofFacts rivalServers.reverse).routes.map (·.path) =
        ["/beta/list", "/v1/list", "/v2/list"].map Text.ofString ∧
      (ofFacts rivalServers).server ≠ (ofFacts rivalServers.reverse).server :=
  ⟨agreesUpToOrder rivalServers.reverse_perm.symm, by decide, by decide, by decide⟩

end Document

end RouteAtlas
