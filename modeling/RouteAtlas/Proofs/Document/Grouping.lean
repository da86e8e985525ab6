import RouteAtlas.Document.Page
import RouteAtlas.Proofs.Assoc

/-!
# Routes by method

Routes are grouped by the upper case of their methods. Nothing is lost and nothing is shown twice:
the groups stand in the order in which their methods first appear, and each holds its routes in
their order.
-/

namespace RouteAtlas

namespace Page

/-- The routes with the given method in upper case, in their order. -/
def withMethod (routes : List Route) (method : Text) : List Route :=
  routes.filter fun r => r.method.upper = method

/-- Grouping collects the routes under the upper case of their methods. -/
theorem groupByMethod_eq_collect (routes : List Route) :
    groupByMethod routes = Assoc.collect (routes.map fun r => (r.method.upper, r)) := by
  rw [Assoc.collect, List.foldl_map]
  rfl

/-- The groups are one for each method in upper case, in order of first appearance. -/
theorem groupByMethod_eq (routes : List Route) :
    groupByMethod routes =
      (routes.map (·.method.upper)).eraseDups.map fun m => (m, withMethod routes m) := by
  have keys : (routes.map fun r => (r.method.upper, r)).map Prod.fst =
      routes.map (·.method.upper) := by
    rw [List.map_map]
    rfl
  have group (m : Text) : Assoc.given m (routes.map fun r => (r.method.upper, r)) =
      withMethod routes m := by
    rw [Assoc.given, List.filter_map, List.map_map]
    exact List.map_id _
  simp only [groupByMethod_eq_collect, Assoc.collect_eq, keys, group]

theorem nodup_methods (routes : List Route) : ((groupByMethod routes).map Prod.fst).Nodup := by
  rw [groupByMethod_eq_collect]
  exact Assoc.nodup_keys_collect _

/-- The groups together hold the routes. -/
theorem perm_groupByMethod (routes : List Route) :
    ((groupByMethod routes).flatMap (·.2)).Perm routes := by
  have collected := Assoc.perm_flatMap_collect (fun _ => True)
    (routes.map fun r => (r.method.upper, r))
  simpa [groupByMethod_eq_collect, Function.comp_def] using collected

theorem mem_groupByMethod (routes : List Route) (r : Route) :
    r ∈ (groupByMethod routes).flatMap (·.2) ↔ r ∈ routes :=
  (perm_groupByMethod routes).mem_iff

/-- Each group is named by the method of a route. -/
theorem exists_of_mem_keys {routes : List Route} {k : Text}
    (h : k ∈ (groupByMethod routes).map Prod.fst) : ∃ r ∈ routes, k = Text.upper r.method := by
  rw [groupByMethod_eq_collect, Assoc.keys_collect, List.mem_eraseDups, List.map_map,
    List.mem_map] at h
  obtain ⟨r, mem, rfl⟩ := h
  exact ⟨r, mem, rfl⟩

end Page

end RouteAtlas
