import RouteAtlas.Proofs.Facts.Stated

/-!
# Facts only grow

Each statement of a file adds to what the statements before it have stated and takes nothing back.
`Extends` compares the facts of some statements with those of the same statements and more: lists
grow at their ends, keys keep their places, and a name that is bound stays bound to the same value.
-/

namespace RouteAtlas

/-- Keys keep their places, and the list of each key grows at its end. -/
structure Assoc.Grows {κ α : Type} [DecidableEq κ] (a b : Assoc κ (List α)) : Prop where
  keys : a.map Prod.fst <+: b.map Prod.fst
  lists : ∀ key, (a.get? key).getD [] <+: (b.get? key).getD []

/-- Bindings are added at the end, roles are added, and no name that is bound is bound anew. -/
structure BindingTable.Extends (t u : BindingTable) : Prop where
  bindings : t.bindings <+: u.bindings
  servers : t.servers ⊆ u.servers
  routers : t.routers ⊆ u.routers
  lookup : ∀ name b, t.lookup name = some b → u.lookup name = some b

/-- The binding table that facts keep. -/
def Facts.table (f : Facts) : BindingTable := ⟨f.bindings, f.servers, f.routers⟩

/-- The facts `g` hold all facts of `f` where they were, and possibly more after them. -/
structure Facts.Extends (f g : Facts) : Prop where
  file : g.file = f.file
  imports : f.imports.map Prod.fst <+: g.imports.map Prod.fst
  mounts : f.mounts.Grows g.mounts
  details : f.details.map Prod.fst <+: g.details.map Prod.fst
  routes : f.routes <+: g.routes
  globals : f.globals <+: g.globals
  locals : f.locals.Grows g.locals
  table : f.table.Extends g.table

namespace Assoc.Grows

variable {κ α : Type} [DecidableEq κ]

theorem refl (a : Assoc κ (List α)) : a.Grows a :=
  ⟨List.prefix_refl _, fun _ => List.prefix_refl _⟩

theorem trans {a b c : Assoc κ (List α)} (h : a.Grows b) (k : b.Grows c) : a.Grows c :=
  ⟨h.keys.trans k.keys, fun key => (h.lists key).trans (k.lists key)⟩

theorem extend (key : κ) (members : List α) (a : Assoc κ (List α)) :
    a.Grows (a.extend key members) := by
  refine ⟨keys_prefix_alter key _ a, ?_⟩
  intro other
  rw [getD_extend]
  exact List.prefix_append _ _

end Assoc.Grows

namespace BindingTable

theorem Extends.refl (t : BindingTable) : t.Extends t :=
  ⟨List.prefix_refl _, List.Subset.refl _, List.Subset.refl _, fun _ _ h => h⟩

theorem Extends.trans {t u v : BindingTable} (h : t.Extends u) (k : u.Extends v) : t.Extends v :=
  ⟨h.bindings.trans k.bindings, List.Subset.trans h.servers k.servers,
    List.Subset.trans h.routers k.routers,
    fun name b found => k.lookup name b (h.lookup name b found)⟩

/-- A first binding stays the first one when bindings come after it. -/
theorem Extends.of_bindings {t u : BindingTable} (bindings : t.bindings <+: u.bindings)
    (servers : t.servers ⊆ u.servers) (routers : t.routers ⊆ u.routers) : t.Extends u :=
  ⟨bindings, servers, routers, fun _ _ found => bindings.find?_eq_some found⟩

theorem subset_addName (name : Text) (names : List Text) : names ⊆ addName name names := by
  intro n old
  exact (mem_addName n name names).mpr (.inl old)

theorem extends_assign (name : Text) (role : Option Role) (t : BindingTable) :
    t.Extends (assign name role t) := by
  cases role with
  | none => exact Extends.refl t
  | some role =>
      cases role with
      | server =>
          exact .of_bindings (List.prefix_refl _) (subset_addName name _) (List.Subset.refl _)
      | router =>
          exact .of_bindings (List.prefix_refl _) (List.Subset.refl _) (subset_addName name _)

theorem extends_declare (framework : Framework) (declarators : List Declarator)
    (t : BindingTable) : t.Extends (declare framework declarators t) := by
  unfold declare
  split
  · exact Extends.refl t
  · next b _ =>
      have bound : t.Extends { t with bindings := t.bindings ++ [b] } :=
        .of_bindings (List.prefix_append _ _) (List.Subset.refl _) (List.Subset.refl _)
      exact bound.trans (extends_assign _ _ _)

end BindingTable

namespace Facts

theorem Extends.refl (f : Facts) : f.Extends f :=
  ⟨rfl, List.prefix_refl _, .refl _, List.prefix_refl _, List.prefix_refl _, List.prefix_refl _,
    .refl _, .refl _⟩

theorem Extends.trans {f g h : Facts} (k : f.Extends g) (l : g.Extends h) : f.Extends h :=
  ⟨l.file.trans k.file, k.imports.trans l.imports, k.mounts.trans l.mounts,
    k.details.trans l.details, k.routes.trans l.routes, k.globals.trans l.globals,
    k.locals.trans l.locals, k.table.trans l.table⟩

/-- A fact that is added takes nothing back. -/
theorem extends_add (f : Facts) (fact : Fact) : f.Extends (f.add fact) := by
  cases fact with
  | middleware => exact { Extends.refl f with globals := List.prefix_append _ _ }
  | middlewareAt => exact { Extends.refl f with locals := .extend _ _ _ }
  | details => exact { Extends.refl f with details := Assoc.keys_prefix_putAll _ _ }
  | route => exact { Extends.refl f with routes := List.prefix_append _ _ }
  | mount => exact { Extends.refl f with mounts := .extend _ _ _ }

end Facts

theorem CallSite.extends_visit (reading : Reading) (table : BindingTable) (comments : List Text)
    (e : Expr) (f : Facts) : f.Extends (visit reading table comments e f) := by
  obtain ⟨fact, -, added⟩ | same := visit_cases reading table comments e f
  · rw [added]
    exact f.extends_add fact
  · rw [same]
    exact .refl f

namespace Facts

/-- Both the bindings and the facts of a reading grow. -/
structure Progress.Extends (p q : Progress) : Prop where
  table : p.table.Extends q.table
  facts : p.facts.Extends q.facts

/-- One statement only adds. -/
theorem Progress.extends_step (reading : Reading) (p : Progress) (s : Statement) :
    p.Extends (step reading p s) := by
  cases s with
  | declaration declarators =>
      exact ⟨BindingTable.extends_declare reading.framework declarators p.table, .refl _⟩
  | importing localName source => exact ⟨.refl _, .refl _⟩
  | expression comments e =>
      exact ⟨.refl _, CallSite.extends_visit reading p.table comments e p.facts⟩

/-- So do any number of statements. -/
theorem Progress.extends_foldl_step (reading : Reading) (p : Progress) (ss : List Statement) :
    p.Extends (ss.foldl (step reading) p) := by
  induction ss generalizing p with
  | nil => exact ⟨.refl _, .refl _⟩
  | cons s rest ih =>
      have first := extends_step reading p s
      have later := ih (step reading p s)
      exact ⟨first.table.trans later.table, first.facts.trans later.facts⟩

theorem Progress.Extends.finish {p q : Progress} (h : p.Extends q) {imports later : Assoc Text Text}
    (k : imports.map Prod.fst <+: later.map Prod.fst) :
    (p.finish imports).Extends (q.finish later) :=
  { h.facts with imports := k, table := h.table }

section Imports

variable {σ : Type} (resolve : Text → StateM σ (Option Text))

theorem keys_prefix_recordImport (imports : Assoc Text Text) (request : ImportRequest) (memo : σ) :
    imports.map Prod.fst <+:
      ((recordImport resolve imports request).run memo).1.map Prod.fst := by
  unfold recordImport
  rw [StateT.run_bind]
  obtain ⟨answer, memo'⟩ := (resolve request.specifier).run memo
  cases answer with
  | none => exact List.prefix_refl _
  | some path => exact Assoc.keys_prefix_alter _ _ _

/-- Requests, met or not, remove no alias. -/
theorem keys_prefix_foldlM_recordImport (requests : List ImportRequest) (imports : Assoc Text Text)
    (memo : σ) :
    imports.map Prod.fst <+:
      ((requests.foldlM (recordImport resolve) imports).run memo).1.map Prod.fst := by
  induction requests generalizing imports memo with
  | nil => exact List.prefix_refl _
  | cons request rest ih =>
      rw [List.foldlM_cons, StateT.run_bind]
      have first := keys_prefix_recordImport resolve imports request memo
      exact first.trans (ih _ _)

end Imports

/-- More statements take back nothing that a file's statements have stated: every list of facts and
of bindings grows at its end, keys keep their places, and names stay bound to what they were. -/
theorem extends_append {σ : Type} (reading : Reading) (resolve : Text → StateM σ (Option Text))
    (file : Text) (ss ts : List Statement) (memo : σ) :
    Extends ((ofStatements reading resolve file ss).run memo).1
      ((ofStatements reading resolve file (ss ++ ts)).run memo).1 := by
  have grown := Progress.extends_foldl_step reading
    (ss.foldl (Progress.step reading) ⟨.empty, .empty file⟩) ts
  have kept := keys_prefix_foldlM_recordImport resolve (ts.filterMap Statement.importRequest?)
  simp only [ofStatements, recordImports, List.foldl_append, List.filterMap_append,
    List.foldlM_append]
  exact grown.finish (kept _ _)

end Facts

end RouteAtlas
