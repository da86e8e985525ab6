import RouteAtlas.Proofs.Facts.Growth

/-!
# Well-formed facts

What a file states is backed by its bindings. A route belongs to the file and is declared on a name
with a role, only bound names hold a role, no list of paths is empty, and the details of a server
are given all at once.

While a file is read, its table of bindings still grows, so each fact is backed by the table at the
time of its statement (`Facts.BackedBy`). A table that grows goes on backing what it backs, since a
first binding stays the first one.
-/

namespace RouteAtlas

/-- The details that a `listen` call gives, in the order in which it gives them. -/
def Detail.all : List Detail := [.portNumber, .isPortEnv, .host, .backlog]

/-- A route of a file: its method is a method, and it was declared on a router of the table that it
names, or on some server if it names none. -/
structure Route.DeclaredIn (r : Route) (t : BindingTable) (file : Text) : Prop where
  source : r.source = file
  method : r.method ∈ CallSite.methods
  router : ∀ name, r.router = some name → name ∈ t.routers
  server : r.router = none → t.servers ≠ []

/-- Only bound names hold a role. -/
structure BindingTable.RolesBound (t : BindingTable) : Prop where
  servers : t.servers ⊆ t.bindings.map (·.name)
  routers : t.routers ⊆ t.bindings.map (·.name)

/-- The facts are backed by a table of bindings. -/
structure Facts.BackedBy (f : Facts) (t : BindingTable) : Prop where
  routes : ∀ r ∈ f.routes, r.DeclaredIn t f.file
  locals : ∀ e ∈ f.locals, e.2 ≠ []
  mounts : ∀ e ∈ f.mounts, e.2 ≠ []
  details : f.details.map Prod.fst = [] ∨ f.details.map Prod.fst = Detail.all
  port : f.details.get? .isPortEnv = some (.bool true) →
    ∃ name b, t.lookup name = some b ∧ b.isEnvDefault = true ∧
      f.details.get? .portNumber = some b.value

/-- The facts of a file are backed by its own bindings, and roles are held by bound names only. -/
structure Facts.WellFormed (f : Facts) : Prop where
  backed : f.BackedBy f.table
  roles : f.table.RolesBound

namespace BindingTable

theorem rolesBound_empty : RolesBound empty :=
  ⟨List.nil_subset _, List.nil_subset _⟩

theorem addName_subset {name : Text} {names bound : List Text} (old : names ⊆ bound)
    (new : name ∈ bound) : addName name names ⊆ bound := by
  intro n mem
  obtain before | rfl := (mem_addName n name names).mp mem
  · exact old before
  · exact new

/-- A bound name can be given a role. -/
theorem RolesBound.assign {t : BindingTable} (h : t.RolesBound) {name : Text}
    (bound : name ∈ t.bindings.map (·.name)) (role : Option Role) :
    (assign name role t).RolesBound := by
  cases role with
  | none => exact h
  | some role =>
      cases role with
      | server => exact ⟨addName_subset h.servers bound, h.routers⟩
      | router => exact ⟨h.servers, addName_subset h.routers bound⟩

/-- A declaration binds its name before it gives the name a role. -/
theorem RolesBound.declare {t : BindingTable} (h : t.RolesBound) (framework : Framework)
    (declarators : List Declarator) : (declare framework declarators t).RolesBound := by
  unfold BindingTable.declare
  split
  · exact h
  · next b _ =>
      have kept : t.bindings.map (·.name) ⊆ (t.bindings ++ [b]).map (·.name) := by
        rw [List.map_append]
        exact List.subset_append_left _ _
      have grown : RolesBound { t with bindings := t.bindings ++ [b] } :=
        ⟨List.Subset.trans h.servers kept, List.Subset.trans h.routers kept⟩
      apply grown.assign
      simp

end BindingTable

theorem Route.DeclaredIn.mono {r : Route} {t u : BindingTable} {file : Text}
    (h : r.DeclaredIn t file) (grown : t.Extends u) : r.DeclaredIn u file where
  source := h.source
  method := h.method
  router name named := grown.routers (h.router name named)
  server unnamed none := h.server unnamed (List.subset_nil.mp (none ▸ grown.servers))

namespace Facts.BackedBy

variable {f : Facts} {t : BindingTable}

/-- What a table backs, it backs when it has grown. -/
theorem mono {u : BindingTable} (h : f.BackedBy t) (grown : t.Extends u) : f.BackedBy u where
  routes r mem := (h.routes r mem).mono grown
  locals := h.locals
  mounts := h.mounts
  details := h.details
  port isEnv := by
    obtain ⟨name, b, found, rest⟩ := h.port isEnv
    exact ⟨name, b, grown.lookup name b found, rest⟩

theorem empty (file : Text) (t : BindingTable) : (Facts.empty file).BackedBy t where
  routes := by simp [Facts.empty]
  locals := by simp [Facts.empty]
  mounts := by simp [Facts.empty]
  details := .inl rfl
  port isEnv := by simp [Facts.empty, Assoc.get?] at isEnv

private theorem extend_ne_nil {a : Assoc Text (List Text)} (h : ∀ e ∈ a, e.2 ≠ [])
    (key path : Text) : ∀ e ∈ a.extend key [path], e.2 ≠ [] := by
  intro e mem
  rcases Assoc.mem_alter mem with old | ⟨before, new⟩
  · exact h e old
  · rw [new]
    exact List.append_ne_nil_of_right_ne_nil _ (List.cons_ne_nil _ _)

/-- The port of a `listen` call is an environment default only if it is a name that is bound to
one, and then the port number is the value of that very binding. -/
theorem listen (h : f.BackedBy t) (arguments : List Expr) :
    (CallSite.listen t arguments f).BackedBy t where
  routes := h.routes
  locals := h.locals
  mounts := h.mounts
  details := by
    right
    rcases h.details with none | all
    · simp [CallSite.listen, Assoc.putAll, Assoc.put, Assoc.keys_alter, none, Detail.all]
    · simp [CallSite.listen, Assoc.putAll, Assoc.put, Assoc.keys_alter, all, Detail.all]
  port isEnv := by
    simp only [CallSite.listen, Assoc.putAll, List.foldl_cons, List.foldl_nil, Assoc.get?_put,
      reduceCtorEq, if_false, if_true] at isEnv ⊢
    split at isEnv
    · next name port =>
        cases found : t.lookup name with
        | none => simp [found] at isEnv
        | some b =>
            have default : b.isEnvDefault = true := by simpa [found] using isEnv
            refine ⟨name, b, found, default, ?_⟩
            simp [port, BindingTable.resolve, found]
    · simp at isEnv

/-- What an expression states on a name with a role, the table backs. -/
theorem add (h : f.BackedBy t) {reading : Reading} {comments : List Text} {e : Expr} {fact : Fact}
    (stated : CallSite.States reading t comments e fact) : (f.add fact).BackedBy t := by
  obtain ⟨-, -, shape⟩ | _ | ⟨role, isMethod, -⟩ | ⟨-, -, -, shape⟩ := stated
  · cases shape with
    | factory | function => exact { h with }
    | factoryAt => exact { h with locals := extend_ne_nil h.locals _ _ }
  · next arguments server isListen => exact h.listen arguments
  · next name property arguments path handlers =>
      refine { h with routes := ?_ }
      intro r mem
      obtain old | new := List.mem_append.mp mem
      · exact h.routes r old
      obtain rfl := List.mem_singleton.mp new
      refine ⟨rfl, isMethod, ?_, ?_⟩
      · intro router named
        dsimp only at named
        split at named
        · next isRouter => exact Option.some.inj named ▸ isRouter
        · cases named
      · intro unnamed
        dsimp only at unnamed
        split at unnamed
        · cases unnamed
        · next noRouter => exact List.ne_nil_of_mem (role.resolve_right noRouter)
  · cases shape with
    | name => exact { h with mounts := extend_ne_nil h.mounts _ _ }

theorem visit (h : f.BackedBy t) (reading : Reading) (comments : List Text) (e : Expr) :
    (CallSite.visit reading t comments e f).BackedBy t := by
  obtain ⟨fact, stated, added⟩ | same := CallSite.visit_cases reading t comments e f
  · rw [added]
    exact h.add stated
  · rw [same]
    exact h

end Facts.BackedBy

namespace Facts

/-- A reading so far: its facts are backed by its bindings, and only bound names hold a role. -/
structure Progress.WellFormed (p : Progress) : Prop where
  backed : p.facts.BackedBy p.table
  roles : p.table.RolesBound

theorem Progress.WellFormed.step {p : Progress} (h : p.WellFormed) (reading : Reading)
    (s : Statement) : (Progress.step reading p s).WellFormed := by
  cases s with
  | declaration declarators =>
      have grown := BindingTable.extends_declare reading.framework declarators p.table
      exact ⟨h.backed.mono grown, h.roles.declare reading.framework declarators⟩
  | importing localName source => exact h
  | expression comments e => exact ⟨h.backed.visit reading comments e, h.roles⟩

theorem Progress.WellFormed.foldl_step {p : Progress} (h : p.WellFormed) (reading : Reading)
    (ss : List Statement) : (ss.foldl (Progress.step reading) p).WellFormed := by
  induction ss generalizing p with
  | nil => exact h
  | cons s rest ih => exact ih (h.step reading s)

theorem Progress.WellFormed.finish {p : Progress} (h : p.WellFormed) (imports : Assoc Text Text) :
    (p.finish imports).WellFormed :=
  ⟨{ h.backed with }, h.roles⟩

/-- Whatever imports are entered at the end, the facts of statements are well formed. -/
theorem wellFormed_finish_foldl (reading : Reading) (file : Text) (ss : List Statement)
    (imports : Assoc Text Text) :
    ((ss.foldl (Progress.step reading) ⟨.empty, .empty file⟩).finish imports).WellFormed := by
  have start : Progress.WellFormed ⟨.empty, .empty file⟩ :=
    ⟨.empty file _, BindingTable.rolesBound_empty⟩
  exact (start.foldl_step reading ss).finish imports

/-- The facts of any statements are well formed, whatever the settings and however requests are
answered. -/
theorem wellFormed_ofStatements {σ : Type} (reading : Reading)
    (resolve : Text → StateM σ (Option Text)) (file : Text) (ss : List Statement) (memo : σ) :
    ((ofStatements reading resolve file ss).run memo).1.WellFormed :=
  wellFormed_finish_foldl reading file ss _

end Facts

end RouteAtlas
