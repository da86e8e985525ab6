import RouteAtlas.Facts.Reading
import RouteAtlas.Proofs.Assoc
import RouteAtlas.Proofs.Binding.Declared
import RouteAtlas.Proofs.Facts.Stated

/-!
# The mounts of a file

Which statements mount a name can be told without a table of bindings: those that call `use` with a
path and the name, on a name to which an earlier statement gives a role. The mounts of a file
collect their paths under the names. None is lost and none is left out because it was made before.
-/

namespace RouteAtlas

/-- The statement declares the name alone, as a server or as a router. -/
def Statement.declaresRole (framework : Framework) (name : Text) : Statement → Bool
  | .declaration ds =>
    (Declared.ofDeclarators? ds).any fun d =>
      d.name = name && (d.init.bind (Expr.role? framework)).isSome
  | _ => false

/-- The name that a statement mounts after other statements, and the path. -/
def Statement.mount? (reading : Reading) (before : List Statement) :
    Statement → Option (Text × Text)
  | .expression _ (.call (.member (.name name) (some property) false) [.text path, .name target]) =>
    if reading.mounts ∧ property = "use" ∧ before.any (declaresRole reading.framework name) then
      some (target, path)
    else none
  | _ => none

/-- The mounts among statements that follow other statements, in order. -/
def mountCalls (reading : Reading) (before : List Statement) : List Statement → List (Text × Text)
  | [] => []
  | s :: rest => (s.mount? reading before).toList ++ mountCalls reading (before ++ [s]) rest

/-! ## The table at a mount -/

/-- The names with a role are those to which the statements give one. -/
def BindingTable.KnowsRoles (framework : Framework) (before : List Statement) (t : BindingTable) :
    Prop :=
  ∀ n, (n ∈ t.servers ∨ n ∈ t.routers) ↔ before.any (Statement.declaresRole framework n) = true

namespace BindingTable

variable {framework : Framework} {before : List Statement} {t : BindingTable}

theorem knowsRoles_empty (framework : Framework) : KnowsRoles framework [] empty :=
  fun n => by simp [empty]

/-- A declaration gives a role to no name but its own. -/
theorem hasRole_declare (n : Text) (ds : List Declarator) (t : BindingTable) :
    (n ∈ (t.declare framework ds).servers ∨ n ∈ (t.declare framework ds).routers) ↔
      (n ∈ t.servers ∨ n ∈ t.routers) ∨
        (Statement.declaration ds).declaresRole framework n = true := by
  have server (u : BindingTable) : n ∈ u.servers ↔ u.holds n .server = true :=
    List.contains_iff_mem.symm
  have router (u : BindingTable) : n ∈ u.routers ↔ u.holds n .router = true :=
    List.contains_iff_mem.symm
  have declares : (Statement.declaration ds).declaresRole framework n = true ↔
      ∃ d, Declared.ofDeclarators? ds = some d ∧ d.name = n ∧
        ∃ role, d.Makes framework role := by
    simp only [Statement.declaresRole, Option.any_eq_true, Bool.and_eq_true, decide_eq_true_eq,
      Option.isSome_iff_exists, Option.bind_eq_some_iff, Expr.role?_eq_some_iff, Declared.Makes]
  rw [server, server, router, router, holds_declare, holds_declare, declares]
  constructor
  · rintro ((old | ⟨d, declared, named, made⟩) | (old | ⟨d, declared, named, made⟩))
    · exact .inl (.inl old)
    · exact .inr ⟨d, declared, named, .server, made⟩
    · exact .inl (.inr old)
    · exact .inr ⟨d, declared, named, .router, made⟩
  · rintro ((old | old) | ⟨d, declared, named, role, made⟩)
    · exact .inl (.inl old)
    · exact .inr (.inl old)
    · cases role with
      | server => exact .inl (.inr ⟨d, declared, named, made⟩)
      | router => exact .inr (.inr ⟨d, declared, named, made⟩)

end BindingTable

/-- Every statement keeps track of the names with a role. -/
theorem Facts.Progress.knowsRoles_step {reading : Reading} {before : List Statement} {p : Progress}
    (h : p.table.KnowsRoles reading.framework before) (s : Statement) :
    (step reading p s).table.KnowsRoles reading.framework (before ++ [s]) := by
  intro n
  rw [List.any_append, List.any_cons, List.any_nil, Bool.or_false, Bool.or_eq_true, ← h n]
  cases s with
  | declaration ds => exact p.table.hasRole_declare n ds
  | importing _ _ | expression _ _ => simp [step, Statement.declaresRole]

/-! ## The mounts of the facts -/

/-- A visit mounts what its statement mounts. -/
theorem CallSite.mounts_visit {reading : Reading} {before : List Statement} {t : BindingTable}
    (h : t.KnowsRoles reading.framework before) (comments : List Text) (e : Expr) (f : Facts) :
    (visit reading t comments e f).mounts =
      ((Statement.expression comments e).mount? reading before).toList.foldl
        (fun mounts m => mounts.extend m.1 [m.2]) f.mounts := by
  cases found : (Statement.expression comments e).mount? reading before with
  | some m =>
      unfold Statement.mount? at found
      split at found
      · next name property path target shape =>
          split at found
          · next mounting =>
              obtain ⟨enabled, isUse, declared⟩ := mounting
              obtain ⟨-, rfl⟩ := Statement.expression.inj shape
              obtain rfl := Option.some.inj found
              have role := (h name).mpr declared
              rw [visit_of_states (.call (.mount role isUse enabled (.name path target)))]
              rfl
          · cases found
      · cases found
  | none =>
      obtain ⟨fact, stated, added⟩ | same := visit_cases reading t comments e f
      · rw [added]
        obtain ⟨-, -, shape⟩ | _ | _ | ⟨role, isUse, enabled, shape⟩ := stated
        · cases shape <;> rfl
        · rfl
        · rfl
        · cases shape
          have declared := (h _).mp role
          simp [Statement.mount?, enabled, isUse, declared] at found
      · rw [same]
        rfl

namespace Facts

theorem Progress.mounts_step {reading : Reading} {before : List Statement} {p : Progress}
    (h : p.table.KnowsRoles reading.framework before) (s : Statement) :
    (step reading p s).facts.mounts =
      (s.mount? reading before).toList.foldl (fun mounts m => mounts.extend m.1 [m.2])
        p.facts.mounts := by
  cases s with
  | declaration _ | importing _ _ => rfl
  | expression comments e => exact CallSite.mounts_visit h comments e p.facts

/-- A reading adds mount after mount. -/
theorem Progress.mounts_foldl_step {reading : Reading} {before : List Statement} {p : Progress}
    (h : p.table.KnowsRoles reading.framework before) (ss : List Statement) :
    (ss.foldl (step reading) p).facts.mounts =
      (mountCalls reading before ss).foldl (fun mounts m => mounts.extend m.1 [m.2])
        p.facts.mounts := by
  induction ss generalizing before p with
  | nil => rfl
  | cons s rest ih =>
      rw [List.foldl_cons, ih (knowsRoles_step h s), mounts_step h s, mountCalls,
        List.foldl_append]

/-- The mounts of a file collect the paths of its mount calls, however its requests are answered. -/
theorem mounts_ofStatements {σ : Type} (reading : Reading)
    (resolve : Text → StateM σ (Option Text)) (file : Text) (ss : List Statement) (memo : σ) :
    ((ofStatements reading resolve file ss).run memo).1.mounts =
      Assoc.collect (mountCalls reading [] ss) :=
  Progress.mounts_foldl_step (BindingTable.knowsRoles_empty reading.framework) ss

end Facts

end RouteAtlas
