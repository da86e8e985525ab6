import Mathlib.Data.List.Forall2
import RouteAtlas.Assoc
import RouteAtlas.Binding

/-!
# What declarations leave behind

The table of bindings keeps two views of the declarations of a file. The value of a name is that of
its first declaration, as in a map into which a name is entered only while it is absent. The roles
of a name come from all of its declarations. `Scope` is such a map with growing roles. The table
refines it step by step, so both views can be read off the list of declarations.
-/

namespace RouteAtlas

/-- The declaration of one name. -/
structure Declared where
  name : Text
  init : Option Expr

/-- A single declarator with a name declares it; several at once, or a pattern, declare nothing. -/
def Declared.ofDeclarators? : List Declarator → Option Declared
  | [⟨some name, init⟩] => some ⟨name, init⟩
  | _ => none

/-! ## Shapes of initializers -/

namespace Expr

/-- A literal with its value. -/
inductive IsLiteral : Expr → Value → Prop
  | text (t : Text) : IsLiteral (.text t) (.text t)
  | literal (kind : LiteralKind) (v : Value) : IsLiteral (.literal kind v) v

/-- Either `process.env.X` or `process.env[X]`. -/
inductive IsEnv : Expr → Prop
  | intro (property : Option Text) (computed : Bool) :
    IsEnv (.member (.member (.name "process") (some "env") false) property computed)

/-- One side of `a || b` alone is looked up in the environment, and the other side is a literal. -/
inductive IsEnvDefault : Expr → Value → Prop
  | left {a b : Expr} {v : Value} (env : a.IsEnv) (only : ¬b.IsEnv) (literal : b.IsLiteral v) :
    IsEnvDefault (.either a b) v
  | right {a b : Expr} {v : Value} (env : b.IsEnv) (only : ¬a.IsEnv) (literal : a.IsLiteral v) :
    IsEnvDefault (.either a b) v

/-- A call of the factory makes a server, and one of its router factory makes a router. -/
inductive Makes (framework : Framework) : Expr → Role → Prop
  | server (arguments : List Expr) :
    Makes framework (.call (.name framework.factory) arguments) .server
  | router (arguments : List Expr) :
    Makes framework
      (.call (.member (.name framework.factory) (some framework.routerFactory) false) arguments)
      .router

theorem value?_eq_some_iff {e : Expr} {v : Value} : e.value? = some v ↔ e.IsLiteral v := by
  constructor
  · intro h
    cases e with
    | text t =>
        obtain rfl := Option.some.inj h
        exact .text t
    | literal kind w =>
        obtain rfl := Option.some.inj h
        exact .literal kind w
    | _ => cases h
  · rintro (_ | _) <;> rfl

theorem isEnvLookup_iff {e : Expr} : e.isEnvLookup = true ↔ e.IsEnv := by
  constructor
  · intro h
    unfold isEnvLookup at h
    split at h
    · next property computed =>
        simp only [Bool.and_eq_true, decide_eq_true_eq] at h
        obtain ⟨rfl, rfl⟩ := h
        exact .intro property computed
    · cases h
  · rintro ⟨property, computed⟩
    simp [isEnvLookup]

theorem envDefault?_eq_some_iff {e : Expr} {v : Value} :
    e.envDefault? = some v ↔ e.IsEnvDefault v := by
  constructor
  · intro h
    cases e with
    | either a b =>
        rw [envDefault?] at h
        split at h
        · next left right =>
            have only : ¬b.IsEnv := fun env => by simp [isEnvLookup_iff.mpr env] at right
            exact .left (isEnvLookup_iff.mp left) only (value?_eq_some_iff.mp h)
        · next left right =>
            have only : ¬a.IsEnv := fun env => by simp [isEnvLookup_iff.mpr env] at left
            exact .right (isEnvLookup_iff.mp right) only (value?_eq_some_iff.mp h)
        · cases h
    | _ => cases h
  · intro h
    cases h with
    | left env only literal =>
        have other := Bool.eq_false_iff.mpr (mt isEnvLookup_iff.mp only)
        simp [envDefault?, isEnvLookup_iff.mpr env, other, value?_eq_some_iff.mpr literal]
    | right env only literal =>
        have other := Bool.eq_false_iff.mpr (mt isEnvLookup_iff.mp only)
        simp [envDefault?, isEnvLookup_iff.mpr env, other, value?_eq_some_iff.mpr literal]

theorem role?_eq_some_iff {framework : Framework} {e : Expr} {role : Role} :
    e.role? framework = some role ↔ e.Makes framework role := by
  constructor
  · intro h
    unfold role? at h
    split at h
    · next callee arguments =>
        split at h
        · next same =>
            obtain rfl := Option.some.inj h
            exact same ▸ .server arguments
        · cases h
    · next object property arguments =>
        split at h
        · next same =>
            obtain rfl := Option.some.inj h
            obtain ⟨rfl, rfl⟩ := same
            exact .router arguments
        · cases h
    · cases h
  · rintro (_ | _) <;> simp [role?]

end Expr

/-! ## One declaration -/

namespace Declared

/-- The value that a declaration gives to its name. -/
inductive HasValue (d : Declared) : Value → Prop
  | envDefault {e : Expr} {v : Value} (init : d.init = some e) (h : e.IsEnvDefault v) : HasValue d v
  | literal {e : Expr} {v : Value} (init : d.init = some e) (h : e.IsLiteral v) : HasValue d v
  | unknown (h : ∀ e v, d.init = some e → ¬e.IsEnvDefault v ∧ ¬e.IsLiteral v) : HasValue d .null

/-- The binding that a declaration gives. -/
structure Gives (d : Declared) (b : Binding) : Prop where
  name : b.name = d.name
  value : d.HasValue b.value
  isEnvDefault : b.isEnvDefault = true ↔ ∃ e v, d.init = some e ∧ e.IsEnvDefault v

/-- The initializer makes the declared name a server or a router. -/
def Makes (framework : Framework) (d : Declared) (role : Role) : Prop :=
  ∃ e, d.init = some e ∧ e.Makes framework role

/-- The binding that a declaration gives, read off its initializer. -/
def binding (d : Declared) : Binding :=
  match d.init.bind Expr.envDefault? with
  | some value => ⟨d.name, value, true⟩
  | none => ⟨d.name, (d.init.bind Expr.value?).getD .null, false⟩

theorem name_binding (d : Declared) : d.binding.name = d.name := by
  unfold binding
  split <;> rfl

theorem envDefault?_iff (d : Declared) (v : Value) :
    d.init.bind Expr.envDefault? = some v ↔ ∃ e, d.init = some e ∧ e.IsEnvDefault v := by
  simp only [Option.bind_eq_some_iff, Expr.envDefault?_eq_some_iff]

theorem envDefault?_eq_none_iff (d : Declared) :
    d.init.bind Expr.envDefault? = none ↔ ∀ e v, d.init = some e → ¬e.IsEnvDefault v := by
  rw [Option.eq_none_iff_forall_ne_some]
  constructor
  · intro none e v init isDefault
    exact none v ((d.envDefault?_iff v).mpr ⟨e, init, isDefault⟩)
  · intro none v found
    obtain ⟨e, init, isDefault⟩ := (d.envDefault?_iff v).mp found
    exact none e v init isDefault

theorem value?_iff (d : Declared) (v : Value) :
    d.init.bind Expr.value? = some v ↔ ∃ e, d.init = some e ∧ e.IsLiteral v := by
  simp only [Option.bind_eq_some_iff, Expr.value?_eq_some_iff]

theorem gives_binding (d : Declared) : d.Gives d.binding := by
  cases default : d.init.bind Expr.envDefault? with
  | some v =>
      obtain ⟨e, init, isDefault⟩ := (d.envDefault?_iff v).mp default
      have read : d.binding = ⟨d.name, v, true⟩ := by simp [binding, default]
      rw [read]
      exact ⟨rfl, .envDefault init isDefault, iff_of_true rfl ⟨e, v, init, isDefault⟩⟩
  | none =>
      have noDefault := d.envDefault?_eq_none_iff.mp default
      have flag : false = true ↔ ∃ e v, d.init = some e ∧ e.IsEnvDefault v :=
        iff_of_false Bool.false_ne_true fun ⟨e, v, init, h⟩ => noDefault e v init h
      cases literal : d.init.bind Expr.value? with
      | some v =>
          obtain ⟨e, init, isLiteral⟩ := (d.value?_iff v).mp literal
          have read : d.binding = ⟨d.name, v, false⟩ := by simp [binding, default, literal]
          rw [read]
          exact ⟨rfl, .literal init isLiteral, flag⟩
      | none =>
          have read : d.binding = ⟨d.name, .null, false⟩ := by simp [binding, default, literal]
          rw [read]
          refine ⟨rfl, .unknown ?_, flag⟩
          intro e v init
          refine ⟨noDefault e v init, ?_⟩
          intro isLiteral
          rw [(d.value?_iff v).mpr ⟨e, init, isLiteral⟩] at literal
          cases literal

/-- A default is no literal, and neither has two values. -/
theorem HasValue.eq {d : Declared} {v : Value} (h : d.HasValue v) : d.binding.value = v := by
  cases h with
  | envDefault init isDefault =>
      have default := (d.envDefault?_iff v).mpr ⟨_, init, isDefault⟩
      simp [binding, default]
  | @literal e _ init isLiteral =>
      have default : d.init.bind Expr.envDefault? = none := by
        rw [init]
        cases isLiteral <;> rfl
      have literal := (d.value?_iff v).mpr ⟨e, init, isLiteral⟩
      simp [binding, default, literal]
  | unknown none =>
      have default := d.envDefault?_eq_none_iff.mpr fun e v init => (none e v init).1
      have literal : d.init.bind Expr.value? = Option.none := by
        rw [Option.eq_none_iff_forall_ne_some]
        intro v found
        obtain ⟨e, init, isLiteral⟩ := (d.value?_iff v).mp found
        exact (none e v init).2 isLiteral
      simp [binding, default, literal]

/-- A declaration gives one binding. -/
theorem gives_iff {d : Declared} {b : Binding} : d.Gives b ↔ d.binding = b := by
  constructor
  · intro h
    have flag : d.binding.isEnvDefault = b.isEnvDefault :=
      Bool.eq_iff_iff.mpr (d.gives_binding.isEnvDefault.trans h.isEnvDefault.symm)
    have name : d.binding.name = b.name := d.name_binding.trans h.name.symm
    have value : d.binding.value = b.value := h.value.eq
    obtain ⟨n, v, isDefault⟩ := b
    dsimp only at flag name value
    rw [← flag, ← name, ← value]
  · rintro rfl
    exact d.gives_binding

end Declared

theorem Binding.ofDeclarators?_eq (ds : List Declarator) :
    Binding.ofDeclarators? ds = (Declared.ofDeclarators? ds).map Declared.binding := by
  match ds with
  | [] | ⟨none, _⟩ :: _ | ⟨some _, _⟩ :: _ :: _ => rfl
  | [⟨some name, init⟩] => rfl

/-! ## The map that a table refines -/

/-- The first binding of each name, and every role that a name was given. -/
structure Scope where
  first : Assoc Text Binding
  roles : List (Text × Role)

namespace Scope

/-- Enters a name unless it is there, and adds its role. -/
def declare (framework : Framework) (s : Scope) (d : Declared) : Scope where
  first := s.first.alter d.name (·.getD d.binding)
  roles := s.roles ++ ((d.init.bind (Expr.role? framework)).map (d.name, ·)).toList

/-- The scope of some declarations. -/
def ofDeclared (framework : Framework) (ds : List Declared) : Scope :=
  ds.foldl (declare framework) ⟨[], []⟩

theorem mem_roles_declare (framework : Framework) (s : Scope) (d : Declared) (n : Text)
    (role : Role) :
    (n, role) ∈ (s.declare framework d).roles ↔
      (n, role) ∈ s.roles ∨ d.name = n ∧ d.Makes framework role := by
  simp only [declare, List.mem_append, Option.mem_toList, Option.map_eq_some_iff,
    Option.bind_eq_some_iff, Expr.role?_eq_some_iff, Prod.mk.injEq, Declared.Makes]
  apply or_congr_right
  constructor
  · rintro ⟨_, made, same, rfl⟩
    exact ⟨same, made⟩
  · rintro ⟨same, made⟩
    exact ⟨role, made, same, rfl⟩

theorem mem_roles_foldl_declare (framework : Framework) (s : Scope) (ds : List Declared) (n : Text)
    (role : Role) :
    (n, role) ∈ (ds.foldl (declare framework) s).roles ↔
      (n, role) ∈ s.roles ∨ ∃ d ∈ ds, d.name = n ∧ d.Makes framework role := by
  induction ds generalizing s with
  | nil => simp
  | cons d rest ih =>
      rw [List.foldl_cons, ih, mem_roles_declare, List.exists_mem_cons_iff, or_assoc]

end Scope

namespace BindingTable

variable {framework : Framework}

/-- The table after a sequence of declarations. -/
def declareAll (framework : Framework) (dss : List (List Declarator)) : BindingTable :=
  dss.foldl (fun t ds => t.declare framework ds) .empty

/-- A name is looked up as in the scope, and holds the same roles. -/
structure Refines (t : BindingTable) (s : Scope) : Prop where
  lookup : ∀ n, t.lookup n = s.first.get? n
  holds : ∀ n role, t.holds n role = true ↔ (n, role) ∈ s.roles

theorem bindings_assign (name : Text) (role : Option Role) (t : BindingTable) :
    (assign name role t).bindings = t.bindings := by
  match role with
  | none | some .server | some .router => rfl

/-- A name is given its role, and no other name or role is. -/
theorem holds_assign (name n : Text) (given : Option Role) (role : Role) (t : BindingTable) :
    (assign name given t).holds n role = true ↔
      t.holds n role = true ∨ given = some role ∧ n = name := by
  match given with
  | none => simp [assign]
  | some .server => cases role <;> simp [assign, holds, mem_addName]
  | some .router => cases role <;> simp [assign, holds, mem_addName]

theorem declare_eq (ds : List Declarator) (t : BindingTable) :
    t.declare framework ds =
      match Declared.ofDeclarators? ds with
      | none => t
      | some d =>
        assign d.name (d.init.bind (Expr.role? framework))
          { t with bindings := t.bindings ++ [d.binding] } := by
  match ds with
  | [] | ⟨none, _⟩ :: _ | ⟨some _, _⟩ :: _ :: _ => rfl
  | [⟨some name, init⟩] =>
    simp only [declare, Binding.ofDeclarators?_eq, Declared.ofDeclarators?, Option.map_some,
      Declared.name_binding, List.head?_cons, Option.bind_some]

theorem bindings_declare (ds : List Declarator) (t : BindingTable) :
    (t.declare framework ds).bindings = t.bindings ++ (Binding.ofDeclarators? ds).toList := by
  rw [declare_eq, Binding.ofDeclarators?_eq]
  cases Declared.ofDeclarators? ds with
  | none => simp
  | some d => exact bindings_assign _ _ _

/-- A declaration gives its own name the role of its initializer, and no other name any role. -/
theorem holds_declare (n : Text) (role : Role) (ds : List Declarator) (t : BindingTable) :
    (t.declare framework ds).holds n role = true ↔
      t.holds n role = true ∨
        ∃ d, Declared.ofDeclarators? ds = some d ∧ d.name = n ∧ d.Makes framework role := by
  rw [declare_eq]
  cases Declared.ofDeclarators? ds with
  | none => simp
  | some d =>
      have made : d.init.bind (Expr.role? framework) = some role ↔ d.Makes framework role := by
        simp only [Option.bind_eq_some_iff, Expr.role?_eq_some_iff, Declared.Makes]
      have kept : holds { t with bindings := t.bindings ++ [d.binding] } n role =
          t.holds n role := by
        cases role <;> rfl
      rw [holds_assign, made, kept]
      simp only [Option.some.injEq, exists_eq_left', and_comm, eq_comm]

/-- One declaration keeps the table a refinement of the scope. -/
theorem Refines.declare {t : BindingTable} {s : Scope} (h : t.Refines s) (ds : List Declarator) :
    (t.declare framework ds).Refines
      ((Declared.ofDeclarators? ds).toList.foldl (Scope.declare framework) s) := by
  cases declared : Declared.ofDeclarators? ds with
  | none =>
      rw [declare_eq, declared]
      exact h
  | some d =>
      constructor
      · intro n
        have bindings : (t.declare framework ds).bindings = _ := bindings_declare ds t
        rw [Binding.ofDeclarators?_eq, declared] at bindings
        -- a name that was bound before is found before the new binding
        rw [BindingTable.lookup, bindings, List.find?_append]
        change (t.lookup n).or _ = Assoc.get? n (s.first.alter d.name (·.getD d.binding))
        rw [Assoc.get?_alter, h.lookup]
        by_cases same : d.name = n
        · subst same
          cases s.first.get? d.name <;> simp [Declared.name_binding]
        · have other : (d.binding.name == n) = false := by
            rw [d.name_binding]
            exact beq_false_of_ne same
          simp [same, other]
      · intro n role
        rw [holds_declare, h.holds, declared]
        simp [Scope.mem_roles_declare]

/-! ## Any number of declarations -/

theorem refines_empty : empty.Refines ⟨[], []⟩ where
  lookup n := rfl
  holds n role := by cases role <;> simp [holds, empty]

theorem Refines.foldl_declare {t : BindingTable} {s : Scope} (h : t.Refines s)
    (dss : List (List Declarator)) :
    (dss.foldl (fun t ds => t.declare framework ds) t).Refines
      ((dss.filterMap Declared.ofDeclarators?).foldl (Scope.declare framework) s) := by
  induction dss generalizing t s with
  | nil => exact h
  | cons ds rest ih =>
      have step : (t.declare framework ds).Refines _ := h.declare ds
      have here := ih step
      cases declared : Declared.ofDeclarators? ds with
      | none => simpa [declared] using here
      | some d => simpa [declared] using here

theorem bindings_foldl_declare (dss : List (List Declarator)) (t : BindingTable) :
    (dss.foldl (fun t ds => t.declare framework ds) t).bindings =
      t.bindings ++ (dss.filterMap Declared.ofDeclarators?).map Declared.binding := by
  induction dss generalizing t with
  | nil => simp
  | cons ds rest ih =>
      rw [List.foldl_cons, ih, bindings_declare, Binding.ofDeclarators?_eq]
      cases declared : Declared.ofDeclarators? ds <;> simp [declared]

/-- After any sequence of declarations the table holds one binding for each name declared alone, in
order. A name is looked up as its first declaration gives it, whereas its roles come from all of its
declarations: the table refines the map into which names are entered while they are absent, with
roles that only grow. -/
theorem declareAll_refines (framework : Framework) (dss : List (List Declarator)) :
    let declared := dss.filterMap Declared.ofDeclarators?
    let t := declareAll framework dss
    t.Refines (Scope.ofDeclared framework declared) ∧
      List.Forall₂ Declared.Gives declared t.bindings ∧
      (∀ n b, t.lookup n = some b ↔
        ∃ before d after, declared = before ++ d :: after ∧ d.name = n ∧
          (∀ e ∈ before, e.name ≠ n) ∧ d.Gives b) ∧
      (∀ n, t.lookup n = none ↔ ∀ d ∈ declared, d.name ≠ n) ∧
      (∀ n, t.resolve (some (.name n)) = ((t.lookup n).map (·.value)).getD .null) ∧
      ∀ n role, t.holds n role = true ↔ ∃ d ∈ declared, d.name = n ∧ d.Makes framework role := by
  intro declared t
  have bindings : t.bindings = declared.map Declared.binding :=
    bindings_foldl_declare dss .empty
  have refines : t.Refines (Scope.ofDeclared framework declared) :=
    refines_empty.foldl_declare dss
  have lookup (n : Text) : t.lookup n = (declared.find? (·.name == n)).map Declared.binding := by
    simp only [BindingTable.lookup, bindings, List.find?_map, Function.comp_def,
      Declared.name_binding]
  refine ⟨refines, ?_, ?_, ?_, fun n => rfl, ?_⟩
  · rw [bindings, List.forall₂_map_right_iff, List.forall₂_same]
    intro d _
    exact d.gives_binding
  · intro n b
    simp only [lookup, Option.map_eq_some_iff, List.find?_eq_some_iff_append, Declared.gives_iff]
    constructor
    · rintro ⟨d, ⟨named, before, after, split, others⟩, rfl⟩
      exact ⟨before, d, after, split, by simpa using named, by simpa using others, rfl⟩
    · rintro ⟨before, d, after, split, named, others, rfl⟩
      exact ⟨d, ⟨by simpa using named, before, after, split, by simpa using others⟩, rfl⟩
  · intro n
    simp [lookup]
  · intro n role
    rw [refines.holds, Scope.ofDeclared, Scope.mem_roles_foldl_declare]
    simp

end BindingTable

end RouteAtlas
