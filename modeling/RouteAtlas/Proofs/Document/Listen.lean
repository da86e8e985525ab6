import Mathlib.Data.List.Induction
import RouteAtlas.Document.Merge
import RouteAtlas.Facts.File
import RouteAtlas.Proofs.Binding.Declared
import RouteAtlas.Proofs.Facts.Stated

/-!
# Server details come from one call

The details of a document's server are merged one by one, from one file after another. Still all of
them come from one call: a `listen` call gives every detail, even those that it has no argument for,
so it leaves nothing of an earlier call. The document has the details of the last call of the last
file with a call. They are what the statements before the call, in its own file, make of its
arguments.
-/

namespace RouteAtlas

/-- The binding that a statement makes. -/
def Statement.binding? : Statement → Option Binding
  | .declaration declarators => Binding.ofDeclarators? declarators
  | _ => none

/-- The statement declares the name alone, as what the factory gives. -/
def Statement.declaresServer (framework : Framework) (name : Text) : Statement → Bool
  | .declaration [⟨some n, some (.call (.name callee) _)⟩] =>
    n = name && callee = framework.factory
  | _ => false

/-- A `listen` call of a server, with the statements before it. -/
structure ListenCall where
  before : List Statement
  arguments : List Expr

/-- The statement is a `listen` call of a name that a statement before it declares as a server. -/
def Statement.listenCall? (framework : Framework) (before : List Statement) :
    Statement → Option ListenCall
  | .expression _ (.call (.member (.name name) (some property) false) arguments) =>
    if property = "listen" ∧ before.any (declaresServer framework name) then
      some ⟨before, arguments⟩
    else none
  | _ => none

/-- The `listen` calls of servers among statements that follow other statements, in order. -/
def listenCalls (framework : Framework) (before : List Statement) :
    List Statement → List ListenCall
  | [] => []
  | s :: rest =>
    (s.listenCall? framework before).toList ++ listenCalls framework (before ++ [s]) rest

namespace ListenCall

/-- The first binding of a name before the call. -/
def binding? (c : ListenCall) : Expr → Option Binding
  | .name n => (c.before.filterMap Statement.binding?).find? (·.name == n)
  | _ => none

/-- An argument's value is that of a literal, or of the first binding of a name; a missing argument
has none. -/
def value (c : ListenCall) (argument : Option Expr) : Value :=
  let literal := argument.bind Expr.value?
  let bound := (argument.bind c.binding?).map (·.value)
  (literal.or bound).getD .null

/-- The details that the call gives. -/
def details (c : ListenCall) : ServerDetails where
  portNumber := c.value c.arguments[0]?
  isPortEnv := .bool (((c.arguments[0]?.bind c.binding?).map (·.isEnvDefault)).getD false)
  host := c.value c.arguments[1]?
  backlog := c.value c.arguments[2]?

end ListenCall

/-- The details of the last of some calls. -/
def ServerDetails.ofCalls (calls : List ListenCall) : ServerDetails :=
  (calls.getLast?.map ListenCall.details).getD .unknown

/-! ## The table at a call -/

/-- The table holds what the statements declare, as far as servers are concerned. -/
structure BindingTable.Reflects (framework : Framework) (before : List Statement)
    (t : BindingTable) : Prop where
  bindings : t.bindings = before.filterMap Statement.binding?
  servers : ∀ n, n ∈ t.servers ↔ before.any (Statement.declaresServer framework n) = true

namespace BindingTable

variable {framework : Framework} {before : List Statement} {t : BindingTable}

theorem reflects_empty (framework : Framework) : Reflects framework [] empty :=
  ⟨rfl, fun n => by simp [empty]⟩

/-- A declaration makes a server of no name but its own. -/
theorem mem_servers_declare (n : Text) (ds : List Declarator) (t : BindingTable) :
    n ∈ (t.declare framework ds).servers ↔
      n ∈ t.servers ∨ (Statement.declaration ds).declaresServer framework n = true := by
  have held (u : BindingTable) : n ∈ u.servers ↔ u.holds n .server = true :=
    List.contains_iff_mem.symm
  rw [held, held, holds_declare]
  apply or_congr_right
  constructor
  · rintro ⟨d, declared, rfl, e, init, ⟨arguments⟩⟩
    unfold Declared.ofDeclarators? at declared
    split at declared
    · obtain rfl := Option.some.inj declared
      obtain rfl := init
      simp [Statement.declaresServer]
    · cases declared
  · intro h
    unfold Statement.declaresServer at h
    split at h
    · next name callee arguments shape =>
        obtain rfl := Statement.declaration.inj shape
        simp only [Bool.and_eq_true, decide_eq_true_eq] at h
        obtain ⟨rfl, rfl⟩ := h
        exact ⟨_, rfl, rfl, _, rfl, .server arguments⟩
    · cases h

theorem Reflects.declare (h : t.Reflects framework before) (ds : List Declarator) :
    (t.declare framework ds).Reflects framework (before ++ [.declaration ds]) where
  bindings := by
    have made : [Statement.declaration ds].filterMap Statement.binding? =
        (Binding.ofDeclarators? ds).toList := by
      cases bound : Binding.ofDeclarators? ds <;> simp [Statement.binding?, bound]
    rw [bindings_declare, h.bindings, List.filterMap_append, made]
  servers n := by simp [mem_servers_declare, h.servers]

/-- Other statements declare nothing. -/
theorem Reflects.skip (h : t.Reflects framework before) {s : Statement}
    (other : ∀ ds, s ≠ .declaration ds) : t.Reflects framework (before ++ [s]) := by
  cases s with
  | declaration ds => exact absurd rfl (other ds)
  | importing _ _ | expression _ _ =>
      exact ⟨by simp [h.bindings, Statement.binding?],
        fun n => by simp [h.servers, Statement.declaresServer]⟩

theorem Reflects.resolve (h : t.Reflects framework before) (arguments : List Expr)
    (e : Option Expr) : t.resolve e = ListenCall.value ⟨before, arguments⟩ e := by
  match e with
  | none => rfl
  | some (.name n) =>
    show ((t.bindings.find? _).map _).getD _ = _
    rw [h.bindings]
    rfl
  | some (.text _) | some (.literal ..) | some (.member ..) | some (.call ..)
  | some (.either ..) | some (.function _) | some (.other _) => rfl

theorem Reflects.isEnvDefault (h : t.Reflects framework before) (arguments : List Expr)
    (e : Option Expr) :
    t.isEnvDefault e =
      ((e.bind (ListenCall.binding? ⟨before, arguments⟩)).map (·.isEnvDefault)).getD false := by
  match e with
  | none => rfl
  | some (.name n) =>
    show ((t.bindings.find? _).map _).getD _ = _
    rw [h.bindings]
    rfl
  | some (.text _) | some (.literal ..) | some (.member ..) | some (.call ..)
  | some (.either ..) | some (.function _) | some (.other _) => rfl

end BindingTable

/-! ## One file -/

/-- All details in the order in which a call gives them. -/
def ServerDetails.entries (d : ServerDetails) : Assoc Detail Value :=
  [(.portNumber, d.portNumber), (.isPortEnv, d.isPortEnv), (.host, d.host), (.backlog, d.backlog)]

namespace CallSite

variable {before : List Statement} {t : BindingTable}

/-- A `listen` call of a server gives its details, and nothing else gives any. -/
theorem details_visit {reading : Reading} (h : t.Reflects reading.framework before)
    (comments : List Text) (e : Expr) (f : Facts) :
    (visit reading t comments e f).details =
      match (Statement.expression comments e).listenCall? reading.framework before with
      | some call => f.details.putAll call.details.entries
      | none => f.details := by
  cases found : (Statement.expression comments e).listenCall? reading.framework before with
  | some call =>
      unfold Statement.listenCall? at found
      split at found
      · next name property arguments shape =>
          split at found
          · next listening =>
              obtain ⟨isListen, declared⟩ := listening
              obtain ⟨-, rfl⟩ := Statement.expression.inj shape
              obtain rfl := Option.some.inj found
              have server := (h.servers name).mpr declared
              rw [visit_of_states (.call (.listen server isListen)), Facts.add,
                h.isEnvDefault arguments, h.resolve arguments, h.resolve arguments,
                h.resolve arguments]
              rfl
          · cases found
      · cases found
  | none =>
      obtain ⟨fact, stated, added⟩ | same := visit_cases reading t comments e f
      · rw [added]
        obtain ⟨-, -, shape⟩ | ⟨server, isListen⟩ | _ | ⟨-, -, -, shape⟩ := stated
        · cases shape <;> rfl
        · have declared := (h.servers _).mp server
          simp [Statement.listenCall?, isListen, declared] at found
        · rfl
        · cases shape
          rfl
      · rw [same]

end CallSite

/-- A statement adds the details of the `listen` call that it is. -/
theorem Facts.Progress.details_step {reading : Reading} {before : List Statement} {p : Progress}
    (h : p.table.Reflects reading.framework before) (s : Statement) :
    (step reading p s).facts.details =
      (s.listenCall? reading.framework before).toList.foldl
        (fun details call => details.putAll call.details.entries) p.facts.details := by
  cases s with
  | declaration _ | importing _ _ => rfl
  | expression comments e =>
      rw [step, CallSite.details_visit h]
      cases (Statement.expression comments e).listenCall? reading.framework before <;> rfl

theorem Facts.Progress.reflects_step {reading : Reading} {before : List Statement} {p : Progress}
    (h : p.table.Reflects reading.framework before) (s : Statement) :
    (step reading p s).table.Reflects reading.framework (before ++ [s]) := by
  cases s with
  | declaration ds => exact h.declare ds
  | importing _ _ | expression _ _ => exact h.skip (by simp)

/-- A reading gives the details of each call after those of the calls before it. -/
theorem Facts.Progress.details_foldl_step {reading : Reading} {before : List Statement}
    {p : Progress} (h : p.table.Reflects reading.framework before) (ss : List Statement) :
    (ss.foldl (step reading) p).facts.details =
      (listenCalls reading.framework before ss).foldl
        (fun details call => details.putAll call.details.entries) p.facts.details := by
  induction ss generalizing before p with
  | nil => rfl
  | cons s rest ih =>
      rw [List.foldl_cons, ih (reflects_step h s), details_step h s, listenCalls,
        List.foldl_append]

/-- All details are put at once, so that those of the last call are left. -/
theorem foldl_putAll_entries (calls : List ListenCall) :
    calls.foldl (fun details call => Assoc.putAll call.details.entries details) [] =
      (calls.getLast?.map (·.details.entries)).getD [] := by
  induction calls using List.reverseRecOn with
  | nil => rfl
  | append_singleton earlier last ih =>
      rw [List.foldl_append, ih, List.getLast?_concat]
      cases earlier.getLast? <;> rfl

/-- The details of a file are those of its last call, however its requests are answered. -/
theorem Facts.details_ofStatements {σ : Type} (reading : Reading)
    (resolve : Text → StateM σ (Option Text)) (file : Text) (ss : List Statement) (s : σ) :
    ((ofStatements reading resolve file ss).run s).1.details =
      ((listenCalls reading.framework [] ss).getLast?.map (·.details.entries)).getD [] := by
  have run := Progress.details_foldl_step (p := ⟨.empty, .empty file⟩)
    (BindingTable.reflects_empty reading.framework) ss
  exact run.trans (foldl_putAll_entries _)

/-! ## All files -/

/-- The details after a file are those of its last call, or those before it if it has no call. -/
theorem ServerDetails.merge_eq {f : Facts} {calls : List ListenCall} (d : ServerDetails)
    (h : f.details = (calls.getLast?.map (·.details.entries)).getD []) :
    d.merge f = (calls.getLast?.map (·.details)).getD d := by
  rw [merge, h]
  cases calls.getLast? <;> rfl

theorem ServerDetails.getLast?_append (earlier later : List ListenCall) (d : ServerDetails) :
    ((earlier ++ later).getLast?.map (·.details)).getD d =
      (later.getLast?.map (·.details)).getD ((earlier.getLast?.map (·.details)).getD d) := by
  rw [List.getLast?_append]
  cases later.getLast? <;> rfl

section Files

variable {σ : Type} (reading : Reading) (resolve : Text → Text → StateM σ (Option Text))

theorem ServerDetails.merge_ofStatements (files : List (Text × List Statement)) (s : σ)
    (d : ServerDetails) :
    ((files.mapM fun f => Facts.ofStatements reading (resolve f.1) f.1 f.2).run s).1.foldl merge d =
      ((files.flatMap fun f => listenCalls reading.framework [] f.2).getLast?.map
        (·.details)).getD d := by
  induction files generalizing s d with
  | nil => rfl
  | cons f rest ih =>
      have first := d.merge_eq (Facts.details_ofStatements reading (resolve f.1) f.1 f.2 s)
      rw [List.mapM_cons, List.flatMap_cons, getLast?_append, ← first]
      exact ih _ _

/-- The facts of the texts after the first, read after it. -/
theorem Facts.run_mapM_ofParsed_cons (p : ParsedText) (rest : List ParsedText) (s : σ) :
    (((p :: rest).mapM (Facts.ofParsed reading resolve)).run.run s).1 =
      match p.statements with
      | .error e => .error e
      | .ok ss =>
        let first := (Facts.ofStatements reading (resolve p.path) p.path ss).run s
        ((rest.mapM (Facts.ofParsed reading resolve)).run.run first.2).1.map (first.1 :: ·) := by
  rw [List.mapM_cons, ExceptT.run_bind, Facts.run_ofParsed]
  cases p.statements with
  | error e => rfl
  | ok ss =>
      dsimp only
      generalize Facts.ofStatements reading (resolve p.path) p.path ss = first
      show (StateT.run (ExceptT.run (do
        let later ← rest.mapM (Facts.ofParsed reading resolve)
        return (first.run s).1 :: later)) (first.run s).2).1 = _
      generalize rest.mapM (Facts.ofParsed reading resolve) = later
      rw [ExceptT.run_bind, StateT.run_bind]
      obtain ⟨outcome, after⟩ := StateT.run later.run (first.run s).2
      cases outcome <;> rfl

theorem ServerDetails.merge_ofParsed (ps : List ParsedText) (s : σ) (d : ServerDetails) :
    ((ps.mapM (Facts.ofParsed reading resolve)).run.run s).1.map (·.foldl merge d) =
      (ps.mapM ParsedText.statements).map fun sss =>
        ((sss.flatMap (listenCalls reading.framework [])).getLast?.map (·.details)).getD d := by
  induction ps generalizing s d with
  | nil => rfl
  | cons p rest ih =>
      rw [Facts.run_mapM_ofParsed_cons, List.mapM_cons]
      cases p.statements with
      | error e => rfl
      | ok ss =>
          dsimp only
          have first := d.merge_eq (Facts.details_ofStatements reading (resolve p.path) p.path ss s)
          generalize (Facts.ofStatements reading (resolve p.path) p.path ss).run s = after
            at first ⊢
          calc
            _ = ((rest.mapM (Facts.ofParsed reading resolve)).run.run after.2).1.map
                (·.foldl merge (d.merge after.1)) := by
              cases ((rest.mapM (Facts.ofParsed reading resolve)).run.run after.2).1 <;> rfl
            _ = (rest.mapM ParsedText.statements).map fun sss =>
                ((sss.flatMap (listenCalls reading.framework [])).getLast?.map (·.details)).getD
                  (d.merge after.1) := ih _ _
            _ = _ := by
              simp only [first, ← getLast?_append]
              cases rest.mapM ParsedText.statements <;> rfl

end Files

/-- The server of a document is that of the last `listen` call, in the order of the files and of the
statements in each. Without a call nothing is known of it. The same holds for parsed texts, when the
statements of all can be read. -/
theorem Document.server_ofFacts {σ : Type} (reading : Reading)
    (resolve : Text → Text → StateM σ (Option Text)) (s : σ) :
    (∀ files : List (Text × List Statement),
      (ofFacts
          ((files.mapM fun f => Facts.ofStatements reading (resolve f.1) f.1 f.2).run s).1).server =
        .ofCalls (files.flatMap fun f => listenCalls reading.framework [] f.2)) ∧
    ∀ ps : List ParsedText,
      ((ps.mapM (Facts.ofParsed reading resolve)).run.run s).1.map (fun fs => (ofFacts fs).server) =
        (ps.mapM ParsedText.statements).map fun sss =>
          .ofCalls (sss.flatMap (listenCalls reading.framework [])) :=
  ⟨fun files => ServerDetails.merge_ofStatements reading resolve files s .unknown,
    fun ps => ServerDetails.merge_ofParsed reading resolve ps s .unknown⟩

/-- The call of the second file has no host, and the first value of its port counts. -/
example :
    let app := Statement.declaration [⟨some "app", some (.call (.name "express") [])⟩]
    let port (value : Text) := Statement.declaration [⟨some "port", some (.text value)⟩]
    let listen (arguments : List Expr) := Statement.expression []
      (.call (.member (.name "app") (some "listen") false) arguments)
    ServerDetails.ofCalls ([[app, listen [.text "80", .text "::1"]],
        [listen [], port "81", app, port "82", listen [.name "port"], port "83"]].flatMap
          (listenCalls ⟨"express", "Router"⟩ [])) =
      ⟨.text "81", .bool false, .null, .null⟩ := by
  decide

end RouteAtlas
