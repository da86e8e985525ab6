import RouteAtlas.Facts.File
import RouteAtlas.Proofs.Code.LoosenedStatements

/-!
# What comments are for

The comments before a statement become the description of a route and nothing else. So statements
without their comments state the same facts without the descriptions. A loosened tree has the same
statements but for these comments; it has the same facts but for the descriptions.
-/

namespace RouteAtlas

/-- The same route without a description. -/
def Route.eraseDescription (r : Route) : Route := { r with description := none }

/-- The same facts, no route of which has a description. -/
def Facts.eraseDescriptions (f : Facts) : Facts :=
  { f with routes := f.routes.map Route.eraseDescription }

namespace CallSite

theorem use_eraseDescriptions (arguments : List Expr) (f : Facts) :
    use arguments f.eraseDescriptions = (use arguments f).eraseDescriptions := by
  unfold use
  split <;> rfl

theorem listen_eraseDescriptions (table : BindingTable) (arguments : List Expr) (f : Facts) :
    listen table arguments f.eraseDescriptions = (listen table arguments f).eraseDescriptions := rfl

/-- Without comments there is no description. -/
theorem route_eraseDescriptions (reading : Reading) (router : Option Text) (method : Text)
    (comments : List Text) (arguments : List Expr) (f : Facts) :
    route reading router method [] arguments f.eraseDescriptions =
      (route reading router method comments arguments f).eraseDescriptions := by
  unfold route
  split
  · simp [Facts.eraseDescriptions, Route.eraseDescription, describe]
  · rfl

theorem mount_eraseDescriptions (arguments : List Expr) (f : Facts) :
    mount arguments f.eraseDescriptions = (mount arguments f).eraseDescriptions := by
  unfold mount
  split <;> rfl

theorem dispatch_eraseDescriptions (reading : Reading) (table : BindingTable)
    (comments : List Text) (name property : Text) (arguments : List Expr) (f : Facts) :
    dispatch reading table [] name property arguments f.eraseDescriptions =
      (dispatch reading table comments name property arguments f).eraseDescriptions := by
  simp only [dispatch, use_eraseDescriptions, listen_eraseDescriptions,
    route_eraseDescriptions reading _ _ comments, apply_ite Facts.eraseDescriptions]

theorem visit_eraseDescriptions (reading : Reading) (table : BindingTable) (comments : List Text)
    (e : Expr) (f : Facts) :
    visit reading table [] e f.eraseDescriptions =
      (visit reading table comments e f).eraseDescriptions := by
  unfold visit
  split
  · simp only [record, dispatch_eraseDescriptions reading table comments, mount_eraseDescriptions,
      apply_ite Facts.eraseDescriptions]
  · rfl

end CallSite

theorem Statement.importRequest?_eraseComments (s : Statement) :
    s.eraseComments.importRequest? = s.importRequest? := by
  cases s <;> rfl

namespace Facts

/-- The same progress, no route of which has a description. -/
def Progress.eraseDescriptions (p : Progress) : Progress :=
  { p with facts := p.facts.eraseDescriptions }

/-- A statement without its comments states the same without a description. -/
theorem Progress.step_eraseComments (reading : Reading) (p : Progress) (s : Statement) :
    step reading p.eraseDescriptions s.eraseComments = (step reading p s).eraseDescriptions := by
  cases s with
  | declaration declarators => rfl
  | importing localName source => rfl
  | expression comments e =>
      exact congrArg (Progress.mk p.table)
        (CallSite.visit_eraseDescriptions reading p.table comments e p.facts)

theorem Progress.foldl_step_eraseComments (reading : Reading) (p : Progress)
    (ss : List Statement) :
    (ss.map Statement.eraseComments).foldl (step reading) p.eraseDescriptions =
      (ss.foldl (step reading) p).eraseDescriptions := by
  induction ss generalizing p with
  | nil => rfl
  | cons s rest ih => rw [List.map_cons, List.foldl_cons, step_eraseComments, ih, List.foldl_cons]

section Lawful

variable {m : Type → Type} [Monad m] [LawfulMonad m]

/-- Comments change the descriptions alone, and nothing of what is asked of `resolve`. -/
theorem ofStatements_eraseComments (reading : Reading) (resolve : Text → m (Option Text))
    (file : Text) (ss : List Statement) :
    ofStatements reading resolve file (ss.map Statement.eraseComments) =
      eraseDescriptions <$> ofStatements reading resolve file ss := by
  have run := Progress.foldl_step_eraseComments reading ⟨.empty, .empty file⟩ ss
  have start : Progress.eraseDescriptions ⟨.empty, .empty file⟩ = ⟨.empty, .empty file⟩ := rfl
  have requests : (ss.map Statement.eraseComments).filterMap Statement.importRequest? =
      ss.filterMap Statement.importRequest? := by
    rw [List.filterMap_map]
    exact List.filterMap_congr fun s _ => s.importRequest?_eraseComments
  rw [start] at run
  simp only [ofStatements, run, requests, map_bind, map_pure]
  rfl

/-- The facts without descriptions are those of the statements without comments. -/
theorem eraseDescriptions_ofParsed (reading : Reading) (resolve : Text → Text → m (Option Text))
    (p : ParsedText) :
    (eraseDescriptions <$> ofParsed reading resolve p).run =
      match List.map Statement.eraseComments <$> p.statements with
      | .ok ss => .ok <$> ofStatements reading (resolve p.path) p.path ss
      | .error e => pure (.error e) := by
  rw [ExceptT.run_map, run_ofParsed]
  cases p.statements with
  | error e => simp [Except.map]
  | ok ss => simp [ofStatements_eraseComments, Except.map]

/-- In a tree without comments no route has a description. -/
theorem eraseDescriptions_of_isCommentFree (reading : Reading)
    (resolve : Text → Text → m (Option Text)) {p : ParsedText} (h : p.tree.isCommentFree = true) :
    eraseDescriptions <$> ofParsed reading resolve p = ofParsed reading resolve p := by
  have bare : List.map Statement.eraseComments <$> p.statements = p.statements :=
    Tree.statements_of_isCommentFree p.source h
  have erased := eraseDescriptions_ofParsed reading resolve p
  have whole := run_ofParsed reading resolve p
  rw [bare] at erased
  apply ExceptT.ext
  cases found : p.statements with
  | error e =>
      rw [found] at erased whole
      exact erased.trans whole.symm
  | ok ss =>
      rw [found] at erased whole
      exact erased.trans whole.symm

theorem eraseDescriptions_loosened (reading : Reading) (resolve : Text → Text → m (Option Text))
    (path : Text) (source : ByteArray) {t u : Tree} (h : t.IsLoosening u) :
    eraseDescriptions <$> ofParsed reading resolve ⟨path, source, u⟩ =
      eraseDescriptions <$> ofParsed reading resolve ⟨path, source, t⟩ := by
  have same : List.map Statement.eraseComments <$> ParsedText.statements ⟨path, source, u⟩ =
      List.map Statement.eraseComments <$> ParsedText.statements ⟨path, source, t⟩ :=
    Tree.statements_loosened source h
  apply ExceptT.ext
  rw [eraseDescriptions_ofParsed, eraseDescriptions_ofParsed, same]

end Lawful

/-- Leaving out comments and putting parentheses around expressions keeps the statements, apart from
the comments before them, and the facts, apart from the descriptions of the routes. Once no comment
is left, no route has a description. -/
theorem ofParsed_loosened {σ : Type} (reading : Reading)
    (resolve : Text → Text → StateM σ (Option Text)) (path : Text) (source : ByteArray) {t u : Tree}
    (h : t.IsLoosening u) :
    List.map Statement.eraseComments <$> u.statements source =
        List.map Statement.eraseComments <$> t.statements source ∧
      eraseDescriptions <$> ofParsed reading resolve ⟨path, source, u⟩ =
        eraseDescriptions <$> ofParsed reading resolve ⟨path, source, t⟩ ∧
      (u.isCommentFree = true → ∀ (before after : σ) (f : Facts),
        (ofParsed reading resolve ⟨path, source, u⟩).run.run before = (.ok f, after) →
          ∀ r ∈ f.routes, r.description = none) := by
  refine ⟨Tree.statements_loosened source h,
    eraseDescriptions_loosened reading resolve path source h, ?_⟩
  intro commentFree before after f made r mem
  have bare := eraseDescriptions_of_isCommentFree reading resolve
    (p := ⟨path, source, u⟩) commentFree
  rw [← bare, ExceptT.run_map, StateT.run_map] at made
  obtain ⟨result, -⟩ := Prod.mk.inj made
  cases found : ((ofParsed reading resolve ⟨path, source, u⟩).run.run before).1 with
  | error e =>
      rw [found] at result
      cases result
  | ok g =>
      rw [found] at result
      obtain rfl : g.eraseDescriptions = f := Except.ok.inj result
      obtain ⟨written, -, rfl⟩ := List.mem_map.mp mem
      rfl

end Facts

namespace Tree

/-- A named node without children. -/
def leaf (kind : String) (role : Option String) (start stop : Nat) : Tree :=
  ⟨kind, true, role, start, stop, []⟩

def token (kind : String) (start stop : Nat) : Tree := ⟨kind, false, none, start, stop, []⟩

/-- A script with a commented route. -/
def commentedSource : ByteArray :=
  "const app = express();\n// @desc All\napp.get('/list', list);".toUTF8

/-- The declaration of `app` in it, with a node for the initializer. -/
def declarationTree (value : Tree) : Tree := ⟨"lexical_declaration", true, none, 0, 22, [
  token "const" 0 5,
  ⟨"variable_declarator", true, none, 6, 21, [
    leaf "identifier" (some "name") 6 9, token "=" 10 11, value]⟩,
  token ";" 21 22]⟩

def initializerTree : Tree := ⟨"call_expression", true, some "value", 12, 21, [
  leaf "identifier" (some "function") 12 19,
  ⟨"arguments", true, some "arguments", 19, 21, [token "(" 19 20, token ")" 20 21]⟩]⟩

/-- The call of `get` in it, with nodes for the object and for the path. -/
def callTree (object path : Tree) : Tree := ⟨"call_expression", true, none, 36, 58, [
  ⟨"member_expression", true, some "function", 36, 43, [
    object, token "." 39 40, leaf "property_identifier" (some "property") 40 43]⟩,
  ⟨"arguments", true, some "arguments", 43, 58, [
    token "(" 43 44, path, token "," 51 52, leaf "identifier" none 53 57, token ")" 57 58]⟩]⟩

def objectTree : Tree := leaf "identifier" (some "object") 36 39

def pathTree : Tree := ⟨"string", true, none, 44, 51, [
  token "'" 44 45, leaf "string_fragment" none 45 50, token "'" 50 51]⟩

def commentedTree : Tree := ⟨"program", true, none, 0, 59, [
  declarationTree initializerTree, leaf "comment" none 23 35,
  ⟨"expression_statement", true, none, 36, 59, [
    callTree objectTree pathTree, token ";" 58 59]⟩]⟩

def parens : Parens := ⟨0, 0, [token "(" 0 0], [token ")" 0 0], by decide, by decide⟩

/-- The same script without its comment, and with parentheses wherever they are possible. -/
def parenthesizedTree : Tree := ⟨"program", true, none, 0, 59, [
  declarationTree (parens.around initializerTree),
  ⟨"expression_statement", true, none, 36, 59, [
    parens.around (callTree (parens.around objectTree) (parens.around (parens.around pathTree))),
    token ";" 58 59]⟩]⟩

theorem isLoosening_parenthesizedTree : commentedTree.IsLoosening parenthesizedTree := by
  have declaration : Loosened "lexical_declaration" (declarationTree initializerTree).children
      (declarationTree (parens.around initializerTree)).children := by
    have value : initializerTree.StandsIn "variable_declarator" :=
      ⟨rfl, by decide, by decide, .inr ⟨"value", by decide, rfl⟩⟩
    have declarator : Loosened "variable_declarator"
        [leaf "identifier" (some "name") 6 9, token "=" 10 11, initializerTree]
        [leaf "identifier" (some "name") 6 9, token "=" 10 11, parens.around initializerTree] :=
      .keep [] (.inl rfl) .nil <| .keep [] (.inl rfl) .nil <|
        .keep [parens] (.inr value) (.refl _ _) .nil
    exact .keep [] (.inl rfl) .nil <| .keep [] (.inl rfl) declarator <|
      .keep [] (.inl rfl) .nil .nil
  have member : Loosened "member_expression"
      [objectTree, token "." 39 40, leaf "property_identifier" (some "property") 40 43]
      [parens.around objectTree, token "." 39 40,
        leaf "property_identifier" (some "property") 40 43] := by
    have object : objectTree.StandsIn "member_expression" :=
      ⟨rfl, by decide, by decide, .inr ⟨"object", by decide, rfl⟩⟩
    exact .keep [parens] (.inr object) .nil (.refl _ _)
  have arguments : Loosened "arguments"
      [token "(" 43 44, pathTree, token "," 51 52, leaf "identifier" none 53 57, token ")" 57 58]
      [token "(" 43 44, parens.around (parens.around pathTree), token "," 51 52,
        leaf "identifier" none 53 57, token ")" 57 58] := by
    have path : pathTree.StandsIn "arguments" := ⟨rfl, by decide, by decide, .inl (by decide)⟩
    exact .keep [] (.inl rfl) .nil <| .keep [parens, parens] (.inr path) (.refl _ _) (.refl _ _)
  have call : (callTree objectTree pathTree).StandsIn "expression_statement" :=
    ⟨rfl, by decide, by decide, .inl (by decide)⟩
  have statement : Loosened "expression_statement"
      [callTree objectTree pathTree, token ";" 58 59]
      [parens.around
        (callTree (parens.around objectTree) (parens.around (parens.around pathTree))),
        token ";" 58 59] :=
    .keep [parens] (.inr call)
      (.keep [] (.inl rfl) member (.keep [] (.inl rfl) arguments .nil)) (.refl _ _)
  have comment : IsLooseComment (leaf "comment" none 23 35) := ⟨rfl, rfl, nofun⟩
  exact ⟨_, .keep [] (.inl rfl) declaration (.drop comment (.keep [] (.inl rfl) statement .nil)),
    rfl⟩

end Tree

namespace Facts

open RouteAtlas.Tree

/-- The facts of a tree for the commented script. -/
def ofCommented (tree : Tree) : ExceptT LiteralError (StateM Unit) Facts :=
  ofParsed ⟨⟨"express", "Router"⟩, "@desc", true⟩ (fun _ _ => pure none)
    ⟨"/p/app.js", commentedSource, tree⟩

/-- Both trees state the route, but only the comment describes it. -/
theorem ofParsed_parenthesizedTree :
    commentedTree.IsLoosening parenthesizedTree ∧ parenthesizedTree.isCommentFree = true ∧
      List.map Statement.eraseComments <$> parenthesizedTree.statements commentedSource =
        List.map Statement.eraseComments <$> commentedTree.statements commentedSource ∧
      eraseDescriptions <$> ofCommented parenthesizedTree =
        eraseDescriptions <$> ofCommented commentedTree ∧
      ∃ f g, (ofCommented commentedTree).run.run () = (.ok f, ()) ∧
        (ofCommented parenthesizedTree).run.run () = (.ok g, ()) ∧
        f.routes = [⟨"/list", "get", none, "/p/app.js", [], some "All"⟩] ∧
        ∀ r ∈ g.routes, r.description = none := by
  obtain ⟨statements, facts, bare⟩ := ofParsed_loosened ⟨⟨"express", "Router"⟩, "@desc", true⟩
    (fun _ _ => (pure none : StateM Unit _)) "/p/app.js" commentedSource
    isLoosening_parenthesizedTree
  refine ⟨isLoosening_parenthesizedTree, rfl, statements, facts, _, _, rfl, rfl, rfl, ?_⟩
  exact bare rfl () () _ rfl

end Facts

end RouteAtlas
