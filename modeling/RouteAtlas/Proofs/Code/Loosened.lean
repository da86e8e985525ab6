import RouteAtlas.Proofs.Code.Readable

/-!
# Comments and parentheses

A tree is loosened by leaving out comments and by putting parentheses around expressions. Reading
finds the children of a node by role, by kind or as operands; in each of these ways it finds in the
loosened tree what it finds in the tree itself, but for parentheses around it. So both trees hold
the same expressions and the same statements, and only the comments before a statement differ.
-/

namespace RouteAtlas

namespace Tree

/-- The same node with other children. -/
def withChildren (t : Tree) (children : List Tree) : Tree := { t with children := children }

@[simp] theorem kind_withChildren (t : Tree) (cs : List Tree) : (t.withChildren cs).kind = t.kind :=
  rfl

@[simp] theorem children_withChildren (t : Tree) (cs : List Tree) :
    (t.withChildren cs).children = cs := rfl

@[simp] theorem text_withChildren (source : ByteArray) (t : Tree) (cs : List Tree) :
    (t.withChildren cs).text source = t.text source := rfl

/-- The same node without its role. -/
def withoutRole (t : Tree) : Tree := { t with role := none }

/-- The roles of expressions. -/
def expressionRoles : List String := ["object", "function", "index", "left", "right", "value"]

/-- The kinds of nodes whose operands are expressions, whatever their role. -/
def bodyKinds : List String := ["arguments", "expression_statement", "parenthesized_expression"]

/-- The parts of declarations, imports and strings. In a script none stands as an expression. -/
def partKinds : List String := [
  "variable_declarator", "import_clause", "namespace_import", "named_imports", "import_specifier",
  "string_fragment", "escape_sequence"]

/-- The kinds of nodes in which a name is no expression and has no role. -/
def namingKinds : List String := ["import_clause", "namespace_import"]

/-- A comment without a role and without named nodes below it. -/
structure IsLooseComment (c : Tree) : Prop where
  isComment : c.isComment = true
  role : c.role = none
  below : ∀ d ∈ c.children, d.named = false

theorem IsLooseComment.isOperand {c : Tree} (h : c.IsLooseComment) : c.isOperand = false := by
  simp [Tree.isOperand, h.isComment]

theorem IsLooseComment.fills {c : Tree} (h : c.IsLooseComment) (role : String) :
    c.fills role = false := by
  simp [Tree.fills, h.role]

theorem IsLooseComment.kind_part {c : Tree} (h : c.IsLooseComment) {kind : String}
    (part : kind ∈ partKinds) : (c.kind == kind) = false := by
  rw [beq_iff_eq.mp h.isComment, beq_eq_false_iff_ne]
  rintro rfl
  revert part
  decide

/-- A pair of parentheses: where it stands, and the tokens before and after what is inside. -/
structure Parens where
  start : Nat
  stop : Nat
  before : List Tree
  after : List Tree
  before_tokens : ∀ t ∈ before, t.named = false
  after_tokens : ∀ t ∈ after, t.named = false

/-- Parentheses around a node take over its role. -/
def Parens.around (p : Parens) (t : Tree) : Tree :=
  ⟨"parenthesized_expression", true, t.role, p.start, p.stop,
    p.before ++ t.withoutRole :: p.after⟩

/-- Any number of parentheses around a node, the outermost first. -/
def enclose (layers : List Parens) (t : Tree) : Tree := layers.foldr Parens.around t

/-- A child of a node of kind `parent` that stands as an expression there. -/
structure StandsIn (parent : String) (t : Tree) : Prop where
  isOperand : t.isOperand = true
  notPart : t.kind ∉ partKinds
  notName : parent ∉ namingKinds
  place : parent ∈ bodyKinds ∨ ∃ role ∈ expressionRoles, t.role = some role

/-- The second list is what becomes of the children of a node of kind `parent` when some comments
are left out and some expressions are put in parentheses, here and everywhere below. -/
inductive Loosened : String → List Tree → List Tree → Prop
  | nil {parent : String} : Loosened parent [] []
  | drop {parent : String} {c : Tree} {ts us : List Tree} (comment : c.IsLooseComment)
    (rest : Loosened parent ts us) : Loosened parent (c :: ts) us
  | keep {parent : String} {t : Tree} {below ts us : List Tree} (layers : List Parens)
    (stands : layers = [] ∨ t.StandsIn parent) (inside : Loosened t.kind t.children below)
    (rest : Loosened parent ts us) :
    Loosened parent (t :: ts) (enclose layers (t.withChildren below) :: us)

/-- Nothing need be left out or put in parentheses. -/
theorem Loosened.refl (parent : String) (ts : List Tree) : Loosened parent ts ts := by
  match ts with
  | [] => exact .nil
  | ⟨kind, named, role, start, stop, children⟩ :: rest =>
      exact .keep (t := ⟨kind, named, role, start, stop, children⟩) [] (.inl rfl)
        (refl kind children) (refl parent rest)

/-- The second tree is the first one loosened: the node itself stays as it is. -/
def IsLoosening (t u : Tree) : Prop :=
  ∃ below, Loosened t.kind t.children below ∧ u = t.withChildren below

/-- What becomes of one child of a node of kind `parent` that stays. -/
inductive Kept (parent : String) (t : Tree) : Tree → Prop
  | intro {below : List Tree} (layers : List Parens) (stands : layers = [] ∨ t.StandsIn parent)
    (inside : Loosened t.kind t.children below) :
    Kept parent t (enclose layers (t.withChildren below))

section Enclosing

theorem role_enclose (layers : List Parens) (t : Tree) : (enclose layers t).role = t.role := by
  induction layers with
  | nil => rfl
  | cons p rest ih => exact ih

theorem isOperand_enclose (layers : List Parens) {t : Tree} (h : t.isOperand = true) :
    (enclose layers t).isOperand = true := by
  cases layers with
  | nil => exact h
  | cons p rest => rfl

theorem kind_enclose {layers : List Parens} (h : layers ≠ []) (t : Tree) :
    (enclose layers t).kind = "parenthesized_expression" := by
  cases layers with
  | nil => exact absurd rfl h
  | cons p rest => rfl

end Enclosing

namespace Kept

variable {parent : String} {t u : Tree}

theorem role (h : Kept parent t u) : u.role = t.role := by
  cases h with
  | intro layers _ _ => exact role_enclose layers _

theorem fills (h : Kept parent t u) (role : String) : u.fills role = t.fills role := by
  rw [Tree.fills, Tree.fills, h.role]

theorem isOperand (h : Kept parent t u) : u.isOperand = t.isOperand := by
  cases h with
  | intro layers stands inside =>
      rcases stands with rfl | stands
      · rfl
      · rw [stands.isOperand]
        exact isOperand_enclose layers stands.isOperand

/-- A child that is no expression is itself loosened. -/
theorem isLoosening (h : Kept parent t u) (notExpression : ¬ t.StandsIn parent) :
    t.IsLoosening u := by
  cases h with
  | intro layers stands inside =>
      obtain rfl : layers = [] := stands.resolve_right notExpression
      exact ⟨_, inside, rfl⟩

theorem named (h : Kept parent t u) : u.named = t.named := by
  cases h with
  | @intro below layers stands inside =>
      rcases stands with rfl | stands
      · rfl
      · have wrapped : (enclose layers (t.withChildren below)).isOperand = true :=
          isOperand_enclose layers stands.isOperand
        exact (Bool.and_eq_true_iff.mp wrapped).1.trans
          (Bool.and_eq_true_iff.mp stands.isOperand).1.symm

/-- No expression, and nothing in parentheses, is of the kind of a part. -/
theorem kind_part (h : Kept parent t u) {kind : String} (part : kind ∈ partKinds) :
    (u.kind == kind) = (t.kind == kind) := by
  cases h with
  | intro layers stands inside =>
      by_cases bare : layers = []
      · subst bare
        rfl
      · have notParens : "parenthesized_expression" ≠ kind := by
          rintro rfl
          revert part
          decide
        have notPart : t.kind ≠ kind := by
          rintro rfl
          exact (stands.resolve_left bare).notPart part
        rw [kind_enclose bare, beq_false_of_ne notParens, beq_false_of_ne notPart]

end Kept

/-- Only expressions have the role of one, but for the operands of a few kinds of nodes. -/
theorem not_standsIn_of_fills {parent : String} {t : Tree} {role : String}
    (h : t.fills role = true) (body : parent ∉ bodyKinds) (other : role ∉ expressionRoles) :
    ¬ t.StandsIn parent := by
  intro stands
  rcases stands.place with isBody | ⟨r, isRole, filled⟩
  · exact body isBody
  · have same : t.role = some role := beq_iff_eq.mp h
    rw [same] at filled
    exact other (Option.some.inj filled ▸ isRole)

namespace Loosened

variable {parent : String} {ts us : List Tree}

/-- A selection that leaves out comments, and tells by what parentheses keep, selects the same. -/
theorem forall₂_filter (h : Loosened parent ts us) {p : Tree → Bool}
    (comments : ∀ c, c.IsLooseComment → p c = false)
    (same : ∀ t u, Kept parent t u → p u = p t) :
    List.Forall₂ (Kept parent) (ts.filter p) (us.filter p) := by
  induction h with
  | nil => exact .nil
  | @drop parent c ts us comment _ ih =>
      rw [List.filter_cons_of_neg (by simp [comments c comment])]
      exact ih same
  | @keep parent t below ts us layers stands inside _ _ ih =>
      have kept := Kept.intro layers stands inside
      cases here : p t with
      | true =>
          rw [List.filter_cons_of_pos here, List.filter_cons_of_pos ((same _ _ kept).trans here)]
          exact .cons kept (ih same)
      | false =>
          have there := (same _ _ kept).trans here
          rw [List.filter_cons_of_neg (by simp [here]), List.filter_cons_of_neg (by simp [there])]
          exact ih same

/-- A search that finds no comment, and tells by what parentheses keep, finds the same child. -/
theorem find? (h : Loosened parent ts us) {p : Tree → Bool}
    (comments : ∀ c, c.IsLooseComment → p c = false)
    (same : ∀ t u, Kept parent t u → p u = p t) :
    (ts.find? p = none ∧ us.find? p = none) ∨
      ∃ t u, ts.find? p = some t ∧ us.find? p = some u ∧ Kept parent t u := by
  have selected := h.forall₂_filter comments same
  rw [← List.head?_filter, ← List.head?_filter]
  generalize ts.filter p = found at selected
  generalize us.filter p = found' at selected
  cases selected with
  | nil => exact .inl ⟨rfl, rfl⟩
  | cons kept _ => exact .inr ⟨_, _, rfl, rfl, kept⟩

/-- Children in the other roles are found as they are, apart from what is below them. -/
theorem find?_role (h : Loosened parent ts us) (role : String) (body : parent ∉ bodyKinds)
    (other : role ∉ expressionRoles) :
    (ts.find? (·.fills role) = none ∧ us.find? (·.fills role) = none) ∨
      ∃ t u, ts.find? (·.fills role) = some t ∧ us.find? (·.fills role) = some u ∧
        t.IsLoosening u := by
  rcases h.find? (fun _ comment => comment.fills role) fun _ _ kept => kept.fills role with
    none | ⟨t, u, found, found', kept⟩
  · exact .inl none
  · have fills := List.find?_some found
    exact .inr ⟨t, u, found, found', kept.isLoosening (not_standsIn_of_fills fills body other)⟩

/-- So the text of such a child stays. -/
theorem text_role (h : Loosened parent ts us) (role : String) (body : parent ∉ bodyKinds)
    (other : role ∉ expressionRoles) (source : ByteArray) :
    (us.find? (·.fills role)).map (Tree.text source) =
      (ts.find? (·.fills role)).map (Tree.text source) := by
  rcases h.find?_role role body other with ⟨found, found'⟩ | ⟨t, u, found, found', below, -, rfl⟩
  · rw [found, found']
  · rw [found, found']
    rfl

theorem namedChildren (h : Loosened parent ts us) :
    Loosened parent (ts.filter (·.named)) (us.filter (·.named)) := by
  induction h with
  | nil => exact .nil
  | @drop parent c ts us comment _ ih =>
      rw [List.filter_cons]
      split
      · exact .drop comment ih
      · exact ih
  | @keep parent t below ts us layers stands inside _ _ ih =>
      have same := (Kept.intro layers stands inside).named
      rw [List.filter_cons, List.filter_cons, same]
      split
      · exact .keep layers stands inside ih
      · exact ih

end Loosened

end Tree

section Reading

variable (source : ByteArray)

open RouteAtlas.Tree

/-- The role of a node tells nothing about its expression. -/
theorem Expr.ofTree_withoutRole (t : Tree) :
    Expr.ofTree source t.withoutRole = Expr.ofTree source t := by
  obtain ⟨kind, named, role, start, stop, children⟩ := t
  simp only [withoutRole, Expr.ofTree]
  rfl

/-- The operand between the tokens of parentheses. -/
theorem find?_isOperand_around (p : Parens) {t : Tree} (h : t.isOperand = true) :
    (p.around t).children.find? Tree.isOperand = some t.withoutRole := by
  have noToken : p.before.find? Tree.isOperand = none := by
    rw [List.find?_eq_none]
    intro c mem
    simp [Tree.isOperand, p.before_tokens c mem]
  have operand : t.withoutRole.isOperand = true := h
  rw [Parens.around, List.find?_append, noToken, Option.none_or, List.find?_cons_of_pos operand]

/-- Parentheses around an operand are not seen in its expression. -/
theorem Expr.ofTree_enclose (layers : List Parens) {t : Tree} (h : t.isOperand = true) :
    Expr.ofTree source (enclose layers t) = Expr.ofTree source t := by
  induction layers with
  | nil => rfl
  | cons p rest ih =>
      have parenthesized : Expr.ofTree source (p.around (enclose rest t)) =
          Expr.ofFirstOperand source (p.around (enclose rest t)).children := by
        rw [Parens.around, Expr.ofTree]
        rfl
      rw [← ih, ← Expr.ofTree_withoutRole source (enclose rest t)]
      refine parenthesized.trans ?_
      rw [Expr.ofFirstOperand_eq, find?_isOperand_around p (isOperand_enclose rest h)]
      rfl

/-- What a child of a string node adds to its text. -/
def stringPiece (c : Tree) : Except LiteralError Text :=
  if c.kind == "string_fragment" then .ok (c.text source)
  else if c.kind == "escape_sequence" then Literal.escape (c.text source)
  else .ok []

theorem stringPiece_of_kept {parent : String} {t u : Tree} (kept : Kept parent t u) :
    stringPiece source u = stringPiece source t := by
  cases kept with
  | intro layers stands inside =>
      by_cases bare : layers = []
      · subst bare
        rfl
      · have notPart := (stands.resolve_left bare).notPart
        simp only [partKinds, List.mem_cons, not_or] at notPart
        simp [stringPiece, kind_enclose bare, notPart]

theorem stringPiece_of_isLooseComment {c : Tree} (h : c.IsLooseComment) :
    stringPiece source c = .ok [] := by
  have kind : c.kind = "comment" := beq_iff_eq.mp h.isComment
  simp [stringPiece, kind]

theorem flatten_mapM_cons {α β ε : Type} (f : α → Except ε (List β)) (x : α) (xs : List α) :
    List.flatten <$> (x :: xs).mapM f =
      (do return (← f x) ++ (← List.flatten <$> xs.mapM f)) := by
  simp [List.mapM_cons]

theorem Tree.Loosened.flatten_mapM_stringPiece {parent : String} {ts us : List Tree}
    (h : Loosened parent ts us) :
    List.flatten <$> us.mapM (stringPiece source) =
      List.flatten <$> ts.mapM (stringPiece source) := by
  induction h with
  | nil => rfl
  | drop comment _ ih =>
      rw [ih, flatten_mapM_cons, stringPiece_of_isLooseComment source comment]
      exact (id_map _).symm
  | keep layers stands inside _ _ ih =>
      rw [flatten_mapM_cons, flatten_mapM_cons, ih,
        stringPiece_of_kept source (.intro layers stands inside)]

theorem Tree.stringText_loosened {t : Tree} {below : List Tree}
    (h : Loosened t.kind t.children below) :
    (t.withChildren below).stringText source = t.stringText source :=
  h.namedChildren.flatten_mapM_stringPiece source

section Expressions

variable {source}

section Children

variable {parent : String} {ts us : List Tree} (h : Loosened parent ts us)
  (reads : ∀ c ∈ ts, ∀ u, Kept parent c u → Expr.ofTree source u = Expr.ofTree source c)

include h reads

/-- Whatever is found with or without parentheses has the same expression. -/
theorem Tree.Loosened.ofTree?_find? {p : Tree → Bool}
    (comments : ∀ c, c.IsLooseComment → p c = false)
    (same : ∀ t u, Kept parent t u → p u = p t) :
    Expr.ofTree? source (us.find? p) = Expr.ofTree? source (ts.find? p) := by
  rcases h.find? comments same with ⟨found, found'⟩ | ⟨t, u, found, found', kept⟩
  · rw [found, found']
  · rw [found, found']
    exact reads t (List.mem_of_find?_eq_some found) u kept

theorem Tree.Loosened.ofRole (role : String) :
    Expr.ofRole source role us = Expr.ofRole source role ts := by
  rw [Expr.ofRole_eq, Expr.ofRole_eq]
  exact h.ofTree?_find? reads (fun _ comment => comment.fills role) fun _ _ kept => kept.fills role

theorem Tree.Loosened.ofFirstOperand :
    Expr.ofFirstOperand source us = Expr.ofFirstOperand source ts := by
  rw [Expr.ofFirstOperand_eq, Expr.ofFirstOperand_eq]
  exact h.ofTree?_find? reads (fun _ comment => comment.isOperand) fun _ _ kept => kept.isOperand

theorem Tree.Loosened.ofOperands : Expr.ofOperands source us = Expr.ofOperands source ts := by
  rw [Expr.ofOperands_eq, Expr.ofOperands_eq]
  have operands := h.forall₂_filter (fun _ comment => comment.isOperand)
    fun _ _ kept => kept.isOperand
  exact mapM_eq_of_forall₂ operands fun c mem u kept =>
    reads c (List.mem_filter.mp mem).1 u kept

end Children

/-- The node of the arguments is found, and its operands are read. -/
theorem Tree.Loosened.ofArguments {parent : String} {ts us : List Tree} (h : Loosened parent ts us)
    (reads : ∀ a ∈ ts, ∀ c ∈ a.children, ∀ u, Kept a.kind c u →
      Expr.ofTree source u = Expr.ofTree source c) (body : parent ∉ bodyKinds) :
    Expr.ofArguments source us = Expr.ofArguments source ts := by
  rw [Expr.ofArguments_eq, Expr.ofArguments_eq]
  rcases h.find?_role "arguments" body (by decide) with
    ⟨found, found'⟩ | ⟨a, u, found, found', below, inside, rfl⟩
  · rw [found, found']
  · have operands := inside.ofOperands (reads a (List.mem_of_find?_eq_some found))
    rw [found, found', Option.bind_some, Option.bind_some, withChildren, operands]

/-- A node is read as before if all its children are, and those of the node of its arguments. -/
theorem Expr.ofTree_withChildren {t : Tree} {below : List Tree}
    (h : Loosened t.kind t.children below)
    (reads : ∀ c ∈ t.children, ∀ u, Kept t.kind c u → ofTree source u = ofTree source c)
    (readsArguments : ∀ a ∈ t.children, ∀ c ∈ a.children, ∀ u, Kept a.kind c u →
      ofTree source u = ofTree source c) :
    ofTree source (t.withChildren below) = ofTree source t := by
  obtain ⟨kind, named, role, start, stop, children⟩ := t
  have firstOperand := h.ofFirstOperand reads
  have roles := h.ofRole reads
  have string := stringText_loosened source h
  have node : Tree.text source ⟨kind, named, role, start, stop, below⟩ =
    Tree.text source ⟨kind, named, role, start, stop, children⟩ := rfl
  simp only [withChildren] at firstOperand roles string ⊢
  by_cases body : kind ∈ bodyKinds
  · simp only [bodyKinds, List.mem_cons, List.not_mem_nil, or_false] at body
    rcases body with rfl | rfl | rfl
    · rfl
    · rfl
    · exact firstOperand
  -- elsewhere a node in parentheses has the role of an expression, so these four are as they were
  have arguments := h.ofArguments readsArguments body
  have property := h.text_role "property" body (by decide) source
  have name := h.text_role "name" body (by decide) source
  rcases h.find?_role "operator" body (by decide) with
    ⟨found, found'⟩ | ⟨o, u, found, found', inside, -, rfl⟩
  · simp only [ofTree, firstOperand, roles, string, node, arguments, property, name, Tree.child?,
      found, found']
  · simp only [ofTree, firstOperand, roles, string, node, arguments, property, name, Tree.child?,
      found, found', Tree.withChildren]

theorem Expr.ofTree_kept {parent : String} {c u : Tree} (kept : Kept parent c u)
    (inside : ∀ below, Loosened c.kind c.children below →
      ofTree source (c.withChildren below) = ofTree source c) :
    ofTree source u = ofTree source c := by
  cases kept with
  | @intro below layers stands loosened =>
      have bare := inside below loosened
      rcases stands with rfl | stands
      · exact bare
      · have operand : (c.withChildren below).isOperand = true := stands.isOperand
        exact (ofTree_enclose source layers operand).trans bare

/-- A loosened tree stands for the same expression. -/
theorem Expr.ofTree_loosened (t : Tree) {below : List Tree}
    (h : Loosened t.kind t.children below) :
    ofTree source (t.withChildren below) = ofTree source t := by
  -- arguments are children of a child, so the recursion is on the size of the node
  refine ofTree_withChildren h ?_ ?_
  · intro c child u kept
    have smaller := sizeOf_lt_of_mem_children child
    exact ofTree_kept kept fun _ => ofTree_loosened c
  · intro a child c argument u kept
    have smaller := Nat.lt_trans (sizeOf_lt_of_mem_children argument)
      (sizeOf_lt_of_mem_children child)
    exact ofTree_kept kept fun _ => ofTree_loosened c
termination_by sizeOf t

end Expressions

/-- Whatever becomes of a child that stays, it stands for the same expression. -/
theorem Tree.Kept.ofTree {parent : String} {t u : Tree} (kept : Kept parent t u) :
    Expr.ofTree source u = Expr.ofTree source t :=
  Expr.ofTree_kept kept fun _ => Expr.ofTree_loosened t

end Reading

end RouteAtlas
