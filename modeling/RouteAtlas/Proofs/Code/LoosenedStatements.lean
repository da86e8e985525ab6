import RouteAtlas.Proofs.Code.Loosened

/-!
# Statements of loosened trees

Each node of a loosened tree that stays is the same statement as before, parentheses are none, and
neither is anything in a comment. So a loosened tree has the same statements in the same order;
which comments stand before them is all that can differ.
-/

namespace RouteAtlas

open RouteAtlas.Tree

/-- The same statement without the comments before it. -/
def Statement.eraseComments : Statement → Statement
  | .expression _ e => .expression [] e
  | s => s

namespace Tree.Loosened

variable {parent : String} {ts us : List Tree}

/-- A part is found as it is, apart from what is below it. -/
theorem find?_part (h : Loosened parent ts us) (kind : String) (part : kind ∈ partKinds) :
    (ts.find? (·.kind == kind) = none ∧ us.find? (·.kind == kind) = none) ∨
      ∃ t u, ts.find? (·.kind == kind) = some t ∧ us.find? (·.kind == kind) = some u ∧
        t.IsLoosening u := by
  rcases h.find? (p := (·.kind == kind)) (fun _ comment => comment.kind_part part)
    fun _ _ kept => kept.kind_part part with none | ⟨t, u, found, found', kept⟩
  · exact .inl none
  · have isKind : t.kind = kind := by simpa using List.find?_some found
    have notExpression : ¬ t.StandsIn parent := fun stands => stands.notPart (isKind ▸ part)
    exact .inr ⟨t, u, found, found', kept.isLoosening notExpression⟩

theorem findSome? {α : Type} {f : Tree → Option α} (h : Loosened parent ts us)
    (comments : ∀ c, c.IsLooseComment → f c = none)
    (same : ∀ t u, Kept parent t u → f u = f t) : us.findSome? f = ts.findSome? f := by
  induction h with
  | nil => rfl
  | drop comment _ ih => rw [List.findSome?_cons, comments _ comment, ih same]
  | keep layers stands inside _ _ ih =>
      rw [List.findSome?_cons, List.findSome?_cons, same _ _ (.intro layers stands inside), ih same]

end Tree.Loosened

section Statements

variable (source : ByteArray)

/-- The name that a node is, if it is an identifier. -/
def Tree.identifier? (t : Tree) : Option Text :=
  if t.kind == "identifier" then some (t.text source) else none

theorem Declarator.ofTree_eq (t : Tree) :
    ofTree source t =
      (do
        let init ← (t.child? "value").mapM (Expr.ofTree source)
        return ⟨(t.child? "name").bind (identifier? source), init⟩) := by
  unfold ofTree
  cases t.child? "value" with
  | none => cases t.child? "name" <;> rfl
  | some v =>
      simp only [Option.mapM_some, bind_map_left]
      cases t.child? "name" <;> rfl

theorem Declarator.ofTree_loosened {t : Tree} {below : List Tree}
    (h : Loosened t.kind t.children below) (kind : t.kind = "variable_declarator") :
    ofTree source (t.withChildren below) = ofTree source t := by
  rw [kind] at h
  have name : ((t.withChildren below).child? "name").bind (identifier? source) =
      (t.child? "name").bind (identifier? source) := by
    rw [Tree.child?, Tree.child?, children_withChildren]
    rcases h.find?_role "name" (by decide) (by decide) with
      ⟨found, found'⟩ | ⟨n, u, found, found', inside, -, rfl⟩
    · rw [found, found']
    · rw [found, found']
      rfl
  have init : ((t.withChildren below).child? "value").mapM (Expr.ofTree source) =
      (t.child? "value").mapM (Expr.ofTree source) := by
    rw [Tree.child?, Tree.child?, children_withChildren]
    rcases h.find? (fun _ comment => comment.fills "value") fun _ _ kept => kept.fills "value" with
      ⟨found, found'⟩ | ⟨v, w, found, found', kept⟩
    · rw [found, found']
    · rw [found, found', Option.mapM_some, Option.mapM_some, kept.ofTree source]
  rw [ofTree_eq, ofTree_eq, name, init]

/-- The local name of a specifier among the named imports. -/
def Tree.specifierName? (specifier : Tree) : Option Text :=
  if specifier.kind == "import_specifier" then
    ((specifier.child? "alias").or (specifier.child? "name")).map (Tree.text source)
  else none

theorem Tree.specifierName?_of_kept {parent : String} {t u : Tree} (kept : Kept parent t u) :
    specifierName? source u = specifierName? source t := by
  have part : "import_specifier" ∈ partKinds := by decide
  unfold specifierName?
  rw [kept.kind_part part]
  by_cases specifier : t.kind = "import_specifier"
  · obtain ⟨below, h, rfl⟩ := kept.isLoosening fun stands => stands.notPart (specifier ▸ part)
    rw [specifier] at h
    have renamed := h.text_role "alias" (by decide) (by decide) source
    have name := h.text_role "name" (by decide) (by decide) source
    simp only [Option.map_or]
    simp only [Tree.child?, children_withChildren, renamed, name]
  · simp [specifier]

theorem Tree.specifierName?_of_isLooseComment {c : Tree} (h : c.IsLooseComment) :
    specifierName? source c = none := by
  simp [specifierName?, beq_iff_eq.mp h.isComment]

/-- A name in a namespace import is no expression, so no parentheses are around it. -/
theorem Tree.Loosened.namespaceName {ts us : List Tree} (h : Loosened "namespace_import" ts us) :
    (us.find? (·.kind == "identifier")).map (Tree.text source) =
      (ts.find? (·.kind == "identifier")).map (Tree.text source) := by
  have bare {t u : Tree} (kept : Kept "namespace_import" t u) : t.IsLoosening u :=
    kept.isLoosening fun stands => stands.notName (by decide)
  have comments (c : Tree) (h : c.IsLooseComment) : (c.kind == "identifier") = false := by
    rw [beq_iff_eq.mp h.isComment]
    rfl
  have same (t u : Tree) (kept : Kept "namespace_import" t u) :
      (u.kind == "identifier") = (t.kind == "identifier") := by
    obtain ⟨below, -, rfl⟩ := bare kept
    rfl
  rcases h.find? comments same with ⟨found, found'⟩ | ⟨t, u, found, found', kept⟩
  · rw [found, found']
  · obtain ⟨below, -, rfl⟩ := bare kept
    rw [found, found']
    rfl

/-- The part of a clause that stays introduces the same name. -/
theorem Tree.importedName?_of_kept {t u : Tree} (kept : Kept "import_clause" t u) :
    importedName? source u = importedName? source t := by
  obtain ⟨below, h, rfl⟩ := kept.isLoosening fun stands => stands.notName (by decide)
  by_cases isNamespace : t.kind = "namespace_import"
  · rw [isNamespace] at h
    rw [importedName?, importedName?, kind_withChildren, isNamespace]
    exact h.namedChildren.namespaceName source
  · have specifiers := h.namedChildren.findSome?
      (fun _ comment => specifierName?_of_isLooseComment source comment)
      fun _ _ kept => specifierName?_of_kept source kept
    simp only [importedName?, kind_withChildren, text_withChildren, beq_false_of_ne isNamespace]
    exact congrArg (fun name => if t.kind == "identifier" then some (t.text source)
      else if t.kind == "named_imports" then name else none) specifiers

theorem Tree.importedName?_of_isLooseComment {c : Tree} (h : c.IsLooseComment) :
    importedName? source c = none := by
  simp [importedName?, beq_iff_eq.mp h.isComment]

theorem Statement.ofImport_loosened {t : Tree} {below : List Tree}
    (h : Loosened t.kind t.children below) (kind : t.kind = "import_statement") :
    ofImport source (t.withChildren below) = ofImport source t := by
  rw [kind] at h
  have localName : ((t.withChildren below).namedChildren.find? (·.kind == "import_clause")).bind
        (fun c => c.namedChildren.findSome? (importedName? source)) =
      (t.namedChildren.find? (·.kind == "import_clause")).bind
        fun c => c.namedChildren.findSome? (importedName? source) := by
    rcases h.namedChildren.find?_part "import_clause" (by decide) with
      ⟨found, found'⟩ | ⟨c, u, found, found', inside, clause, rfl⟩
    · rw [Tree.namedChildren, Tree.namedChildren, children_withChildren, found, found']
    · have isClause : c.kind = "import_clause" := by simpa using List.find?_some found
      rw [isClause] at clause
      have names := clause.namedChildren.findSome?
        (fun _ comment => importedName?_of_isLooseComment source comment)
        fun _ _ kept => importedName?_of_kept source kept
      rw [Tree.namedChildren, Tree.namedChildren, children_withChildren, found, found']
      exact names
  have specifier := h.find?_role "source" (by decide) (by decide)
  simp only [ofImport, localName, Tree.child?, children_withChildren]
  rcases specifier with ⟨found, found'⟩ | ⟨s, u, found, found', inside, text, rfl⟩
  · rw [found, found']
  · rw [found, found']
    simp only [stringText_loosened source text]

/-- A node that stays is the same statement. -/
theorem Statement.ofTree?_loosened (comments : List Text) {t : Tree} {below : List Tree}
    (h : Loosened t.kind t.children below) :
    ofTree? source comments (t.withChildren below) = ofTree? source comments t := by
  have part : "variable_declarator" ∈ partKinds := by decide
  have declarators := mapM_eq_of_forall₂ (f := Declarator.ofTree source)
    (h.namedChildren.forall₂_filter (p := (·.kind == "variable_declarator"))
      (fun _ comment => comment.kind_part part) fun _ _ kept => kept.kind_part part) <| by
    intro d mem u kept
    have isDeclarator : d.kind = "variable_declarator" := by simpa using (List.mem_filter.mp mem).2
    obtain ⟨inside, loosened, rfl⟩ :=
      kept.isLoosening fun stands => stands.notPart (isDeclarator ▸ part)
    exact Declarator.ofTree_loosened source loosened isDeclarator
  unfold ofTree?
  rw [kind_withChildren]
  split
  · rw [Tree.namedChildren, Tree.namedChildren, children_withChildren, declarators]
  split
  · next isImport =>
      rw [ofImport_loosened source h (beq_iff_eq.mp isImport)]
  split
  · rw [children_withChildren]
    rcases h.find? (fun _ comment => comment.isOperand) fun _ _ kept => kept.isOperand with
      ⟨found, found'⟩ | ⟨e, u, found, found', kept⟩
    · rw [found, found']
    · have same := kept.ofTree source
      simp only [found, found', same]
  · rfl

/-- The statements of a node and of everything below it, without the comments before them. -/
def Tree.bareAfter (t : Tree) : Except LiteralError (List Statement) :=
  List.map Statement.eraseComments <$> t.statementsAfter source []

/-- The statements among siblings, without the comments before them. -/
def Tree.bareAmong (ts : List Tree) : Except LiteralError (List Statement) :=
  List.map Statement.eraseComments <$> Tree.statementsAmong source [] ts

theorem Statement.eraseComments_ofImport (t : Tree) :
    eraseComments <$> ofImport source t = ofImport source t := by
  unfold ofImport
  cases t.child? "source" with
  | none => rfl
  | some s =>
      dsimp only
      cases s.stringText source <;> rfl

/-- Only the comments tell a statement from the one that the node is without any. -/
theorem Statement.eraseComments_ofTree? (comments : List Text) (t : Tree) :
    Option.map eraseComments <$> ofTree? source comments t = ofTree? source [] t := by
  unfold ofTree?
  split
  · cases (t.namedChildren.filter (·.kind == "variable_declarator")).mapM
      (Declarator.ofTree source) <;> rfl
  split
  · have same := eraseComments_ofImport source t
    cases made : ofImport source t with
    | error e => rfl
    | ok s =>
        rw [made] at same
        exact congrArg (Except.ok ∘ some) (Except.ok.inj same)
  split
  · cases t.children.find? Tree.isOperand with
    | none => rfl
    | some e =>
        dsimp only
        cases Expr.ofTree source e <;> rfl
  · rfl

/-- The statements of a node are its own and those among its children, whatever stands before. -/
theorem Tree.eraseComments_statementsAfter (comments : List Text) (t : Tree) :
    List.map Statement.eraseComments <$> t.statementsAfter source comments =
      (do return (← Statement.ofTree? source [] t).toList ++ (← bareAmong source t.children)) := by
  obtain ⟨kind, named, role, start, stop, children⟩ := t
  rw [← Statement.eraseComments_ofTree? source comments, statementsAfter, bareAmong]
  simp [Option.toList_map]

theorem Tree.bareAfter_eq (t : Tree) : bareAfter source t =
    (do return (← Statement.ofTree? source [] t).toList ++ (← bareAmong source t.children)) :=
  eraseComments_statementsAfter source [] t

theorem Tree.eraseComments_statementsAmong_cons (comments : List Text) (t : Tree)
    (ts : List Tree) :
    List.map Statement.eraseComments <$> Tree.statementsAmong source comments (t :: ts) = (do
      let here ← (if t.named then bareAfter source t else pure [])
      let run := if t.isComment then comments ++ [Literal.comment (t.text source)] else []
      return here ++
        (← List.map Statement.eraseComments <$> Tree.statementsAmong source run ts)) := by
  rw [statementsAmong]
  cases t.named with
  | true =>
      rw [if_pos rfl, if_pos rfl, bareAfter_eq, ← eraseComments_statementsAfter source comments]
      simp
  | false =>
      have nothing : (.ok [] : Except LiteralError (List Statement)) = pure [] := rfl
      simp [nothing]

/-- Comments before the first sibling change no more than the comments of a statement. -/
theorem Tree.eraseComments_statementsAmong (comments : List Text) (ts : List Tree) :
    List.map Statement.eraseComments <$> Tree.statementsAmong source comments ts =
      bareAmong source ts := by
  induction ts generalizing comments with
  | nil => rfl
  | cons t rest ih =>
      rw [bareAmong, eraseComments_statementsAmong_cons, eraseComments_statementsAmong_cons]
      simp only [ih]

theorem Tree.bareAmong_cons (t : Tree) (ts : List Tree) : bareAmong source (t :: ts) = (do
    let here ← (if t.named then bareAfter source t else pure [])
    return here ++ (← bareAmong source ts)) := by
  rw [bareAmong, eraseComments_statementsAmong_cons]
  simp only [eraseComments_statementsAmong]

theorem Tree.bareAmong_cons_token {t : Tree} (token : t.named = false) (ts : List Tree) :
    bareAmong source (t :: ts) = bareAmong source ts := by
  simp [bareAmong_cons, token]

theorem Tree.bareAmong_tokens {tokens : List Tree} (h : ∀ t ∈ tokens, t.named = false)
    (ts : List Tree) : bareAmong source (tokens ++ ts) = bareAmong source ts := by
  induction tokens with
  | nil => rfl
  | cons t rest ih =>
      obtain ⟨token, below⟩ := List.forall_mem_cons.mp h
      rw [List.cons_append, bareAmong_cons_token source token, ih below]

theorem Tree.bareAfter_withoutRole (t : Tree) :
    bareAfter source t.withoutRole = bareAfter source t := by
  rw [bareAfter_eq, bareAfter_eq]
  rfl

/-- Parentheses are no statement. -/
theorem Tree.bareAfter_enclose (layers : List Parens) {t : Tree} (named : t.named = true) :
    bareAfter source (enclose layers t) = bareAfter source t := by
  induction layers with
  | nil => rfl
  | cons p rest ih =>
      have inside : (enclose rest t).withoutRole.named = true := by
        cases rest with
        | nil => exact named
        | cons q rest => rfl
      have after : bareAmong source p.after = pure [] := by
        rw [← List.append_nil p.after, bareAmong_tokens source p.after_tokens]
        rfl
      -- tokens are not searched, so all statements are those of the node inside
      have children : bareAmong source (p.around (enclose rest t)).children =
          bareAfter source t := by
        rw [Parens.around, bareAmong_tokens source p.before_tokens, bareAmong_cons, inside,
          if_pos rfl, bareAfter_withoutRole, ih, after]
        simp
      have own : Statement.ofTree? source [] (p.around (enclose rest t)) = pure none := rfl
      change bareAfter source (p.around (enclose rest t)) = _
      rw [bareAfter_eq, children, own]
      simp

/-- A comment holds no statement. -/
theorem Tree.bareAfter_of_isLooseComment {c : Tree} (h : c.IsLooseComment) :
    bareAfter source c = pure [] := by
  have kind : c.kind = "comment" := beq_iff_eq.mp h.isComment
  have own : Statement.ofTree? source [] c = pure none := by
    rw [Statement.ofTree?, kind]
    rfl
  have below : bareAmong source c.children = pure [] := by
    rw [← List.append_nil c.children, bareAmong_tokens source h.below]
    rfl
  rw [bareAfter_eq, own, below]
  rfl

theorem Tree.bareAfter_withChildren {t : Tree} {below : List Tree}
    (h : Loosened t.kind t.children below)
    (inside : bareAmong source below = bareAmong source t.children) :
    bareAfter source (t.withChildren below) = bareAfter source t := by
  rw [bareAfter_eq, bareAfter_eq, Statement.ofTree?_loosened source [] h, children_withChildren,
    inside]

theorem Tree.Loosened.bareAmong_eq {parent : String} {ts us : List Tree}
    (h : Loosened parent ts us) : bareAmong source us = bareAmong source ts := by
  induction h with
  | nil => rfl
  | @drop parent c ts us comment _ ih =>
      have nothing : (if c.named then bareAfter source c else pure []) = pure [] := by
        rw [bareAfter_of_isLooseComment source comment, ite_self]
      rw [ih, bareAmong_cons, nothing]
      simp
  | @keep parent t below ts us layers stands inside _ ihInside ih =>
      have named := (Kept.intro layers stands inside).named
      rw [bareAmong_cons, bareAmong_cons, ih, named]
      cases isNamed : t.named with
      | false => rfl
      | true =>
          have isNamed : (t.withChildren below).named = true := isNamed
          rw [bareAfter_enclose source layers isNamed,
            bareAfter_withChildren source inside ihInside]

/-- A loosened tree has the same statements, but for the comments before them. -/
theorem Tree.statements_loosened {t u : Tree} (h : t.IsLoosening u) :
    List.map Statement.eraseComments <$> u.statements source =
      List.map Statement.eraseComments <$> t.statements source := by
  obtain ⟨below, loosened, rfl⟩ := h
  exact bareAfter_withChildren source loosened (loosened.bareAmong_eq source)

end Statements

section CommentFree

mutual

/-- No node below this one is a comment. -/
def Tree.isCommentFree : Tree → Bool
  | ⟨_, _, _, _, _, children⟩ => Tree.areCommentFree children

/-- None of these nodes, and no node below one of them, is a comment. -/
def Tree.areCommentFree : List Tree → Bool
  | [] => true
  | t :: ts => !t.isComment && t.isCommentFree && Tree.areCommentFree ts

end

variable (source : ByteArray)

mutual

/-- In a tree without comments no statement has any before it. -/
theorem Tree.bareAfter_of_isCommentFree (t : Tree) (h : t.isCommentFree = true) :
    bareAfter source t = t.statementsAfter source [] := by
  obtain ⟨kind, named, role, start, stop, children⟩ := t
  rw [isCommentFree] at h
  rw [bareAfter_eq, bareAmong_of_areCommentFree children h, statementsAfter]

theorem Tree.bareAmong_of_areCommentFree (ts : List Tree) (h : areCommentFree ts = true) :
    bareAmong source ts = Tree.statementsAmong source [] ts := by
  match ts with
  | [] => rfl
  | t :: rest =>
      rw [areCommentFree, Bool.and_eq_true, Bool.and_eq_true, Bool.not_eq_true'] at h
      obtain ⟨⟨noComment, here⟩, below⟩ := h
      rw [bareAmong_cons, bareAfter_of_isCommentFree t here, bareAmong_of_areCommentFree rest below,
        statementsAmong, noComment]
      cases t.named <;> rfl

end

/-- The statements of a tree without comments have none before them. -/
theorem Tree.statements_of_isCommentFree {t : Tree} (h : t.isCommentFree = true) :
    List.map Statement.eraseComments <$> t.statements source = t.statements source :=
  bareAfter_of_isCommentFree source t h

end CommentFree

end RouteAtlas
