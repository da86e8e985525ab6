import RouteAtlas.Facts.File
import RouteAtlas.Proofs.Code.Escape
import RouteAtlas.Proofs.Code.Lowering
import RouteAtlas.Proofs.Results

/-!
# Which trees can be read

Reading a tree fails in one case only: a string literal that some statement reads has an escape
whose number is too large to be tried as a code point. The relations of this file say which string
nodes a tree reads, without reading it.
-/

namespace RouteAtlas

namespace Tree

/-- The nodes of which the expression of a node is made. -/
def parts (t : Tree) : List Tree :=
  if t.kind = "parenthesized_expression" then (t.children.find? isOperand).toList
  else if t.kind = "member_expression" then (t.child? "object").toList
  else if t.kind = "subscript_expression" then
    (t.child? "index").toList ++ (t.child? "object").toList
  else if t.kind = "call_expression" then
    match t.child? "arguments" with
    | some a =>
      if a.kind = "arguments" then (t.child? "function").toList ++ a.children.filter isOperand
      else []
    | none => []
  else if t.kind = "binary_expression" then
    match t.child? "operator" with
    | some operator =>
      if operator.kind = "||" then (t.child? "left").toList ++ (t.child? "right").toList else []
    | none => []
  else []

/-- The expression of the first node is made with the text of the second, a string node. -/
inductive Quotes : Tree → Tree → Prop
  | self {s} (h : s.kind = "string") : Quotes s s
  | part {t p s} (h : p ∈ t.parts) (q : Quotes p s) : Quotes t s

/-- The statement that the first node is, if it is one, is made with the text of the second. -/
inductive States : Tree → Tree → Prop
  | declaration {t d v s} (h : t.kind = "lexical_declaration" ∨ t.kind = "variable_declaration")
      (hd : d ∈ t.namedChildren) (kind : d.kind = "variable_declarator")
      (hv : d.child? "value" = some v) (q : v.Quotes s) : States t s
  | importing {t s} (h : t.kind = "import_statement") (hs : t.child? "source" = some s) :
      States t s
  | expression {t e s} (h : t.kind = "expression_statement")
      (he : t.children.find? isOperand = some e) (q : e.Quotes s) : States t s

/-- The second node is the first, or a named node below it. -/
inductive Holds : Tree → Tree → Prop
  | self {t} : Holds t t
  | child {t c u} (h : c ∈ t.namedChildren) (below : Holds c u) : Holds t u

/-- Every escape of the node is read. -/
def IsReadable (source : ByteArray) (s : Tree) : Prop :=
  ∀ c ∈ s.namedChildren, c.kind = "escape_sequence" → ¬ Literal.IsOversized (c.text source)

theorem stringText_ok_iff (source : ByteArray) (s : Tree) :
    (∃ t, s.stringText source = .ok t) ↔ s.IsReadable source := by
  unfold stringText IsReadable
  rw [exists_map_ok, exists_mapM_ok]
  apply forall₂_congr
  intro c _
  by_cases fragment : c.kind = "string_fragment"
  · simp [fragment]
  · by_cases escape : c.kind = "escape_sequence"
    · simp [escape, Literal.escape_ok_iff]
    · simp [fragment, escape]

end Tree

namespace Expr

variable (source : ByteArray)

theorem ofTree?_ok_iff (t : Option Tree) :
    (∃ e, ofTree? source t = .ok e) ↔ ∀ p ∈ t.toList, ∃ e, ofTree source p = .ok e := by
  cases t with
  | none => simp [ofTree?]
  | some t => simp [ofTree?]

/-- A node is read exactly when its own text is, if it is a string, and all its parts are. -/
theorem ofTree_ok_iff_parts (t : Tree) :
    (∃ e, ofTree source t = .ok e) ↔
      (t.kind = "string" → t.IsReadable source) ∧ ∀ p ∈ t.parts, ∃ e, ofTree source p = .ok e := by
  obtain ⟨kind, named, role, start, stop, children⟩ := t
  simp only [ofTree, ofRole_eq, ofFirstOperand_eq, ofArguments_eq, ofOperands_eq, Tree.parts,
    Tree.child?, beq_iff_eq]
  by_cases parenthesized : kind = "parenthesized_expression"
  · subst parenthesized
    simp [ofTree?_ok_iff]
  by_cases string : kind = "string"
  · subst string
    simp [exists_map_ok, Tree.stringText_ok_iff]
  by_cases member : kind = "member_expression"
  · subst member
    simp [exists_fmap_ok, ofTree?_ok_iff]
  by_cases subscript : kind = "subscript_expression"
  · subst subscript
    simp [exists_bind_ok, exists_fmap_ok, ofTree?_ok_iff, or_imp, forall_and]
  by_cases call : kind = "call_expression"
  · subst call
    cases children.find? (·.fills "arguments") with
    | none => simp
    | some a =>
        by_cases arguments : a.kind = "arguments"
        · simp [arguments, exists_bind_ok, exists_fmap_ok, exists_mapM_ok, ofTree?_ok_iff, or_imp,
            forall_and]
        · simp [arguments]
  by_cases binary : kind = "binary_expression"
  · subst binary
    cases children.find? (·.fills "operator") with
    | none => simp
    | some operator =>
        by_cases disjunction : operator.kind = "||"
        · simp [disjunction, exists_bind_ok, exists_fmap_ok, ofTree?_ok_iff, or_imp, forall_and]
        · simp [disjunction]
  -- every other kind is read without a look at its children
  simp only [parenthesized, string, member, subscript, call, binary, if_false, false_implies,
    List.not_mem_nil, implies_true, and_self, iff_true]
  repeat' split
  all_goals exact ⟨_, rfl⟩

end Expr

namespace Tree

theorem sizeOf_lt_of_mem_children {t c : Tree} (h : c ∈ t.children) : sizeOf c < sizeOf t := by
  obtain ⟨kind, named, role, start, stop, children⟩ := t
  have smaller : sizeOf c < sizeOf children := List.sizeOf_lt_of_mem h
  simp only [Tree.mk.sizeOf_spec]
  omega

/-- The parts of a node are children of it, or of the child that holds its arguments. -/
theorem mem_children_of_mem_parts {t p : Tree} (h : p ∈ t.parts) :
    p ∈ t.children ∨ ∃ a ∈ t.children, p ∈ a.children := by
  have found {q : Tree → Bool} (hp : p ∈ (t.children.find? q).toList) : p ∈ t.children :=
    List.mem_of_find?_eq_some (Option.mem_toList.mp hp)
  unfold parts at h
  split at h
  · exact .inl (found h)
  split at h
  · exact .inl (found h)
  split at h
  · obtain index | object := List.mem_append.mp h
    · exact .inl (found index)
    · exact .inl (found object)
  split at h
  · split at h
    · next a ha =>
        split at h
        · obtain callee | argument := List.mem_append.mp h
          · exact .inl (found callee)
          · exact .inr ⟨a, List.mem_of_find?_eq_some ha, (List.mem_filter.mp argument).1⟩
        · cases h
    · cases h
  split at h
  · split at h
    · split at h
      · obtain left | right := List.mem_append.mp h
        · exact .inl (found left)
        · exact .inl (found right)
      · cases h
    · cases h
  · cases h

theorem sizeOf_lt_of_mem_parts {t p : Tree} (h : p ∈ t.parts) : sizeOf p < sizeOf t := by
  obtain child | ⟨a, argument, below⟩ := mem_children_of_mem_parts h
  · exact sizeOf_lt_of_mem_children child
  · exact Nat.lt_trans (sizeOf_lt_of_mem_children below) (sizeOf_lt_of_mem_children argument)

end Tree

namespace Expr

variable (source : ByteArray)

theorem isReadable_of_ofTree_ok {t s : Tree} (q : t.Quotes s)
    (h : ∃ e, ofTree source t = .ok e) : s.IsReadable source := by
  induction q with
  | self string => exact ((ofTree_ok_iff_parts source _).mp h).1 string
  | part part _ ih => exact ih (((ofTree_ok_iff_parts source _).mp h).2 _ part)

theorem ofTree_ok_of_isReadable (t : Tree) (h : ∀ s, t.Quotes s → s.IsReadable source) :
    ∃ e, ofTree source t = .ok e := by
  apply (ofTree_ok_iff_parts source t).mpr
  refine ⟨fun string => h t (.self string), ?_⟩
  intro p part
  have smaller := Tree.sizeOf_lt_of_mem_parts part
  exact ofTree_ok_of_isReadable p fun s q => h s (.part part q)
termination_by sizeOf t

/-- An expression is read exactly when every string literal in it is. -/
theorem ofTree_ok_iff (t : Tree) :
    (∃ e, ofTree source t = .ok e) ↔ ∀ s, t.Quotes s → s.IsReadable source :=
  ⟨fun h _ q => isReadable_of_ofTree_ok source q h, ofTree_ok_of_isReadable source t⟩

end Expr

section Statements

variable (source : ByteArray)

theorem Declarator.ofTree_ok_iff (t : Tree) :
    (∃ d, Declarator.ofTree source t = .ok d) ↔
      ∀ v, t.child? "value" = some v → ∃ e, Expr.ofTree source v = .ok e := by
  unfold Declarator.ofTree
  cases t.child? "value" with
  | none => simp [pure, Except.pure]
  | some v => simp [exists_fmap_ok]

theorem Statement.ofImport_ok_iff (t : Tree) :
    (∃ s, Statement.ofImport source t = .ok s) ↔
      ∀ s, t.child? "source" = some s → s.IsReadable source := by
  unfold Statement.ofImport
  cases t.child? "source" with
  | none => simp [pure, Except.pure]
  | some s => simp [exists_fmap_ok, Tree.stringText_ok_iff]

/-- A statement is read exactly when every string literal that it is made with is. -/
theorem Statement.ofTree?_ok_iff (comments : List Text) (t : Tree) :
    (∃ s, Statement.ofTree? source comments t = .ok s) ↔
      ∀ s, t.States s → s.IsReadable source := by
  unfold Statement.ofTree?
  by_cases declaration : t.kind = "lexical_declaration" ∨ t.kind = "variable_declaration"
  · have test : (t.kind == "lexical_declaration" || t.kind == "variable_declaration") = true := by
      simpa using declaration
    simp only [test, if_true, bind_pure_comp, exists_fmap_ok, exists_mapM_ok, List.mem_filter,
      Declarator.ofTree_ok_iff, Expr.ofTree_ok_iff]
    constructor
    · intro h s states
      cases states with
      | declaration _ hd kind hv q => exact h _ ⟨hd, by simpa using kind⟩ _ hv s q
      | importing kind _ => simp [kind] at declaration
      | expression kind _ _ => simp [kind] at declaration
    · intro h d hd v hv s q
      exact h s (.declaration declaration hd.1 (by simpa using hd.2) hv q)
  have test : (t.kind == "lexical_declaration" || t.kind == "variable_declaration") = false := by
    simpa using declaration
  simp only [test, Bool.false_eq_true, if_false, beq_iff_eq]
  by_cases importing : t.kind = "import_statement"
  · rw [if_pos importing, exists_map_ok, Statement.ofImport_ok_iff]
    constructor
    · intro h s states
      cases states with
      | declaration kind _ _ _ _ => exact absurd kind declaration
      | importing _ hs => exact h s hs
      | expression kind _ _ => simp [kind] at importing
    · intro h s hs
      exact h s (.importing importing hs)
  rw [if_neg importing]
  by_cases expression : t.kind = "expression_statement"
  · rw [if_pos expression]
    constructor
    · intro h s states
      cases states with
      | declaration kind _ _ _ _ => exact absurd kind declaration
      | importing kind _ => exact absurd kind importing
      | expression _ he q =>
          simp only [he, exists_map_ok, Expr.ofTree_ok_iff] at h
          exact h s q
    · intro h
      cases he : t.children.find? Tree.isOperand with
      | none => exact ⟨none, rfl⟩
      | some e =>
          simp only [exists_map_ok, Expr.ofTree_ok_iff]
          intro s q
          exact h s (.expression expression he q)
  rw [if_neg expression]
  constructor
  · intro _ s states
    cases states with
    | declaration kind _ _ _ _ => exact absurd kind declaration
    | importing kind _ => exact absurd kind importing
    | expression kind _ _ => exact absurd kind expression
  · intro _
    exact ⟨none, rfl⟩

mutual

theorem Tree.statementsAfter_ok_iff (t : Tree) (comments : List Text) :
    (∃ ss, t.statementsAfter source comments = .ok ss) ↔
      ∀ u, t.Holds u → ∀ s, u.States s → s.IsReadable source := by
  obtain ⟨kind, named, role, start, stop, children⟩ := t
  have below := Tree.statementsAmong_ok_iff children []
  simp only [statementsAfter, exists_bind_ok, bind_pure_comp, exists_fmap_ok, exists_and_right,
    below, Statement.ofTree?_ok_iff]
  constructor
  · rintro ⟨here, later⟩ u (_ | ⟨hc, holds⟩)
    · exact here
    · exact later _ (List.mem_filter.mp hc).1 (List.mem_filter.mp hc).2 u holds
  · intro h
    refine ⟨h _ .self, ?_⟩
    intro c hc named u holds
    exact h u (.child (List.mem_filter.mpr ⟨hc, named⟩) holds)

theorem Tree.statementsAmong_ok_iff (ts : List Tree) (comments : List Text) :
    (∃ ss, Tree.statementsAmong source comments ts = .ok ss) ↔
      ∀ c ∈ ts, c.named = true → ∀ u, c.Holds u → ∀ s, u.States s → s.IsReadable source := by
  match ts with
  | [] => simp [Tree.statementsAmong]
  | t :: rest =>
      have here := Tree.statementsAfter_ok_iff t comments
      have later := Tree.statementsAmong_ok_iff rest
      simp only [Tree.statementsAmong, bind_pure_comp, List.forall_mem_cons]
      cases named : t.named with
      | true =>
          simp only [if_true, forall_const, exists_bind_ok, exists_fmap_ok, exists_and_right, here,
            later]
      | false =>
          simp [exists_bind_ok, exists_fmap_ok, later]

end

/-- The statements of a tree are read exactly when all string literals in them are. -/
theorem Tree.statements_ok_iff (t : Tree) :
    (∃ ss, t.statements source = .ok ss) ↔
      ∀ u, t.Holds u → ∀ s, u.States s → s.IsReadable source :=
  Tree.statementsAfter_ok_iff source t []

end Statements

namespace Facts

variable (reading : Reading) (d : Disk)

theorem run_ofFile_error {p : ParsedText} {e : LiteralError} (h : p.statements = .error e)
    (memo : Import.Memo) : (ofFile reading d p).run.run memo = (.error e, memo) := by
  rw [ofFile, run_ofParsed, h]
  rfl

/-- Once the statements are there, their facts are, and no import gets in the way. -/
theorem exists_run_ofFile_iff (memo : Import.Memo) (p : ParsedText) :
    (∃ f memo', (ofFile reading d p).run.run memo = (.ok f, memo')) ↔
      ∃ ss, p.statements = .ok ss := by
  cases h : p.statements with
  | ok ss =>
      refine iff_of_true ?_ ⟨ss, rfl⟩
      rw [ofFile, run_ofParsed, h]
      exact ⟨_, _, rfl⟩
  | error e =>
      refine iff_of_false ?_ ?_
      · rintro ⟨f, memo', run⟩
        rw [run_ofFile_error reading d h] at run
        cases run
      · rintro ⟨ss, read⟩
        cases read

/-- The statements and the facts of a parsed text can be had, whatever its tree is like, exactly
when no string literal in a statement has an oversized escape. With digits in braces, that is when
they stand for less than two to the 31. -/
theorem ofFile_ok_iff (memo : Import.Memo) (p : ParsedText) :
    ((∃ ss, p.statements = .ok ss) ↔
      ∀ u, p.tree.Holds u → ∀ s, u.States s → s.IsReadable p.source) ∧
    ((∃ f memo', (ofFile reading d p).run.run memo = (.ok f, memo')) ↔
      ∀ u, p.tree.Holds u → ∀ s, u.States s → s.IsReadable p.source) ∧
    (∀ ds, (∃ t, Literal.escape (Literal.braced ds) = .ok t) ↔ ds.value 16 < 0x80000000) := by
  have statements := p.tree.statements_ok_iff p.source
  refine ⟨statements, ?_, Literal.escape_braced_ok_iff⟩
  rw [exists_run_ofFile_iff]
  exact statements

/-- The text `const a = "\u{80000000}";`, whose one literal is an oversized escape. -/
def oversizedLiteral : ParsedText where
  path := "/p/app.ts"
  source := "const a = \"\\u\x7b80000000\x7d\";\n".toUTF8
  tree :=
    ⟨"program", true, none, 0, 26, [
      ⟨"lexical_declaration", true, none, 0, 25, [
        ⟨"const", false, some "kind", 0, 5, []⟩,
        ⟨"variable_declarator", true, none, 6, 24, [
          ⟨"identifier", true, some "name", 6, 7, []⟩,
          ⟨"=", false, none, 8, 9, []⟩,
          ⟨"string", true, some "value", 10, 24, [
            ⟨"\"", false, none, 10, 11, []⟩,
            ⟨"escape_sequence", true, none, 11, 23, []⟩,
            ⟨"\"", false, none, 23, 24, []⟩]⟩]⟩,
        ⟨";", false, none, 24, 25, []⟩]⟩]⟩

/-- No reading gets the facts of a text with an oversized escape. -/
theorem ofFile_oversizedLiteral :
    oversizedLiteral.statements = .error .codePointOutOfRange ∧
      ∀ reading d memo, (ofFile reading d oversizedLiteral).run.run memo =
        (.error .codePointOutOfRange, memo) := by
  have failure : oversizedLiteral.statements = .error .codePointOutOfRange := rfl
  exact ⟨failure, fun reading d => run_ofFile_error reading d failure⟩

end Facts

end RouteAtlas
