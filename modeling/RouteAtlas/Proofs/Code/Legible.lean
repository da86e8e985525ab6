import RouteAtlas.Proofs.Code.Readable
import RouteAtlas.Proofs.Text.Surrogate

/-!
# Legible code

Only a string literal can hold a surrogate, by an escape. The names in the code of a tree, and the
comments before its statements, are read from bytes and hold none.
-/

namespace RouteAtlas

/-- What comes of a success has the property. -/
def Ensures {ε α : Type} (P : α → Prop) (x : Except ε α) : Prop := ∀ a, x = .ok a → P a

namespace Ensures

variable {ε α β : Type} {P : α → Prop} {Q : β → Prop} {x : Except ε α}

theorem whatever : Ensures (fun _ => True) x := fun _ _ => trivial

theorem ok {a : α} (h : P a) : Ensures P (.ok a : Except ε α) := by
  intro b same
  obtain rfl := Except.ok.inj same
  exact h

theorem bind (h : Ensures P x) {f : α → Except ε β} (next : ∀ a, P a → Ensures Q (f a)) :
    Ensures Q (x >>= f) := by
  cases x with
  | ok a => exact next a (h a rfl)
  | error e => exact fun _ same => nomatch same

theorem map (h : Ensures P x) {f : α → β} (next : ∀ a, P a → Q (f a)) : Ensures Q (x.map f) := by
  cases x with
  | ok a => exact .ok (next a (h a rfl))
  | error e => exact fun _ same => nomatch same

theorem mapM {f : α → Except ε β} {as : List α} (each : ∀ a ∈ as, Ensures Q (f a)) :
    Ensures (fun bs => ∀ b ∈ bs, Q b) (as.mapM f) := by
  induction as with
  | nil => exact .ok nofun
  | cons a rest ih =>
      obtain ⟨here, later⟩ := List.forall_mem_cons.mp each
      rw [List.mapM_cons]
      exact here.bind fun b isQ => (ih later).bind fun bs areQ =>
        .ok (List.forall_mem_cons.mpr ⟨isQ, areQ⟩)

end Ensures

theorem Tree.hasNoSurrogate_text (source : ByteArray) (t : Tree) :
    (t.text source).HasNoSurrogate :=
  Utf8.hasNoSurrogate_decodeDropping _

namespace Expr

/-- No name in the expression holds a surrogate. -/
inductive IsLegible : Expr → Prop
  | text {t} : IsLegible (.text t)
  | literal {kind v} : IsLegible (.literal kind v)
  | name {n} (h : n.HasNoSurrogate) : IsLegible (.name n)
  | member {object property computed} (h : IsLegible object) :
    IsLegible (.member object property computed)
  | call {callee arguments} (hc : IsLegible callee) (ha : ∀ a ∈ arguments, IsLegible a) :
    IsLegible (.call callee arguments)
  | either {left right} (hl : IsLegible left) (hr : IsLegible right) :
    IsLegible (.either left right)
  | function {n} : IsLegible (.function n)
  | other {kind} : IsLegible (.other kind)

variable (source : ByteArray)

theorem ensures_ofTree? {t : Option Tree}
    (h : ∀ p ∈ t.toList, Ensures IsLegible (ofTree source p)) :
    Ensures IsLegible (ofTree? source t) := by
  cases t with
  | none => exact .ok .other
  | some t => exact h t (by simp)

/-- A node is read as a legible expression if its parts are. -/
theorem ensures_ofTree_of_parts (t : Tree)
    (below : ∀ p ∈ t.parts, Ensures IsLegible (ofTree source p)) :
    Ensures IsLegible (ofTree source t) := by
  obtain ⟨kind, named, role, start, stop, children⟩ := t
  simp only [ofTree, ofRole_eq, ofFirstOperand_eq, ofArguments_eq, ofOperands_eq, beq_iff_eq]
  simp only [Tree.parts, Tree.child?] at below
  by_cases parenthesized : kind = "parenthesized_expression"
  · subst parenthesized
    exact ensures_ofTree? source (by simpa using below)
  by_cases string : kind = "string"
  · subst string
    exact Ensures.map (P := fun _ => True) (fun _ _ => trivial) fun _ _ => .text
  by_cases identifier : kind = "identifier"
  · subst identifier
    exact .ok (.name (Tree.hasNoSurrogate_text source _))
  by_cases member : kind = "member_expression"
  · subst member
    have object := ensures_ofTree? source (t := children.find? (·.fills "object"))
      (by simpa using below)
    exact object.bind fun o legible => .ok (.member legible)
  by_cases subscript : kind = "subscript_expression"
  · subst subscript
    have parts : (∀ p ∈ (children.find? (·.fills "index")).toList,
          Ensures IsLegible (ofTree source p)) ∧
        ∀ p ∈ (children.find? (·.fills "object")).toList, Ensures IsLegible (ofTree source p) := by
      simpa [or_imp, forall_and] using below
    exact (ensures_ofTree? source parts.1).bind fun _ _ =>
      (ensures_ofTree? source parts.2).bind fun o legible => .ok (.member legible)
  by_cases call : kind = "call_expression"
  · subst call
    cases found : children.find? (·.fills "arguments") with
    | none => exact .ok .other
    | some a =>
        by_cases arguments : a.kind = "arguments"
        · have parts : (∀ p ∈ (children.find? (·.fills "function")).toList,
                Ensures IsLegible (ofTree source p)) ∧
              ∀ p ∈ a.children.filter Tree.isOperand, Ensures IsLegible (ofTree source p) := by
            simpa [found, arguments, or_imp, forall_and] using below
          simp only [Option.bind_some, arguments, if_true]
          exact (ensures_ofTree? source parts.1).bind fun c legible =>
            (Ensures.mapM parts.2).bind fun as legibles => .ok (.call legible legibles)
        · simp only [Option.bind_some, arguments, if_false]
          exact .ok .other
  by_cases binary : kind = "binary_expression"
  · subst binary
    simp only [Tree.child?]
    cases found : children.find? (·.fills "operator") with
    | none => exact .ok .other
    | some operator =>
        by_cases disjunction : operator.kind = "||"
        · have parts : (∀ p ∈ (children.find? (·.fills "left")).toList,
                Ensures IsLegible (ofTree source p)) ∧
              ∀ p ∈ (children.find? (·.fills "right")).toList,
                Ensures IsLegible (ofTree source p) := by
            simpa [found, disjunction, or_imp, forall_and] using below
          simp only [disjunction, if_true]
          exact (ensures_ofTree? source parts.1).bind fun l left =>
            (ensures_ofTree? source parts.2).bind fun r right => .ok (.either left right)
        · simp only [disjunction, if_false]
          exact .ok .other
  -- every other kind is read without a look at its children, and not as a name
  simp only [parenthesized, string, identifier, member, subscript, call, binary, if_false]
  repeat' split
  · exact .ok .literal
  · exact .ok .literal
  · exact .ok .literal
  · exact .ok .literal
  · exact .ok .function
  · exact .ok .other

theorem ensures_ofTree (t : Tree) : Ensures IsLegible (ofTree source t) := by
  refine ensures_ofTree_of_parts source t fun p part => ?_
  have smaller := Tree.sizeOf_lt_of_mem_parts part
  exact ensures_ofTree p
termination_by sizeOf t

end Expr

theorem Literal.hasNoSurrogate_comment {t : Text} (h : t.HasNoSurrogate) :
    (comment t).HasNoSurrogate := by
  unfold comment
  split
  · exact h.of_subset (List.drop_subset ..)
  · split
    · exact h.of_subset (List.Subset.trans (List.drop_subset ..) (List.take_subset ..))
    · exact h

/-- Neither in the comments before the statement nor in a name of its expression is a surrogate.
Declarations and imports may say anything. -/
def Statement.IsLegible : Statement → Prop
  | .expression comments e => (∀ c ∈ comments, c.HasNoSurrogate) ∧ e.IsLegible
  | _ => True

/-- All of the statements are legible. -/
def Statement.AreLegible (ss : List Statement) : Prop := ∀ s ∈ ss, s.IsLegible

theorem Statement.AreLegible.append {ss us : List Statement} (h : AreLegible ss)
    (k : AreLegible us) : AreLegible (ss ++ us) :=
  List.forall_mem_append.mpr ⟨h, k⟩

section Statements

variable (source : ByteArray)

theorem Statement.ensures_ofTree? {comments : List Text} (h : ∀ c ∈ comments, c.HasNoSurrogate)
    (t : Tree) : Ensures (fun o => AreLegible o.toList) (ofTree? source comments t) := by
  unfold ofTree?
  split
  · exact Ensures.whatever.bind fun ds _ => .ok (by simp [AreLegible, IsLegible])
  split
  · unfold ofImport
    split
    · exact (Ensures.whatever.bind fun _ _ => .ok trivial).map (P := IsLegible)
        (by simp [AreLegible])
    · exact .ok (by simp [AreLegible, IsLegible])
  split
  · split
    · exact .ok nofun
    · refine (Expr.ensures_ofTree source _).map fun e legible => ?_
      simpa [AreLegible, IsLegible] using ⟨h, legible⟩
  · exact .ok nofun

mutual

theorem Tree.ensures_statementsAfter (t : Tree) {comments : List Text}
    (h : ∀ c ∈ comments, c.HasNoSurrogate) :
    Ensures Statement.AreLegible (t.statementsAfter source comments) := by
  obtain ⟨kind, named, role, start, stop, children⟩ := t
  have own := Statement.ensures_ofTree? source h ⟨kind, named, role, start, stop, children⟩
  have none : ∀ c ∈ ([] : List Text), c.HasNoSurrogate := nofun
  have below := Tree.ensures_statementsAmong children none
  rw [statementsAfter]
  exact own.bind fun o ofOwn => below.bind fun ss ofBelow => .ok (ofOwn.append ofBelow)

theorem Tree.ensures_statementsAmong (ts : List Tree) {comments : List Text}
    (h : ∀ c ∈ comments, c.HasNoSurrogate) :
    Ensures Statement.AreLegible (Tree.statementsAmong source comments ts) := by
  match ts with
  | [] => exact .ok nofun
  | t :: rest =>
      have run : ∀ c ∈ (if t.isComment then comments ++ [Literal.comment (t.text source)] else []),
          c.HasNoSurrogate := by
        split
        · have last := Literal.hasNoSurrogate_comment (t.hasNoSurrogate_text source)
          simpa [or_imp, forall_and] using ⟨h, last⟩
        · exact nofun
      have later := Tree.ensures_statementsAmong rest run
      rw [Tree.statementsAmong]
      split
      · exact (Tree.ensures_statementsAfter t h).bind fun here ofHere =>
          later.bind fun below ofBelow => .ok (ofHere.append ofBelow)
      · exact later.bind fun below ofBelow => .ok ofBelow

end

/-- The statements of a tree are legible, whatever its source is. -/
theorem ParsedText.areLegible_of_statements {p : ParsedText} {ss : List Statement}
    (h : p.statements = .ok ss) : Statement.AreLegible ss := by
  have none : ∀ c ∈ ([] : List Text), c.HasNoSurrogate := nofun
  exact p.tree.ensures_statementsAfter p.source none ss h

end Statements

end RouteAtlas
