import Mathlib.Data.List.Perm.Subperm
import RouteAtlas.Proofs.Code.Leading
import RouteAtlas.Proofs.Code.Legible
import RouteAtlas.Proofs.Facts.Description
import RouteAtlas.Proofs.Facts.Stated

/-!
# One comment, one description

A route has a description when a comment before its statement holds the marker. A statement states
one route at most, and a comment leads up to one statement at most. So in the facts of a file there
are at most as many descriptions as there are comments with the marker in its tree.
-/

namespace RouteAtlas

/-! ## Statements -/

/-- A comment of the statement holds a marker. -/
def Statement.isMarked (marker : Text) : Statement → Bool
  | .expression comments _ => comments.any (Text.hasPart marker)
  | _ => false

/-- An expression statement comes of a node of its kind and has the comments before the node. -/
theorem Statement.ensures_expression (source : ByteArray) (comments : List Text) (t : Tree) :
    Ensures (fun o => ∀ own e, o = some (.expression own e) →
      t.kind = "expression_statement" ∧ own = comments) (ofTree? source comments t) := by
  unfold ofTree?
  split
  · exact Ensures.whatever.bind fun ds _ => .ok nofun
  split
  · have imported : Ensures (fun s => ∀ own e, s ≠ .expression own e) (ofImport source t) := by
      unfold ofImport
      split
      · exact Ensures.whatever.bind fun _ _ => .ok nofun
      · exact .ok nofun
    exact imported.map fun s other own e same => absurd (Option.some.inj same) (other own e)
  split
  · next kind =>
      split
      · exact .ok nofun
      · refine Ensures.whatever.map fun e _ own other same => ?_
        obtain ⟨rfl, -⟩ := Statement.expression.inj (Option.some.inj same)
        exact ⟨beq_iff_eq.mp kind, rfl⟩
  · exact .ok nofun

theorem CallSite.isSome_describe (marker : Text) (comments : List Text) :
    (describe marker comments).isSome = comments.any (Text.hasPart marker) := by
  rw [describe, Option.isSome_map, Bool.eq_iff_iff, List.find?_isSome, List.any_eq_true]

/-- The fact is a route with a description. -/
def Fact.isDescribed : Fact → Bool
  | .route _ _ _ _ description => description.isSome
  | _ => false

namespace Facts

/-- The number of routes that have a description. -/
def describedRoutes (f : Facts) : Nat := f.routes.countP (·.description.isSome)

theorem describedRoutes_add (f : Facts) (fact : Fact) :
    (f.add fact).describedRoutes = f.describedRoutes + if fact.isDescribed then 1 else 0 := by
  cases fact with
  | route path method router middleware description =>
      rw [add, describedRoutes, List.countP_append, List.countP_singleton]
      rfl
  | _ => rfl

/-- A description comes from a comment with the marker. -/
theorem isMarked_of_states {reading : Reading} {t : BindingTable} {comments : List Text} {e : Expr}
    {fact : Fact} (h : CallSite.States reading t comments e fact)
    (described : fact.isDescribed = true) :
    (Statement.expression comments e).isMarked reading.marker = true := by
  obtain ⟨-, -, shape⟩ | _ | ⟨-, -, -⟩ | ⟨-, -, -, shape⟩ := h
  · cases shape <;> cases described
  · cases described
  · exact (CallSite.isSome_describe _ _).symm.trans described
  · cases shape
    cases described

/-- A statement adds one described route at most, and none if no comment of it is marked. -/
theorem Progress.describedRoutes_step_le (reading : Reading) (p : Progress) (s : Statement) :
    (step reading p s).facts.describedRoutes ≤
      p.facts.describedRoutes + if s.isMarked reading.marker then 1 else 0 := by
  cases s with
  | declaration declarators => exact Nat.le_add_right _ _
  | importing localName source => exact Nat.le_add_right _ _
  | expression comments e =>
      obtain ⟨fact, stated, added⟩ | same :=
        CallSite.visit_cases reading p.table comments e p.facts
      · rw [step, added, describedRoutes_add]
        apply Nat.add_le_add_left
        cases described : fact.isDescribed with
        | false => exact Nat.zero_le _
        | true => rw [isMarked_of_states stated described]
      · rw [step, same]
        exact Nat.le_add_right _ _

theorem Progress.describedRoutes_foldl_step_le (reading : Reading) (p : Progress)
    (ss : List Statement) :
    (ss.foldl (step reading) p).facts.describedRoutes ≤
      p.facts.describedRoutes + ss.countP (Statement.isMarked reading.marker) := by
  induction ss generalizing p with
  | nil => exact Nat.le_refl _
  | cons s rest ih =>
      have first := describedRoutes_step_le reading p s
      have later := ih (step reading p s)
      rw [List.foldl_cons, List.countP_cons]
      omega

/-- The facts of a file's statements have no more described routes than there are marked
statements. -/
theorem describedRoutes_ofStatements_le {σ : Type} (reading : Reading)
    (resolve : Text → StateM σ (Option Text)) (file : Text) (ss : List Statement) (memo : σ) :
    ((ofStatements reading resolve file ss).run memo).1.describedRoutes ≤
      ss.countP (Statement.isMarked reading.marker) := by
  have bound := Progress.describedRoutes_foldl_step_le reading ⟨.empty, .empty file⟩ ss
  have start : (empty file).describedRoutes = 0 := rfl
  rw [start, Nat.zero_add] at bound
  exact bound

end Facts

/-! ## Sites -/

namespace Site

/-- An expression statement stands at the site. -/
def isExpressionStatement (s : Site) : Bool := s.node.kind == "expression_statement"

theorem isComment_eq_false {s : Site} (h : s.isExpressionStatement = true) :
    s.node.isComment = false := by
  have kind : s.node.kind = "expression_statement" := beq_iff_eq.mp h
  rw [Tree.isComment, kind]
  rfl

section Marks

variable (source : ByteArray) (marker : Text)

/-- The site is that of a comment with the marker. -/
def isMark (c : Site) : Bool := c.node.isComment && Text.hasPart marker (c.comment source)

/-- The first comment before an expression statement that holds the marker. -/
def mark? (s : Site) : Option Site :=
  if s.isExpressionStatement then s.leading.find? fun c => Text.hasPart marker (c.comment source)
  else none

variable {source marker}

theorem mark?_spec {s c : Site} (h : s.mark? source marker = some c) :
    s.isExpressionStatement = true ∧ c ∈ s.leading ∧ c.isMark source marker = true := by
  unfold mark? at h
  split at h
  · next statement =>
      have mem := List.mem_of_find?_eq_some h
      have held := List.find?_some h
      exact ⟨statement, mem, by rw [isMark, isComment_of_mem_leading mem, held]; rfl⟩
  · cases h

/-- A statement with a marked comment is an expression statement with a mark. -/
theorem isSome_mark?_of_isMarked {s : Site} {own : Statement}
    (read : s.statement? source = .ok (some own)) (marked : own.isMarked marker = true) :
    (s.mark? source marker).isSome = true := by
  cases own with
  | declaration declarators => cases marked
  | importing localName source => cases marked
  | expression comments e =>
      obtain ⟨kind, rfl⟩ := Statement.ensures_expression source _ s.node _ read comments e rfl
      have statement : s.isExpressionStatement = true := beq_iff_eq.mpr kind
      rw [mark?, if_pos statement, List.find?_isSome]
      simpa [Statement.isMarked] using marked

theorem ensures_isMarked (source : ByteArray) (marker : Text) (s : Site) :
    Ensures (fun own => own.toList.countP (Statement.isMarked marker) ≤
      if (s.mark? source marker).isSome then 1 else 0) (s.statement? source) := by
  intro own read
  cases own with
  | none => exact Nat.zero_le _
  | some one =>
      rw [Option.toList_some, List.countP_singleton]
      split
      · next marked => rw [if_pos (isSome_mark?_of_isMarked read marked)]
      · exact Nat.zero_le _

/-- There are no more marked statements than sites with a mark. -/
theorem ensures_countP_isMarked (ss : List Site) :
    Ensures (fun own => own.countP (Statement.isMarked marker) ≤
      ss.countP fun s => (s.mark? source marker).isSome) (statements source ss) := by
  induction ss with
  | nil => exact .ok (Nat.le_refl 0)
  | cons s rest ih =>
      rw [statements_cons]
      have first := ensures_isMarked source marker s
      refine first.bind fun own here => ih.bind fun later below => .ok ?_
      rw [List.countP_append, List.countP_cons, Nat.add_comm]
      exact Nat.add_le_add below here

/-- Different statements have different marks, so there are no more sites with a mark than marks. -/
theorem countP_mark?_le (t : Tree) :
    t.namedSites.countP (fun s => (s.mark? source marker).isSome) ≤
      t.sites.countP (isMark source marker) := by
  have included : t.namedSites.filterMap (mark? source marker) ⊆
      t.sites.filter (isMark source marker) := by
    intro c mem
    obtain ⟨s, memS, found⟩ := List.mem_filterMap.mp mem
    obtain ⟨-, leads, marked⟩ := mark?_spec found
    exact List.mem_filter.mpr ⟨leading_subset_sites (namedSites_subset memS) leads, marked⟩
  have different : (t.namedSites.filterMap (mark? source marker)).Nodup := by
    apply List.pairwise_filterMap.mpr
    apply pairwise_namedSites.imp_of_mem
    rintro s u memS memU less c foundS _ foundU rfl
    obtain ⟨statementS, leadsS, -⟩ := mark?_spec foundS
    obtain ⟨statementU, leadsU, -⟩ := mark?_spec foundU
    obtain rfl := eq_of_mem_leading (namedSites_subset memS) (namedSites_subset memU)
      (isComment_eq_false statementS) (isComment_eq_false statementU) leadsS leadsU
    exact lt_irrefl _ less
  rw [← List.length_filterMap_eq_countP, List.countP_eq_length_filter]
  exact (List.subperm_of_subset different included).length_le

end Marks

end Site

namespace Facts

/-- Every statement is read with the comments before its site. Among the children of the parent of
an expression statement, named or not, these are the longest run of comments that ends where the
statement stands, in their order. A comment stands before one expression statement at most, and the
facts of the tree hold at most as many described routes as the tree has comments with the marker. -/
theorem ofParsed_describes {σ : Type} (reading : Reading)
    (resolve : Text → Text → StateM σ (Option Text)) (path : Text) (source : ByteArray) (t : Tree) :
    (t.statements source = List.reduceOption <$> t.namedSites.mapM fun s =>
        Statement.ofTree? source (s.leading.map (Site.comment source)) s.node) ∧
      (∀ s ∈ t.sites, s.isExpressionStatement = true →
        s = .root t ∧ s.leading = [] ∨
          ∃ p ∈ t.sites, ∃ rest later, p.allChildren = rest ++ s.leading ++ s :: later ∧
            (∀ c ∈ s.leading, c.node.isComment = true) ∧
              ∀ c ∈ rest.getLast?, c.node.isComment = false) ∧
      (∀ s ∈ t.sites, ∀ u ∈ t.sites, s.isExpressionStatement = true →
        u.isExpressionStatement = true → ∀ c ∈ s.leading, c ∈ u.leading → s = u) ∧
      ∀ (before after : σ) (f : Facts),
        (ofParsed reading resolve ⟨path, source, t⟩).run.run before = (.ok f, after) →
          f.describedRoutes ≤ t.sites.countP (Site.isMark source reading.marker) := by
  refine ⟨t.statements_eq source, ?_, ?_, ?_⟩
  · intro s mem _
    obtain rfl | ⟨p, memP, child⟩ := Site.eq_root_or_mem_allChildren mem
    · exact .inl ⟨rfl, Site.leading_root t⟩
    · exact .inr ⟨p, memP, Site.leading_spec child⟩
  · intro s memS u memU statementS statementU c leadsS leadsU
    have notComment {x : Site} := Site.isComment_eq_false (s := x)
    exact Site.eq_of_mem_leading memS memU (notComment statementS) (notComment statementU)
      leadsS leadsU
  · intro before after f made
    obtain ⟨ss, read, rfl⟩ := statements_of_run_ofParsed made
    have stated : Site.statements source t.namedSites = .ok ss := by
      rw [← t.statements_eq source]
      exact read
    calc _
        ≤ ss.countP (Statement.isMarked reading.marker) :=
          describedRoutes_ofStatements_le reading (resolve path) path ss before
      _ ≤ t.namedSites.countP fun s => (s.mark? source reading.marker).isSome :=
          Site.ensures_countP_isMarked t.namedSites ss stated
      _ ≤ t.sites.countP (Site.isMark source reading.marker) := Site.countP_mark?_le t

/-- The one comment of the script is the description of the one route in it. -/
theorem ofCommented_describes :
    let statement : Site :=
      ⟨[2], Tree.commentedTree.children.take 2, Tree.commentedTree.children[2]⟩
    let comment : Site :=
      ⟨[1], Tree.commentedTree.children.take 1, Tree.commentedTree.children[1]⟩
    statement ∈ Tree.commentedTree.sites ∧ statement.leading = [comment] ∧
      (∀ u ∈ Tree.commentedTree.sites, u.isExpressionStatement = true → comment ∈ u.leading →
        statement = u) ∧
      ∃ f, (ofCommented Tree.commentedTree).run.run () = (.ok f, ()) ∧ f.describedRoutes = 1 ∧
        f.describedRoutes ≤
          Tree.commentedTree.sites.countP (Site.isMark Tree.commentedSource "@desc") := by
  intro statement comment
  obtain ⟨-, -, once, bound⟩ := ofParsed_describes ⟨⟨"express", "Router"⟩, "@desc", true⟩
    (fun _ _ => (pure none : StateM Unit _)) "/p/app.js" Tree.commentedSource Tree.commentedTree
  have mem : statement ∈ Tree.commentedTree.sites := List.mem_of_getElem? (i := 13) rfl
  have leads : statement.leading = [comment] := rfl
  refine ⟨mem, leads, ?_, _, rfl, rfl, bound () () _ rfl⟩
  intro u memU statementU leadsU
  exact once statement mem u memU rfl statementU comment (leads ▸ List.mem_singleton_self _) leadsU

end Facts

end RouteAtlas
