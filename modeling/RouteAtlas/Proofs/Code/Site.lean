import Mathlib.Data.List.DropRight
import Mathlib.Data.List.Lex
import Mathlib.Data.List.ReduceOption
import Mathlib.Logic.Relation
import RouteAtlas.Proofs.Code.Readable

/-!
# Nodes in their places

Two nodes of a tree can be equal as trees and still be different nodes. A site is a node together
with its place: its address from the root down and the siblings before it. The sites of a tree are
listed in pre-order; the statements of the tree are those of its named sites, one after the other,
where the comments of a site are the unbroken run of comments directly before it.
-/

namespace RouteAtlas

/-- A node in its place: which child of which child it is, from the root down, and the siblings
before it, named or not. -/
structure Site where
  address : List Nat
  before : List Tree
  node : Tree

namespace Site

/-- The root of a tree. -/
def root (t : Tree) : Site := ⟨[], [], t⟩

/-- Siblings in their places, given those before them. -/
def among (parent : List Nat) (before : List Tree) : List Tree → List Site
  | [] => []
  | t :: ts => ⟨parent ++ [before.length], before, t⟩ :: among parent (before ++ [t]) ts

/-- The children of a site that are entered. -/
def children (enter : Tree → Bool) (s : Site) : List Site :=
  (among s.address [] s.node.children).filter (enter ·.node)

end Site

mutual

/-- A node and what is entered below it, in pre-order. -/
def Tree.sitesAt (enter : Tree → Bool) (address : List Nat) (before : List Tree) :
    Tree → List Site
  | ⟨kind, named, role, start, stop, children⟩ =>
    ⟨address, before, ⟨kind, named, role, start, stop, children⟩⟩ ::
      Tree.sitesAmong enter address [] children

/-- Siblings that are entered and what is entered below them, in pre-order. -/
def Tree.sitesAmong (enter : Tree → Bool) (parent : List Nat) (before : List Tree) :
    List Tree → List Site
  | [] => []
  | t :: ts =>
    (if enter t then t.sitesAt enter (parent ++ [before.length]) before else []) ++
      Tree.sitesAmong enter parent (before ++ [t]) ts

end

/-- All nodes of a tree. -/
def Tree.sites (t : Tree) : List Site := t.sitesAt (fun _ => true) [] []

/-- The nodes that are reached from the root through named children. -/
def Tree.namedSites (t : Tree) : List Site := t.sitesAt (·.named) [] []

namespace Site

/-- A site and the sites below it, in pre-order. -/
def preorder (enter : Tree → Bool) (s : Site) : List Site := s.node.sitesAt enter s.address s.before

theorem sites_eq (t : Tree) : t.sites = (root t).preorder fun _ => true := rfl

theorem namedSites_eq (t : Tree) : t.namedSites = (root t).preorder (·.named) := rfl

/-! ## Siblings -/

section Siblings

variable (parent : List Nat)

theorem map_node_among (before ts : List Tree) : (among parent before ts).map (·.node) = ts := by
  induction ts generalizing before with
  | nil => rfl
  | cons t rest ih => rw [among, List.map_cons, ih]

theorem among_append (before ts us : List Tree) :
    among parent before (ts ++ us) =
      among parent before ts ++ among parent (before ++ ts) us := by
  induction ts generalizing before with
  | nil => simp [among]
  | cons t rest ih => simp [among, ih]

/-- A sibling's place is told by the siblings before it. -/
theorem mem_among_iff {before ts : List Tree} {c : Site} :
    c ∈ among parent before ts ↔
      ∃ earlier later, ts = earlier ++ c.node :: later ∧ c.before = before ++ earlier ∧
        c.address = parent ++ [c.before.length] := by
  constructor
  · intro h
    induction ts generalizing before with
    | nil => cases h
    | cons t rest ih =>
        obtain rfl | below := List.mem_cons.mp h
        · exact ⟨[], rest, rfl, by simp, rfl⟩
        · obtain ⟨earlier, later, split, place, address⟩ := ih below
          exact ⟨t :: earlier, later, by rw [split]; rfl, by simp [place], address⟩
  · rintro ⟨earlier, later, rfl, place, address⟩
    rw [among_append, among, ← place, ← address]
    exact List.mem_append_right _ List.mem_cons_self

theorem pairwise_among (before ts : List Tree) :
    (among parent before ts).Pairwise fun c d => c.before.length < d.before.length := by
  induction ts generalizing before with
  | nil => exact .nil
  | cons t rest ih =>
      refine .cons ?_ (ih _)
      intro d mem
      obtain ⟨earlier, later, -, place, -⟩ := (mem_among_iff parent).mp mem
      simp only [place, List.length_append, List.length_singleton]
      omega

end Siblings

/-! ## Pre-order -/

section Preorder

variable {enter : Tree → Bool}

theorem sitesAmong_eq (parent : List Nat) (before ts : List Tree) :
    Tree.sitesAmong enter parent before ts =
      ((among parent before ts).filter (enter ·.node)).flatMap (preorder enter) := by
  induction ts generalizing before with
  | nil => rfl
  | cons t rest ih =>
      rw [Tree.sitesAmong, ih, among]
      cases entered : enter t <;> simp [entered, preorder]

/-- A site comes first, and then come its children with what is below them, from left to right. -/
theorem preorder_eq (s : Site) :
    s.preorder enter = s :: (s.children enter).flatMap (preorder enter) := by
  obtain ⟨address, before, kind, named, role, start, stop, children⟩ := s
  rw [preorder, Tree.sitesAt, sitesAmong_eq]
  rfl

theorem mem_children_iff {s c : Site} :
    c ∈ s.children enter ↔
      enter c.node = true ∧ ∃ later, s.node.children = c.before ++ c.node :: later ∧
        c.address = s.address ++ [c.before.length] := by
  rw [children, List.mem_filter, mem_among_iff, and_comm]
  apply and_congr_right'
  constructor
  · rintro ⟨earlier, later, split, place, address⟩
    obtain rfl : c.before = earlier := place
    exact ⟨later, split, address⟩
  · rintro ⟨later, split, address⟩
    exact ⟨c.before, later, split, rfl, address⟩

theorem node_mem_children {s c : Site} (h : c ∈ s.children enter) : c.node ∈ s.node.children := by
  obtain ⟨-, later, split, -⟩ := mem_children_iff.mp h
  rw [split]
  exact List.mem_append_right _ List.mem_cons_self

/-- What holds of a site once it holds of its children holds of every site. -/
theorem induction {P : Site → Prop} (enter : Tree → Bool)
    (step : ∀ s : Site, (∀ c ∈ s.children enter, P c) → P s) (s : Site) : P s := by
  apply step
  intro c mem
  have smaller := Tree.sizeOf_lt_of_mem_children (node_mem_children mem)
  exact induction enter step c
termination_by sizeOf s.node

theorem self_mem_preorder (s : Site) : s ∈ s.preorder enter := by
  rw [preorder_eq]
  exact List.mem_cons_self

/-- The sites that are listed are those that can be reached from child to child. -/
theorem mem_preorder_iff {s u : Site} :
    u ∈ s.preorder enter ↔ Relation.ReflTransGen (fun p c => c ∈ p.children enter) s u := by
  constructor
  · induction s using induction enter with
    | step s ih =>
        intro mem
        rw [preorder_eq] at mem
        obtain rfl | below := List.mem_cons.mp mem
        · exact .refl
        · obtain ⟨c, child, below⟩ := List.mem_flatMap.mp below
          exact .head child (ih c child below)
  · intro reached
    induction reached using Relation.ReflTransGen.head_induction_on with
    | refl => exact self_mem_preorder u
    | head child _ ih =>
        rw [preorder_eq]
        exact List.mem_cons_of_mem _ (List.mem_flatMap.mpr ⟨_, child, ih⟩)

/-- Addresses lead on from the address of the node above. -/
theorem address_prefix {s u : Site} (h : u ∈ s.preorder enter) : s.address <+: u.address := by
  have reached := mem_preorder_iff.mp h
  induction reached with
  | refl => exact List.prefix_refl _
  | @tail p c reached child ih =>
      obtain ⟨-, later, -, address⟩ := mem_children_iff.mp child
      rw [address]
      exact (ih (mem_preorder_iff.mpr reached)).trans (List.prefix_append _ _)

/-- In pre-order addresses grow. So every site is listed once, and a node comes before what is
below it and before what is to the right of it. -/
theorem pairwise_preorder (s : Site) :
    (s.preorder enter).Pairwise fun u v => u.address < v.address := by
  induction s using induction enter with
  | step s ih =>
      have below {c u : Site} (child : c ∈ s.children enter) (h : u ∈ c.preorder enter) :
          ∃ rest, u.address = s.address ++ c.before.length :: rest := by
        obtain ⟨-, later, -, address⟩ := mem_children_iff.mp child
        obtain ⟨rest, same⟩ := address_prefix h
        exact ⟨rest, by rw [← same, address, List.append_assoc]; rfl⟩
      rw [preorder_eq]
      refine .cons ?_ (List.pairwise_flatMap.mpr ⟨ih, ?_⟩)
      · intro u mem
        obtain ⟨c, child, mem⟩ := List.mem_flatMap.mp mem
        obtain ⟨rest, address⟩ := below child mem
        have longer : s.address ++ [] < s.address ++ c.before.length :: rest :=
          List.append_left_lt (List.nil_lt_cons _ _)
        rwa [List.append_nil, ← address] at longer
      · have ordered : (s.children enter).Pairwise fun c d => c.before.length < d.before.length :=
          (pairwise_among _ _ _).filter _
        apply ordered.imp_of_mem
        intro c d childC childD less u memU v memV
        obtain ⟨restU, addressU⟩ := below childC memU
        obtain ⟨restV, addressV⟩ := below childD memV
        rw [addressU, addressV]
        exact List.append_left_lt (List.cons_lt_cons_iff.mpr (.inl less))

section Named

variable {t : Tree}

theorem mem_namedSites_iff {s : Site} :
    s ∈ t.namedSites ↔
      Relation.ReflTransGen (fun p c => c ∈ p.children (·.named)) (.root t) s := by
  rw [namedSites_eq, mem_preorder_iff]

theorem pairwise_namedSites : t.namedSites.Pairwise fun s u => s.address < u.address := by
  rw [namedSites_eq]
  exact pairwise_preorder _

end Named

end Preorder

/-! ## Comments and statements -/

/-- The siblings before a site, each in its place. -/
def earlier (s : Site) : List Site := among s.address.dropLast [] s.before

/-- The comments that lead up to a site: the longest run of comments that ends right before it. -/
def leading (s : Site) : List Site := s.earlier.rtakeWhile (·.node.isComment)

section Statements

variable (source : ByteArray)

/-- What the comment at a site says. -/
def comment (s : Site) : Text := Literal.comment (s.node.text source)

/-- The statement at a site, if there is one. -/
def statement? (s : Site) : Except LiteralError (Option Statement) :=
  Statement.ofTree? source (s.leading.map (comment source)) s.node

/-- The statements at some sites, one after the other. -/
def statements (ss : List Site) : Except LiteralError (List Statement) :=
  List.reduceOption <$> ss.mapM (statement? source)

theorem statements_cons (s : Site) (ss : List Site) : statements source (s :: ss) = (do
    let own ← s.statement? source
    let rest ← statements source ss
    return own.toList ++ rest) := by
  have join (own : Option Statement) (rest : List (Option Statement)) :
      List.reduceOption (own :: rest) = own.toList ++ List.reduceOption rest := by
    cases own <;> rfl
  simp [statements, join]

theorem statements_append (ss us : List Site) : statements source (ss ++ us) = (do
    let first ← statements source ss
    let rest ← statements source us
    return first ++ rest) := by
  simp [statements, List.mapM_append, List.reduceOption_append]

/-- The comments before the place that comes after some siblings. -/
def commentsAfter (parent : List Nat) (before : List Tree) : List Text :=
  ((among parent [] before).rtakeWhile (·.node.isComment)).map (comment source)

theorem map_comment_leading (parent : List Nat) (before : List Tree) (i : Nat) (t : Tree) :
    (leading ⟨parent ++ [i], before, t⟩).map (comment source) =
      commentsAfter source parent before := by
  rw [leading, earlier, List.dropLast_concat, commentsAfter]

/-- A comment makes the run before the next sibling longer, and everything else ends it. -/
theorem commentsAfter_concat (parent : List Nat) (before : List Tree) (t : Tree) :
    commentsAfter source parent (before ++ [t]) =
      if t.isComment then commentsAfter source parent before ++ [Literal.comment (t.text source)]
      else [] := by
  rw [commentsAfter, among_append, List.nil_append, among, among, List.rtakeWhile_concat]
  cases t.isComment with
  | true => simp [commentsAfter, comment]
  | false => simp

end Statements

end Site

section Statements

variable (source : ByteArray)

mutual

/-- The statements of a node are those of its own site and of the named sites below it. -/
theorem Tree.statementsAfter_eq (t : Tree) (address : List Nat) (before : List Tree) :
    t.statementsAfter source ((Site.leading ⟨address, before, t⟩).map (Site.comment source)) =
      Site.statements source (t.sitesAt (·.named) address before) := by
  obtain ⟨kind, named, role, start, stop, children⟩ := t
  have below := Tree.statementsAmong_eq children address []
  rw [Tree.sitesAt, Site.statements_cons, ← below]
  rfl

theorem Tree.statementsAmong_eq (ts : List Tree) (parent : List Nat) (before : List Tree) :
    Tree.statementsAmong source (Site.commentsAfter source parent before) ts =
      Site.statements source (Tree.sitesAmong (·.named) parent before ts) := by
  match ts with
  | [] => rfl
  | t :: rest =>
      have here := Tree.statementsAfter_eq t (parent ++ [before.length]) before
      have later := Tree.statementsAmong_eq rest parent (before ++ [t])
      rw [Site.map_comment_leading] at here
      rw [Site.commentsAfter_concat] at later
      rw [Tree.statementsAmong, Tree.sitesAmong, Site.statements_append, here, ← later]
      cases t.named <;> rfl

end

/-- The statements of a tree are those of its named sites in pre-order. -/
theorem Tree.statements_eq (t : Tree) :
    t.statements source = Site.statements source t.namedSites :=
  Tree.statementsAfter_eq source t [] []

end Statements

end RouteAtlas
