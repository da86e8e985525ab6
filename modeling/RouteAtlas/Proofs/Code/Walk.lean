import RouteAtlas.Proofs.Code.Site

/-!
# Walking a tree with a stack

The statements of a tree can be had by a loop instead of a recursion. A stack holds the nodes that
are still to be visited, the next one last. Each turn takes a node off the stack and puts its named
children on it, the first one last. What is left to visit is at any time the pre-order of the nodes
on the stack, from the last one to the first; a turn takes the head off that list, and so the loop
ends, after as many turns as there are nodes to visit.
-/

namespace RouteAtlas

namespace Site

variable (source : ByteArray) (s : Site)

/-- The statement at a site, if there is one and it can be read. -/
def stated? : Option Statement := (s.statement? source).toOption.join

/-- Why the statement at a site cannot be read. -/
def failure? : Option LiteralError :=
  match s.statement? source with
  | .error e => some e
  | .ok _ => none

end Site

/-- What a walk yields, site by site, and the failure that breaks it off, if there is one. -/
structure Walk where
  yielded : List (Site × Statement)
  failure : Option LiteralError

namespace Walk

/-- The statements of a walk that was not broken off. -/
def statements (w : Walk) : Except LiteralError (List Statement) :=
  match w.failure with
  | some e => .error e
  | none => .ok (w.yielded.map Prod.snd)

/-- All statements at a list of sites. -/
def yieldsOf (source : ByteArray) (ss : List Site) : List (Site × Statement) :=
  ss.filterMap fun s => (s.stated? source).map (s, ·)

/-- The walk that visits a list of sites, up to the first that cannot be read. -/
def through (source : ByteArray) (ss : List Site) : Walk where
  yielded := yieldsOf source (ss.takeWhile fun s => (s.failure? source).isNone)
  failure := ss.findSome? (Site.failure? source)

/-! ## The loop -/

/-- The site that is visited next, and the stack after its visit. -/
def turn (stack : List Site) : Option (Site × List Site) :=
  stack.getLast?.map fun s => (s, stack.dropLast ++ (s.children (·.named)).reverse)

/-- The sites that are left to visit. -/
def pending (stack : List Site) : List Site :=
  stack.reverse.flatMap (Site.preorder (·.named))

theorem turn_eq_none {stack : List Site} (h : turn stack = none) : pending stack = [] := by
  obtain rfl : stack = [] := by simpa [turn] using h
  rfl

/-- A turn visits the first of the sites that are left and leaves the others. -/
theorem pending_turn {stack next : List Site} {s : Site} (h : turn stack = some (s, next)) :
    pending stack = s :: pending next := by
  obtain ⟨top, last, same⟩ := Option.map_eq_some_iff.mp h
  obtain ⟨rfl, rfl⟩ := Prod.mk.inj same
  have split : stack = stack.dropLast ++ [top] := (List.dropLast_append_getLast? top last).symm
  calc pending stack
      = pending (stack.dropLast ++ [top]) := congrArg pending split
    _ = top.preorder (·.named) ++ pending stack.dropLast := by simp [pending]
    _ = top :: pending (stack.dropLast ++ (top.children (·.named)).reverse) := by
        rw [Site.preorder_eq]
        simp [pending]

/-- Visits what is on the stack until it is empty. -/
def run (source : ByteArray) (stack : List Site) : Walk :=
  match _h : turn stack with
  | none => ⟨[], none⟩
  | some (s, next) =>
    match s.statement? source with
    | .error e => ⟨[], some e⟩
    | .ok own =>
      let later := run source next
      ⟨(own.map (s, ·)).toList ++ later.yielded, later.failure⟩
termination_by (pending stack).length
decreasing_by simp [pending_turn _h]

variable (source : ByteArray)

theorem through_cons_error {s : Site} {e : LiteralError} (h : s.statement? source = .error e)
    (ss : List Site) : through source (s :: ss) = ⟨[], some e⟩ := by
  simp [through, yieldsOf, Site.failure?, h]

theorem through_cons_ok {s : Site} {own : Option Statement} (h : s.statement? source = .ok own)
    (ss : List Site) :
    through source (s :: ss) =
      ⟨(own.map (s, ·)).toList ++ (through source ss).yielded, (through source ss).failure⟩ := by
  have unread : s.failure? source = none := by simp [Site.failure?, h]
  have stated : s.stated? source = own := by simp [Site.stated?, h, Except.toOption]
  cases own <;> simp [through, yieldsOf, unread, stated]

/-- The loop visits the sites that are left, in their order. -/
theorem run_eq (stack : List Site) : run source stack = through source (pending stack) := by
  fun_induction run source stack with
  | case1 stack h => rw [turn_eq_none h]; rfl
  | case2 stack s next h e failed => rw [pending_turn h, through_cons_error source failed]
  | case3 stack s next h own read later ih =>
      rw [pending_turn h, through_cons_ok source read, ← ih]

/-- A walk through sites yields their statements. -/
theorem statements_through (ss : List Site) :
    (through source ss).statements = Site.statements source ss := by
  induction ss with
  | nil => rfl
  | cons s rest ih =>
      rw [Site.statements_cons, ← ih]
      cases read : s.statement? source with
      | error e =>
          rw [through_cons_error source read]
          rfl
      | ok own =>
          rw [through_cons_ok source read]
          cases failed : (through source rest).failure with
          | some e => simp [statements, failed, bind, Except.bind]
          | none => cases own <;> simp [statements, failed, bind, Except.bind, pure, Except.pure]

theorem yielded_of_failure_eq_none {ss : List Site} (h : (through source ss).failure = none) :
    (through source ss).yielded = yieldsOf source ss := by
  have all : ss.takeWhile (fun s => (s.failure? source).isNone) = ss := by
    rw [List.takeWhile_eq_self_iff]
    intro s mem
    exact Option.isNone_iff_eq_none.mpr (List.findSome?_eq_none_iff.mp h s mem)
  rw [through, all]

theorem map_fst_yieldsOf_sublist (ss : List Site) :
    ((yieldsOf source ss).map Prod.fst).Sublist ss := by
  induction ss with
  | nil => exact .slnil
  | cons s rest ih =>
      cases stated : s.stated? source with
      | none => simpa [yieldsOf, stated] using ih.cons s
      | some own => simpa [yieldsOf, stated] using ih.cons_cons s

end Walk

/-! ## Spans -/

mutual

/-- In every node the children stand one after the other inside the span of the node. -/
def Tree.isNested : Tree → Bool
  | ⟨_, _, _, start, stop, children⟩ => Tree.areNested start stop children

/-- The nodes stand one after the other between two positions, and so does what is below them. -/
def Tree.areNested (start stop : Nat) : List Tree → Bool
  | [] => true
  | t :: ts =>
    start ≤ t.start && t.start ≤ t.stop && t.stop ≤ stop && t.isNested &&
      Tree.areNested t.stop stop ts

end

theorem Tree.areNested_iff {start stop : Nat} {ts : List Tree} :
    areNested start stop ts = true ↔
      (∀ t ∈ ts, start ≤ t.start ∧ t.start ≤ t.stop ∧ t.stop ≤ stop ∧ t.isNested = true) ∧
        ts.Pairwise (fun t u => t.stop ≤ u.start) := by
  induction ts generalizing start with
  | nil => simp [areNested]
  | cons t rest ih =>
      simp only [areNested, Bool.and_eq_true, decide_eq_true_eq, ih, List.forall_mem_cons,
        List.pairwise_cons]
      constructor
      · rintro ⟨⟨⟨⟨above, forward⟩, below⟩, nested⟩, later, ordered⟩
        refine ⟨⟨⟨above, forward, below, nested⟩, ?_⟩, fun u mem => (later u mem).1, ordered⟩
        intro u mem
        obtain ⟨after, rest⟩ := later u mem
        exact ⟨above.trans (forward.trans after), rest⟩
      · rintro ⟨⟨⟨above, forward, below, nested⟩, later⟩, after, ordered⟩
        refine ⟨⟨⟨⟨above, forward⟩, below⟩, nested⟩, ?_, ordered⟩
        intro u mem
        exact ⟨after u mem, (later u mem).2⟩

theorem Tree.isNested_iff {t : Tree} :
    t.isNested = true ↔
      (∀ c ∈ t.children,
        t.start ≤ c.start ∧ c.start ≤ c.stop ∧ c.stop ≤ t.stop ∧ c.isNested = true) ∧
        t.children.Pairwise (fun c d => c.stop ≤ d.start) := by
  obtain ⟨kind, named, role, start, stop, children⟩ := t
  exact areNested_iff

namespace Site

variable {enter : Tree → Bool}

/-- What is below a node starts inside its span. -/
theorem start_mem_span {s u : Site} (nested : s.node.isNested = true)
    (forward : s.node.start ≤ s.node.stop) (h : u ∈ s.preorder enter) :
    s.node.start ≤ u.node.start ∧ u.node.start ≤ s.node.stop := by
  induction s using induction enter with
  | step s ih =>
      rw [preorder_eq] at h
      obtain rfl | below := List.mem_cons.mp h
      · exact ⟨Nat.le_refl _, forward⟩
      · obtain ⟨c, child, below⟩ := List.mem_flatMap.mp below
        obtain ⟨fromStart, forward, toStop, nested⟩ :=
          (Tree.isNested_iff.mp nested).1 c.node (node_mem_children child)
        obtain ⟨after, before⟩ := ih c child nested forward below
        exact ⟨fromStart.trans after, before.trans toStop⟩

/-- In pre-order the starts of the nodes never decrease. -/
theorem pairwise_start_preorder {s : Site} (nested : s.node.isNested = true) :
    (s.preorder enter).Pairwise fun u v => u.node.start ≤ v.node.start := by
  induction s using induction enter with
  | step s ih =>
      obtain ⟨inside, ordered⟩ := Tree.isNested_iff.mp nested
      have within {c : Site} (child : c ∈ s.children enter) := inside _ (node_mem_children child)
      rw [preorder_eq]
      refine .cons ?_ (List.pairwise_flatMap.mpr ⟨?_, ?_⟩)
      · intro u mem
        obtain ⟨c, child, mem⟩ := List.mem_flatMap.mp mem
        obtain ⟨fromStart, forward, -, nested⟩ := within child
        exact fromStart.trans (start_mem_span nested forward mem).1
      · intro c child
        exact ih c child (within child).2.2.2
      · rw [← map_node_among s.address [] s.node.children, List.pairwise_map] at ordered
        have siblings : (s.children enter).Pairwise fun c d => c.node.stop ≤ d.node.start :=
          ordered.filter _
        apply siblings.imp_of_mem
        intro c d childC childD disjoint u memU v memV
        obtain ⟨-, forwardC, -, nestedC⟩ := within childC
        obtain ⟨-, forwardD, -, nestedD⟩ := within childD
        calc u.node.start
            ≤ c.node.stop := (start_mem_span nestedC forwardC memU).2
          _ ≤ d.node.start := disjoint
          _ ≤ v.node.start := (start_mem_span nestedD forwardD memV).1

end Site

namespace Walk

/-- The loop, started at the root of any tree, ends. It visits every node that can be reached from
the root through named children, in pre-order, which is the order of their addresses, and so visits
none twice. It yields their statements one after the other, as the recursion over the tree does; a
node that cannot be read breaks off both. If every node holds its children one after the other
inside its span, the nodes with a statement are met in the order of their starts. -/
theorem run_root (source : ByteArray) (t : Tree) :
    let walk := run source [.root t]
    let visited := t.namedSites
    (walk = through source visited ∧ walk.statements = t.statements source) ∧
      (walk.failure = none → walk.yielded = yieldsOf source visited) ∧
      (∀ s, s ∈ visited ↔
        Relation.ReflTransGen (fun p c => c ∈ p.children (·.named)) (.root t) s) ∧
      visited.Pairwise (fun s u => s.address < u.address) ∧
      (t.isNested = true → (walk.yielded.map (·.1.node.start)).Pairwise (· ≤ ·)) := by
  intro walk visited
  have same : walk = through source visited := by
    have pending_root : pending [.root t] = visited := List.append_nil _
    rw [← pending_root]
    exact run_eq source [.root t]
  refine ⟨⟨same, ?_⟩, ?_, fun s => Site.mem_namedSites_iff, Site.pairwise_namedSites, ?_⟩
  · rw [same, statements_through, Tree.statements_eq]
  · rw [same]
    exact yielded_of_failure_eq_none source
  · intro nested
    have starts : t.namedSites.Pairwise fun s u => s.node.start ≤ u.node.start := by
      rw [Site.namedSites_eq]
      exact Site.pairwise_start_preorder nested
    have sites : (walk.yielded.map Prod.fst).Sublist visited := by
      rw [same]
      exact (map_fst_yieldsOf_sublist source _).trans (List.takeWhile_sublist _)
    have ordered := starts.sublist sites
    rw [List.pairwise_map] at ordered
    exact List.pairwise_map.mpr ordered

/-- A script where one call stands in a function that is handed to another call. -/
def nestedSource : ByteArray := "f(() => \x7b g(); \x7d); h();".toUTF8

def nestedTree : Tree :=
  let node (kind : String) (start stop : Nat) (children : List Tree) : Tree :=
    ⟨kind, true, none, start, stop, children⟩
  let token (kind : String) (start stop : Nat) : Tree := ⟨kind, false, none, start, stop, []⟩
  let callee (start stop : Nat) : Tree := ⟨"identifier", true, some "function", start, stop, []⟩
  let arguments (start stop : Nat) (children : List Tree) : Tree :=
    ⟨"arguments", true, some "arguments", start, stop, children⟩
  let bare (start stop : Nat) : Tree :=
    node "expression_statement" start stop [
      node "call_expression" start (stop - 1) [callee start (start + 1),
        arguments (start + 1) (stop - 1) [
          token "(" (start + 1) (start + 2), token ")" (start + 2) (stop - 1)]],
      token ";" (stop - 1) stop]
  let function : Tree := node "arrow_function" 2 16 [
    node "formal_parameters" 2 4 [token "(" 2 3, token ")" 3 4], token "=>" 5 7,
    node "statement_block" 8 16 [token "\x7b" 8 9, bare 10 14, token "\x7d" 15 16]]
  node "program" 0 23 [
    node "expression_statement" 0 18 [
      node "call_expression" 0 17 [callee 0 1,
        arguments 1 17 [token "(" 1 2, function, token ")" 16 17]],
      token ";" 17 18],
    bare 19 23]

/-- The inner call comes after the statement that it is part of and before the one after that. -/
theorem run_nestedTree :
    let walk := run nestedSource [.root nestedTree]
    nestedTree.isNested = true ∧ walk.failure = none ∧
      walk.yielded = yieldsOf nestedSource nestedTree.namedSites ∧
      walk.yielded.map (·.1.node.start) = [0, 10, 19] ∧
      (walk.yielded.map (·.1.node.start)).Pairwise (· ≤ ·) := by
  obtain ⟨⟨same, -⟩, yields, -, -, ordered⟩ := run_root nestedSource nestedTree
  have nested : nestedTree.isNested = true := by rfl
  have finished : (run nestedSource [.root nestedTree]).failure = none := by
    rw [same]
    rfl
  refine ⟨nested, finished, yields finished, ?_, ordered nested⟩
  rw [same]
  rfl

end Walk

end RouteAtlas
