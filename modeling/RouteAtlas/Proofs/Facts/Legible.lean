import RouteAtlas.Proofs.Code.Legible
import RouteAtlas.Proofs.Document.Listen
import RouteAtlas.Proofs.Facts.Stated

/-!
# Legible facts

What the facts of a file take from names and from comments holds no surrogate: the middlewares and
the descriptions. Methods are words of a fixed list. Only paths and server details come from string
literals.
-/

namespace RouteAtlas

/-- Nothing in the route but its path can hold a surrogate, as far as a page shows it. -/
structure Route.IsLegible (r : Route) : Prop where
  method : r.method ∈ CallSite.methods
  middleware : ∀ n ∈ r.middleware, n.HasNoSurrogate
  description : ∀ d ∈ r.description, d.HasNoSurrogate

/-- The middlewares and the routes of the facts are legible. -/
structure Facts.IsLegible (f : Facts) : Prop where
  globals : ∀ n ∈ f.globals, n.HasNoSurrogate
  routes : ∀ r ∈ f.routes, r.IsLegible

namespace Text

theorem dropFirst_subset (part t : Text) : dropFirst part t ⊆ t := by
  induction t with
  | nil => exact List.Subset.refl _
  | cons c r ih =>
      unfold dropFirst
      split
      · exact List.drop_subset ..
      · exact List.cons_subset_cons c ih

theorem strip_subset (t : Text) : t.strip ⊆ t := by
  intro c mem
  have kept := (List.dropWhile_sublist _).subset (List.mem_reverse.mp mem)
  exact (List.dropWhile_sublist _).subset (List.mem_reverse.mp kept)

end Text

namespace CallSite

variable {arguments : List Expr} {f : Facts}

theorem hasNoSurrogate_describe (marker : Text) {comments : List Text}
    (h : ∀ c ∈ comments, c.HasNoSurrogate) : ∀ d ∈ describe marker comments, d.HasNoSurrogate := by
  intro d described
  obtain ⟨c, found, rfl⟩ := Option.map_eq_some_iff.mp described
  have legible := h c (List.mem_of_find?_eq_some found)
  exact legible.of_subset (List.Subset.trans (Text.strip_subset _) (Text.dropFirst_subset ..))

theorem hasNoSurrogate_of_mem_names (h : ∀ a ∈ arguments, a.IsLegible) :
    ∀ n ∈ names arguments, n.HasNoSurrogate := by
  intro n mem
  obtain ⟨e, inArguments, isName⟩ := List.mem_filterMap.mp mem
  have legible := h e inArguments
  cases legible with
  | name h =>
      obtain rfl := Option.some.inj isName
      exact h
  | _ => cases isName

/-- What a legible expression states keeps the facts legible. -/
theorem isLegible_add (h : f.IsLegible) {reading : Reading} {table : BindingTable}
    {comments : List Text} {e : Expr} {fact : Fact} (hc : ∀ c ∈ comments, c.HasNoSurrogate)
    (he : e.IsLegible) (stated : States reading table comments e fact) :
    (f.add fact).IsLegible := by
  have middleware {n : Text} (legible : n.HasNoSurrogate) :
      (f.add (.middleware n)).IsLegible := by
    refine ⟨?_, h.routes⟩
    simpa [Facts.add, or_imp, forall_and] using ⟨h.globals, legible⟩
  obtain ⟨call⟩ := stated
  cases he with
  | call _ ha =>
      obtain ⟨-, -, shape⟩ | _ | ⟨-, known, rfl⟩ | ⟨-, -, -, shape⟩ := call
      · cases shape with
        | factory name inner =>
            cases ha _ List.mem_cons_self with
            | call callee _ =>
                cases callee with
                | name legible => exact middleware legible
        | function => exact middleware (by decide)
        | factoryAt => exact ⟨h.globals, h.routes⟩
      · exact ⟨h.globals, h.routes⟩
      · next method path handlers =>
          have later : ∀ a ∈ handlers.dropLast, a.IsLegible := fun a mem =>
            ha a (List.mem_cons_of_mem _ (List.dropLast_subset _ mem))
          refine ⟨h.globals, ?_⟩
          intro r mem
          obtain old | new := List.mem_append.mp mem
          · exact h.routes r old
          · obtain rfl := List.mem_singleton.mp new
            exact ⟨known, hasNoSurrogate_of_mem_names later, hasNoSurrogate_describe _ hc⟩
      · cases shape
        exact ⟨h.globals, h.routes⟩

end CallSite

namespace Facts

theorem isLegible_empty (file : Text) : (empty file).IsLegible :=
  ⟨fun _ mem => absurd mem List.not_mem_nil, fun _ mem => absurd mem List.not_mem_nil⟩

/-- A legible statement keeps the facts legible. -/
theorem Progress.isLegible_step (reading : Reading) {p : Progress} (h : p.facts.IsLegible)
    {s : Statement} (hs : s.IsLegible) : (step reading p s).facts.IsLegible := by
  cases s with
  | declaration _ | importing _ _ => exact h
  | expression comments e =>
      obtain ⟨hc, he⟩ := hs
      rw [step]
      obtain ⟨fact, stated, added⟩ | same :=
        CallSite.visit_cases reading p.table comments e p.facts
      · rw [added]
        exact CallSite.isLegible_add h hc he stated
      · rw [same]
        exact h

theorem Progress.isLegible_foldl_step (reading : Reading) {p : Progress} (h : p.facts.IsLegible)
    {ss : List Statement} (hs : Statement.AreLegible ss) :
    (ss.foldl (step reading) p).facts.IsLegible := by
  induction ss generalizing p with
  | nil => exact h
  | cons s rest ih =>
      obtain ⟨here, later⟩ := List.forall_mem_cons.mp hs
      exact ih (isLegible_step reading h here) later

/-- The facts are those of some parsed text, read with some settings in some file tree. -/
def IsExtract (f : Facts) : Prop :=
  ∃ reading d p memo after, (ofFile reading d p).run.run memo = (.ok f, after)

/-- Facts of a parsed text are legible, and their details are those of one call, if any. -/
theorem IsExtract.isLegible {f : Facts} (h : f.IsExtract) :
    f.IsLegible ∧
      ∃ calls : List ListenCall,
        f.details = (calls.getLast?.map (·.details.entries)).getD [] := by
  obtain ⟨reading, d, p, memo, after, made⟩ := h
  obtain ⟨ss, read, rfl⟩ := statements_of_run_ofParsed made
  have run := Progress.isLegible_foldl_step reading (p := ⟨.empty, .empty p.path⟩)
    (isLegible_empty p.path) (ParsedText.areLegible_of_statements read)
  refine ⟨⟨run.globals, run.routes⟩, listenCalls reading.framework [] ss, ?_⟩
  exact details_ofStatements reading _ p.path ss memo

end Facts

end RouteAtlas
