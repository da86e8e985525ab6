import Mathlib.Data.List.Nodup
import RouteAtlas.Proofs.Code.Site

/-!
# Which statement a comment leads up to

The comments before a statement are its siblings. Seen from one of these comments, the statement is
the first later sibling that is no comment. So the comment leads up to this statement and to no
other one, wherever in the tree the other one stands.
-/

namespace RouteAtlas

namespace Site

/-- The children of a site, named or not. -/
def allChildren (s : Site) : List Site := s.children fun _ => true

theorem allChildren_eq (s : Site) : s.allChildren = among s.address [] s.node.children := by
  simp [allChildren, children]

/-! ## The sites of one tree -/

section OneTree

variable {t : Tree}

theorem mem_sites_iff {s : Site} :
    s ∈ t.sites ↔ Relation.ReflTransGen (fun p c => c ∈ p.allChildren) (.root t) s := by
  rw [sites_eq, mem_preorder_iff]
  rfl

theorem pairwise_sites : t.sites.Pairwise fun s u => s.address < u.address := by
  rw [sites_eq]
  exact pairwise_preorder _

theorem allChildren_subset {p : Site} (mem : p ∈ t.sites) : p.allChildren ⊆ t.sites := by
  intro c child
  apply mem_sites_iff.mpr
  exact (mem_sites_iff.mp mem).tail child

/-- Below the root every site is a child of a site. -/
theorem eq_root_or_mem_allChildren {s : Site} (mem : s ∈ t.sites) :
    s = .root t ∨ ∃ p ∈ t.sites, s ∈ p.allChildren := by
  obtain same | ⟨p, reached, child⟩ := (mem_sites_iff.mp mem).cases_tail
  · exact .inl same
  · exact .inr ⟨p, mem_sites_iff.mpr reached, child⟩

theorem namedSites_subset : t.namedSites ⊆ t.sites := by
  have wider : (fun p c => c ∈ p.children (·.named)) ≤ fun p c : Site => c ∈ p.allChildren := by
    intro p c child
    exact mem_children_iff.mpr ⟨rfl, (mem_children_iff.mp child).2⟩
  intro s mem
  exact mem_sites_iff.mpr (Relation.ReflTransGen.mono wider _ _ (mem_namedSites_iff.mp mem))

/-- A site of a tree is told by its address. -/
theorem eq_of_address_eq {s u : Site} (memS : s ∈ t.sites) (memU : u ∈ t.sites)
    (same : s.address = u.address) : s = u := by
  have different : (t.sites.map address).Nodup := by
    apply List.pairwise_map.mpr
    exact pairwise_sites.imp fun less => ne_of_lt less
  exact List.inj_on_of_nodup_map different memS memU same

/-- No site is a child of two sites. -/
theorem parent_unique {p q c : Site} (memP : p ∈ t.sites) (memQ : q ∈ t.sites)
    (childP : c ∈ p.allChildren) (childQ : c ∈ q.allChildren) : p = q := by
  obtain ⟨-, -, -, fromP⟩ := mem_children_iff.mp childP
  obtain ⟨-, -, -, fromQ⟩ := mem_children_iff.mp childQ
  apply eq_of_address_eq memP memQ
  exact List.append_cancel_right (fromP.symm.trans fromQ)

end OneTree

/-! ## Siblings -/

theorem nodup_allChildren (p : Site) : p.allChildren.Nodup := by
  rw [allChildren_eq]
  apply (pairwise_among _ _ _).imp
  intro c d less same
  exact absurd (congrArg (·.before.length) same) (ne_of_lt less)

/-- What is before a site among its siblings comes before it among the children of its parent. -/
theorem allChildren_split {p s : Site} (child : s ∈ p.allChildren) :
    ∃ later, p.allChildren = s.earlier ++ s :: later := by
  obtain ⟨-, later, split, address⟩ := mem_children_iff.mp child
  refine ⟨among p.address (s.before ++ [s.node]) later, ?_⟩
  rw [allChildren_eq, split, among_append, List.nil_append, among, earlier, address,
    List.dropLast_concat, ← address]

theorem isComment_of_mem_leading {s c : Site} (h : c ∈ s.leading) : c.node.isComment = true :=
  List.mem_rtakeWhile_imp (p := fun x : Site => x.node.isComment) h

section Run

variable {p s : Site}

/-- The comments before a site are comments, they run up to it, and the run starts after a sibling
that is no comment or with the first of all siblings. -/
theorem leading_spec (child : s ∈ p.allChildren) :
    ∃ rest later, p.allChildren = rest ++ s.leading ++ s :: later ∧
      (∀ c ∈ s.leading, c.node.isComment = true) ∧
        ∀ c ∈ rest.getLast?, c.node.isComment = false := by
  obtain ⟨later, split⟩ := allChildren_split child
  refine ⟨s.earlier.rdropWhile (·.node.isComment), later, ?_, ?_, ?_⟩
  · rw [leading, List.rdropWhile_append_rtakeWhile, split]
  · intro c mem
    exact isComment_of_mem_leading mem
  · intro c last
    obtain ⟨nonempty, rfl⟩ := List.mem_getLast?_eq_getLast last
    have stops := List.rdropWhile_last_not (·.node.isComment) s.earlier nonempty
    exact Bool.eq_false_iff.mpr stops

/-- After a comment that leads up to a statement, the statement is the first sibling that is no
comment. -/
theorem find?_after_leading {c : Site} (child : s ∈ p.allChildren)
    (statement : s.node.isComment = false) (h : c ∈ s.leading) :
    ∃ before after, p.allChildren = before ++ c :: after ∧
      after.find? (fun x => !x.node.isComment) = some s := by
  obtain ⟨rest, later, split, comments, -⟩ := leading_spec child
  obtain ⟨first, last, run⟩ := List.append_of_mem h
  refine ⟨rest ++ first, last ++ s :: later, ?_, ?_⟩
  · rw [split, run]
    simp
  · have passed : last.find? (fun x => !x.node.isComment) = none := by
      apply List.find?_eq_none.mpr
      intro x mem
      have comment := comments x (run ▸ List.mem_append_right _ (List.mem_cons_of_mem _ mem))
      simp [comment]
    rw [List.find?_append, passed, Option.none_or]
    exact List.find?_cons_of_pos (by simp [statement])

theorem leading_subset_allChildren (child : s ∈ p.allChildren) : s.leading ⊆ p.allChildren := by
  obtain ⟨rest, later, split, -, -⟩ := leading_spec child
  intro c mem
  rw [split]
  exact List.mem_append_left _ (List.mem_append_right _ mem)

end Run

theorem leading_root (t : Tree) : (root t).leading = [] := rfl

/-! ## One comment, one statement -/

section OneStatement

variable {t : Tree} {s : Site}

/-- A site with a comment before it has a parent, and the comment is a sibling. -/
theorem mem_allChildren_of_mem_leading {c : Site} (mem : s ∈ t.sites) (h : c ∈ s.leading) :
    ∃ p ∈ t.sites, s ∈ p.allChildren ∧ c ∈ p.allChildren := by
  obtain rfl | ⟨p, memP, child⟩ := eq_root_or_mem_allChildren mem
  · rw [leading_root] at h
    cases h
  · exact ⟨p, memP, child, leading_subset_allChildren child h⟩

theorem leading_subset_sites (mem : s ∈ t.sites) : s.leading ⊆ t.sites := by
  intro c h
  obtain ⟨p, memP, -, sibling⟩ := mem_allChildren_of_mem_leading mem h
  exact allChildren_subset memP sibling

/-- A comment leads up to one statement at most. -/
theorem eq_of_mem_leading {u c : Site} (memS : s ∈ t.sites) (memU : u ∈ t.sites)
    (statementS : s.node.isComment = false) (statementU : u.node.isComment = false)
    (h : c ∈ s.leading) (k : c ∈ u.leading) : s = u := by
  obtain ⟨p, memP, childS, siblingS⟩ := mem_allChildren_of_mem_leading memS h
  obtain ⟨q, memQ, childU, siblingU⟩ := mem_allChildren_of_mem_leading memU k
  obtain rfl := parent_unique memP memQ siblingS siblingU
  -- the comment stands at one place among the siblings, and what comes next is told from there
  obtain ⟨before, after, split, next⟩ := find?_after_leading childS statementS h
  obtain ⟨before', after', split', next'⟩ := find?_after_leading childU statementU k
  have once := p.nodup_allChildren
  rw [split, List.nodup_middle, List.nodup_cons, List.mem_append, not_or] at once
  obtain ⟨⟨notBefore, notAfter⟩, -⟩ := once
  obtain ⟨-, -, rfl⟩ :=
    (List.append_cons_inj_of_notMem notBefore notAfter).mp (split.symm.trans split')
  exact Option.some.inj (next.symm.trans next')

end OneStatement

end Site

end RouteAtlas
