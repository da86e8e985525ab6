import Mathlib.Data.List.Nodup
import Mathlib.Data.List.Perm.Subperm
import RouteAtlas.Disk.Real
import RouteAtlas.Proofs.Disk.Follow
import RouteAtlas.Proofs.Disk.Path

/-!
# The real place of a path

Resolving names gives the place that following them leads to (`Follows.resolves`). The search
never meets a link inside itself, since a link costs more than what it leads over, and it never runs
out of links to enter, since the links it is inside are different ones. So every path that leads to
a folder has a real place, and that folder is there (`exists_realPlace`).
-/

namespace RouteAtlas

namespace Entry

mutual

/-- The chains of names of the links at and below an entry, outermost first. -/
def linkPaths : Entry → List (List Text)
  | .file _ => []
  | .link _ => [[]]
  | .folder es => linkPathsAmong es

/-- The chains of names of the links among some entries and below them. -/
def linkPathsAmong : List (Text × Entry) → List (List Text)
  | [] => []
  | (n, e) :: rest => (linkPaths e).map (n :: ·) ++ linkPathsAmong rest

end

mutual

theorem length_linkPaths : (e : Entry) → e.linkPaths.length = e.linkCount
  | .file _ => rfl
  | .link _ => rfl
  | .folder es => length_linkPathsAmong es

theorem length_linkPathsAmong :
    (es : List (Text × Entry)) → (linkPathsAmong es).length = linkCountAmong es
  | [] => rfl
  | (n, e) :: rest => by
      rw [linkPathsAmong, linkCountAmong, List.length_append, List.length_map, length_linkPaths e,
        length_linkPathsAmong rest]

end

theorem mem_linkPathsAmong {n : Text} {e : Entry} {ns : List Text} {es : List (Text × Entry)}
    (mem : (n, e) ∈ es) (below : ns ∈ e.linkPaths) : n :: ns ∈ linkPathsAmong es := by
  induction es with
  | nil => simp at mem
  | cons first rest ih =>
      obtain ⟨k, f⟩ := first
      rw [linkPathsAmong, List.mem_append]
      rcases List.mem_cons.mp mem with same | later
      · obtain ⟨rfl, rfl⟩ := Prod.mk.inj same
        exact .inl (List.mem_map_of_mem below)
      · exact .inr (ih later)

theorem mem_linkPaths {ns : List Text} {e : Entry} {target : Text}
    (h : at? ns e = some (.link target)) : ns ∈ e.linkPaths := by
  induction ns generalizing e with
  | nil =>
      obtain rfl := Option.some.inj h
      exact List.mem_singleton_self _
  | cons n ns ih =>
      obtain ⟨f, found, below⟩ := Option.bind_eq_some_iff.mp h
      cases e with
      | file bytes => simp [entries, among] at found
      | link target => simp [entries, among] at found
      | folder es => exact mem_linkPathsAmong (mem_of_among found) (ih below)

end Entry

namespace Disk

variable {d : Disk}

/-- Different links are no more than there are. -/
theorem length_le_linkCount {links : List Place} (distinct : links.Nodup)
    (areLinks : ∀ l ∈ links, ∃ target, d.entryAt? l = some (.link target)) :
    links.length ≤ Entry.linkCountAmong d.entries := by
  have among : links.map List.reverse ⊆ d.root.linkPaths := by
    intro ns mem
    obtain ⟨l, inLinks, rfl⟩ := List.mem_map.mp mem
    obtain ⟨target, isLink⟩ := areLinks l inLinks
    exact Entry.mem_linkPaths isLink
  have different : (links.map List.reverse).Nodup := List.Nodup.map List.reverse_injective distinct
  calc links.length = (links.map List.reverse).length := (List.length_map _).symm
    _ ≤ d.root.linkPaths.length := (different.subperm among).length_le
    _ = Entry.linkCountAmong d.entries := Entry.length_linkPaths d.root

theorem isLinkFree_of_linkCount (none : Entry.linkCountAmong d.entries = 0) : d.IsLinkFree := by
  intro p target isLink
  have few := length_le_linkCount (List.nodup_singleton p) fun l mem =>
    ⟨target, List.mem_singleton.mp mem ▸ isLink⟩
  rw [none] at few
  exact absurd few (by simp)

/-- The link at a place can be followed, over `k` links after it. -/
def FollowsLink (d : Disk) (k : Nat) : Place → Prop
  | [] => False
  | name :: folder =>
    ∃ target mid, d.entryAt? (name :: folder) = some (.link target) ∧
      d.Follows k (linkStart folder target) (Text.splitAt slash target) mid

theorem FollowsLink.isLink {k : Nat} {l : Place} (h : d.FollowsLink k l) :
    ∃ target, d.entryAt? l = some (.link target) := by
  cases l with
  | nil => exact h.elim
  | cons name folder =>
      obtain ⟨target, mid, isLink, -⟩ := h
      exact ⟨target, isLink⟩

theorem FollowsLink.unique {k m : Nat} {l : Place} (h : d.FollowsLink k l)
    (h' : d.FollowsLink m l) :
    k = m := by
  cases l with
  | nil => exact h.elim
  | cons name folder =>
      obtain ⟨target, mid, isLink, through⟩ := h
      obtain ⟨target', mid', isLink', through'⟩ := h'
      obtain ⟨rfl⟩ := Entry.link.inj (Option.some.inj (isLink.symm.trans isLink'))
      exact (through.unique through').1

/-- A search inside some links is safe for names that lead over `n` links: `more` links can still be
entered, and none of those it is inside is among the `n`. -/
structure Safe (d : Disk) (more : Nat) (inside : List Place) (n : Nat) : Prop where
  room : Entry.linkCountAmong d.entries < more + inside.length
  distinct : (inside.map (List.map Name.respell)).Nodup
  follows : ∀ l ∈ inside, ∃ k, n ≤ k ∧ d.FollowsLink k (l.map Name.respell)

section Safe

variable {more n m : Nat} {inside : List Place}

theorem Safe.mono (h : d.Safe more inside n) (le : m ≤ n) : d.Safe more inside m where
  room := h.room
  distinct := h.distinct
  follows l mem := by
    obtain ⟨k, least, follows⟩ := h.follows l mem
    exact ⟨k, Nat.le_trans le least, follows⟩

theorem Safe.exists_more (h : d.Safe more inside n) : ∃ rest, more = rest + 1 := by
  refine Nat.exists_eq_succ_of_ne_zero ?_
  rintro rfl
  have few := length_le_linkCount (d := d) h.distinct (by
    intro l mem
    obtain ⟨l, inInside, rfl⟩ := List.mem_map.mp mem
    obtain ⟨k, -, follows⟩ := h.follows l inInside
    exact follows.isLink)
  have room := h.room
  rw [List.length_map] at few
  omega

/-- A link on the way is none of those the search is inside. -/
theorem Safe.not_mem (h : d.Safe more inside n) {k : Nat} {l : Place}
    (follows : d.FollowsLink k (l.map Name.respell)) (less : k < n) :
    l.map Name.respell ∉ inside.map (List.map Name.respell) := by
  intro mem
  obtain ⟨l', inInside, same⟩ := List.mem_map.mp mem
  obtain ⟨k', least, follows'⟩ := h.follows l' inInside
  rw [same] at follows'
  have := follows.unique follows'
  omega

theorem Safe.enter (h : d.Safe (more + 1) inside n) {k : Nat} {l : Place}
    (follows : d.FollowsLink k (l.map Name.respell)) (less : k < n) :
    d.Safe more (l :: inside) k where
  room := by
    have room := h.room
    rw [List.length_cons]
    omega
  distinct := List.nodup_cons.mpr ⟨h.not_mem follows less, h.distinct⟩
  follows :=
    List.forall_mem_cons.mpr ⟨⟨k, Nat.le_refl k, follows⟩, (h.mono (Nat.le_of_lt less)).follows⟩

end Safe

/-- Names resolve to the place, however they are spelled, and in the same way in every search that
may follow so many links. -/
def Resolves (d : Disk) (n : Nat) (here : Place) (names : List Text) (p : Place) : Prop :=
  ∀ there spelled, there.map Name.respell = here → spelled.map Name.respell = names →
    ∃ q, q.map Name.respell = p ∧
      ∀ more inside, d.Safe more inside n → d.resolveFrom more inside there spelled = ⟨q, true⟩

namespace Resolves

variable {d : Disk} {n k : Nat} {here mid p : Place} {name target : Text} {names : List Text}

theorem done (here : Place) : d.Resolves 0 here [] here := by
  intro there spelled start same
  obtain rfl := List.map_eq_nil_iff.mp same
  refine ⟨there, start, ?_⟩
  intro more inside safe
  obtain ⟨rest, rfl⟩ := safe.exists_more
  rfl

theorem stay (dot : name = [] ∨ name = Text.ofString ".") (next : d.Resolves n here names p) :
    d.Resolves n here (name :: names) p := by
  intro there spelled start same
  obtain ⟨a, as, rfl, rfl, rfl⟩ := List.map_eq_cons_iff.mp same
  obtain ⟨q, place, resolves⟩ := next there as start rfl
  refine ⟨q, place, ?_⟩
  intro more inside safe
  obtain ⟨rest, rfl⟩ := safe.exists_more
  rw [resolveFrom, resolveWith, if_pos (Name.respell_stays_iff.mp dot)]
  exact resolves _ _ safe

theorem up (next : d.Resolves n here.tail names p) :
    d.Resolves n here (Text.ofString ".." :: names) p := by
  intro there spelled start same
  obtain ⟨a, as, rfl, dots, rfl⟩ := List.map_eq_cons_iff.mp same
  obtain rfl := (Name.respell_eq_iff_of_ascii (by decide)).mp dots
  have startTail : there.tail.map Name.respell = here.tail := by rw [← start, List.map_tail]
  obtain ⟨q, place, resolves⟩ := next there.tail as startTail rfl
  refine ⟨q, place, ?_⟩
  intro more inside safe
  obtain ⟨rest, rfl⟩ := safe.exists_more
  rw [resolveFrom, resolveWith, if_neg (by decide), if_pos rfl]
  exact resolves _ _ safe

theorem enter {e : Entry} (plain : Name.IsPlain name) (found : d.entryAt? (name :: here) = some e)
    (direct : ¬ e.IsLink) (next : d.Resolves n (name :: here) names p) :
    d.Resolves n here (name :: names) p := by
  intro there spelled start same
  obtain ⟨a, as, rfl, rfl, rfl⟩ := List.map_eq_cons_iff.mp same
  have plainSpelled := Name.isPlain_respell_iff.mp plain
  have below : (a :: there).map Name.respell = Name.respell a :: here := by
    rw [List.map_cons, start]
  obtain ⟨q, place, resolves⟩ := next (a :: there) as below rfl
  refine ⟨q, place, ?_⟩
  intro more inside safe
  obtain ⟨rest, rfl⟩ := safe.exists_more
  rw [resolveFrom, resolveWith, if_neg plainSpelled.1, if_neg plainSpelled.2, below, found]
  cases e with
  | link target => exact absurd ⟨target, rfl⟩ direct
  | file bytes => exact resolves _ _ safe
  | folder es => exact resolves _ _ safe

/-- A link costs one more than what it leads over, so no safe search for its target is inside it. -/
theorem link (wf : d.WellFormed) (plain : Name.IsPlain name)
    (found : d.entryAt? (name :: here) = some (.link target))
    (through : d.Follows k (linkStart here target) (Text.splitAt slash target) mid)
    (enters : d.Resolves k (linkStart here target) (Text.splitAt slash target) mid)
    (next : d.Resolves n mid names p) : d.Resolves (k + n + 1) here (name :: names) p := by
  intro there spelled start same
  obtain ⟨a, as, rfl, rfl, rfl⟩ := List.map_eq_cons_iff.mp same
  have plainSpelled := Name.isPlain_respell_iff.mp plain
  have linkPlace : (a :: there).map Name.respell = Name.respell a :: here := by
    rw [List.map_cons, start]
  have follows : d.FollowsLink k ((a :: there).map Name.respell) := by
    rw [linkPlace]
    exact ⟨target, mid, found, through⟩
  have targetStart : (if target.head? = some slash then [] else there).map Name.respell =
      linkStart here target := by
    unfold linkStart
    split
    · rfl
    · exact start
  have targetSpelled :
      (Text.splitAt slash target).map Name.respell = Text.splitAt slash target := by
    rw [List.map_congr_left (through.spelled wf), List.map_id']
  obtain ⟨mid', placeMid, resolvesTarget⟩ := enters _ _ targetStart targetSpelled
  obtain ⟨q, place, resolves⟩ := next mid' as placeMid rfl
  refine ⟨q, place, ?_⟩
  intro more inside safe
  obtain ⟨rest, rfl⟩ := safe.exists_more
  have notInside : a :: there ∉ inside := fun mem =>
    safe.not_mem follows (by omega) (List.mem_map_of_mem mem)
  rw [resolveFrom, resolveWith, if_neg plainSpelled.1, if_neg plainSpelled.2, linkPlace, found]
  simp only [if_neg notInside, resolvesTarget _ _ (safe.enter follows (by omega)), if_true]
  exact resolves _ _ (safe.mono (by omega))

end Resolves

/-- Names resolve to the place that they lead to. -/
theorem Follows.resolves (wf : d.WellFormed) {n : Nat} {here p : Place} {names : List Text}
    (h : d.Follows n here names p) : d.Resolves n here names p := by
  induction h with
  | done here => exact .done here
  | stay dot next ih => exact .stay dot ih
  | up next ih => exact .up ih
  | enter plain found direct next ih => exact .enter plain found direct ih
  | link plain found through next ihThrough ihNext =>
      exact .link wf plain found through ihThrough ihNext

/-- The place in which a path begins. -/
def startOf (d : Disk) (p : Path) : Place := if p.isAbsolute then [] else d.current

/-- A path that leads to something has a real place, and the same thing is there. Every search that
can enter enough links finds it. -/
theorem exists_realPlace (wf : d.WellFormed) {p : Path} (proper : p.IsProper) {e : Entry}
    (h : d.entry p.toText = .ok e) (direct : ¬ e.IsLink) :
    ∃ top, d.realPlace p = .ok top ∧ d.entryAt? (top.map Name.respell) = some e ∧
      ∀ more, Entry.linkCountAmong d.entries < more →
        d.resolveFrom more [] (d.startOf p) p.names = ⟨top, true⟩ := by
  obtain ⟨q, lead⟩ := lead_of_entry h
  obtain ⟨t, n, spelled, follows, found⟩ := follows_of_lead lead
  obtain rfl := spelling_eq spelled
  have ways := follows.filter
  simp only [proper.filter_splitAt_respell, proper.head?_respell] at ways
  have start : (d.startOf p).map Name.respell = d.startOf p := by
    unfold startOf
    split
    · rfl
    · exact Place.IsProper.map_respell wf.current_proper
  obtain ⟨top, rfl, resolves⟩ := ways.resolves wf _ _ start rfl
  have resolution : ∀ more, Entry.linkCountAmong d.entries < more →
      d.resolveFrom more [] (d.startOf p) p.names = ⟨top, true⟩ := fun more enough =>
    resolves more [] ⟨enough, List.nodup_nil, by simp⟩
  refine ⟨top, ?_, found, resolution⟩
  have whole := resolution _ (Nat.lt_succ_self _)
  unfold startOf at whole
  simp only [realPlace, spelled, whole, entry_toText wf found direct]

end Disk

end RouteAtlas
