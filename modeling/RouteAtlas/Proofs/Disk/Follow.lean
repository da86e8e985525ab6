import RouteAtlas.Proofs.Disk.Place

/-!
# Following names

`Disk.Follows` says where names and the links on the way lead, and counts the links. Unlike a lead
it knows no limit of links, it can be cut anywhere, and it does not depend on empty names and single
dots. A lead to an entry follows its names (`follows_of_lead`); in the other direction the names of
a place lead straight to it (`entry_toText`).
-/

namespace RouteAtlas

namespace Disk

/-- Where a link begins to lead: at the top, or at the folder it is in. -/
def linkStart (folder : Place) (target : Text) : Place :=
  if target.head? = some slash then [] else folder

/-- Following names from a place leads to a place, over a number of links. -/
inductive Follows (d : Disk) : Nat → Place → List Text → Place → Prop
  | done (here : Place) : Follows d 0 here [] here
  | stay {n : Nat} {here p : Place} {name : Text} {names : List Text}
      (dot : name = [] ∨ name = Text.ofString ".") (next : Follows d n here names p) :
      Follows d n here (name :: names) p
  | up {n : Nat} {here p : Place} {names : List Text} (next : Follows d n here.tail names p) :
      Follows d n here (Text.ofString ".." :: names) p
  | enter {n : Nat} {here p : Place} {name : Text} {names : List Text} {e : Entry}
      (plain : Name.IsPlain name) (found : d.entryAt? (name :: here) = some e) (direct : ¬ e.IsLink)
      (next : Follows d n (name :: here) names p) : Follows d n here (name :: names) p
  | link {k n : Nat} {here mid p : Place} {name target : Text} {names : List Text}
      (plain : Name.IsPlain name) (found : d.entryAt? (name :: here) = some (.link target))
      (through : Follows d k (linkStart here target) (Text.splitAt slash target) mid)
      (next : Follows d n mid names p) : Follows d (k + n + 1) here (name :: names) p

section Follows

variable {d : Disk}

/-- Names lead to one place only, and over the same number of links. -/
theorem Follows.unique {n m : Nat} {here p q : Place} {names : List Text}
    (h : d.Follows n here names p) (k : d.Follows m here names q) : n = m ∧ p = q := by
  induction h generalizing m q with
  | done here =>
      cases k
      exact ⟨rfl, rfl⟩
  | stay dot next ih =>
      cases k with
      | stay _ next' => exact ih next'
      | up next' => exact absurd dot (by decide)
      | enter plain _ _ _ => exact absurd dot plain.1
      | link plain _ _ _ => exact absurd dot plain.1
  | up next ih =>
      cases k with
      | stay dot _ => exact absurd dot (by decide)
      | up next' => exact ih next'
      | enter plain _ _ _ => exact absurd rfl plain.2
      | link plain _ _ _ => exact absurd rfl plain.2
  | enter plain found direct next ih =>
      cases k with
      | stay dot _ => exact absurd dot plain.1
      | up _ => exact absurd rfl plain.2
      | enter _ _ _ next' => exact ih next'
      | link _ found' _ _ =>
          obtain rfl := Option.some.inj (found.symm.trans found')
          exact absurd ⟨_, rfl⟩ direct
  | link plain found through next ihThrough ihNext =>
      cases k with
      | stay dot _ => exact absurd dot plain.1
      | up _ => exact absurd rfl plain.2
      | enter _ found' direct _ =>
          obtain rfl := Option.some.inj (found.symm.trans found')
          exact absurd ⟨_, rfl⟩ direct
      | link _ found' through' next' =>
          obtain ⟨rfl⟩ := Entry.link.inj (Option.some.inj (found.symm.trans found'))
          obtain ⟨rfl, rfl⟩ := ihThrough through'
          obtain ⟨rfl, rfl⟩ := ihNext next'
          exact ⟨rfl, rfl⟩

/-- Names can be followed in two parts. -/
theorem Follows.split {n : Nat} {here p : Place} {xs ys : List Text}
    (h : d.Follows n here (xs ++ ys) p) :
    ∃ k m mid, d.Follows k here xs mid ∧ d.Follows m mid ys p ∧ n = k + m := by
  induction xs generalizing n here with
  | nil => exact ⟨0, n, here, .done here, h, (Nat.zero_add n).symm⟩
  | cons x xs ih =>
      cases h with
      | stay dot next =>
          obtain ⟨k, m, mid, first, second, sum⟩ := ih next
          exact ⟨k, m, mid, .stay dot first, second, sum⟩
      | up next =>
          obtain ⟨k, m, mid, first, second, sum⟩ := ih next
          exact ⟨k, m, mid, .up first, second, sum⟩
      | enter plain found direct next =>
          obtain ⟨k, m, mid, first, second, sum⟩ := ih next
          exact ⟨k, m, mid, .enter plain found direct first, second, sum⟩
      | @link l _ _ _ _ _ _ _ plain found through next =>
          obtain ⟨k, m, mid, first, second, rfl⟩ := ih next
          exact ⟨l + k + 1, m, mid, .link plain found through first, second, by omega⟩

/-- Empty names and single dots can be left out. -/
theorem Follows.filter {n : Nat} {here p : Place} {names : List Text}
    (h : d.Follows n here names p) :
    d.Follows n here (names.filter fun m => m ≠ [] ∧ m ≠ Text.ofString ".") p := by
  induction h with
  | done here => exact .done here
  | stay dot next ih =>
      rw [List.filter_cons_of_neg (by rw [decide_eq_true_eq, ← not_or, not_not]; exact dot)]
      exact ih
  | up next ih =>
      rw [List.filter_cons_of_pos (by decide)]
      exact .up ih
  | enter plain found direct next ih =>
      rw [List.filter_cons_of_pos (by simpa using plain.1)]
      exact .enter plain found direct ih
  | link plain found through next _ ih =>
      rw [List.filter_cons_of_pos (by simpa using plain.1)]
      exact .link plain found through ih

/-- Names that lead somewhere in a well-formed file tree are spelled as the file tree spells
them. -/
theorem Follows.spelled {n : Nat} {here p : Place} {names : List Text} (wf : d.WellFormed)
    (h : d.Follows n here names p) : ∀ m ∈ names, Name.respell m = m := by
  induction h with
  | done here => simp
  | stay dot next ih =>
      refine List.forall_mem_cons.mpr ⟨?_, ih⟩
      rcases dot with rfl | rfl
      · rfl
      · decide
  | up next ih => exact List.forall_mem_cons.mpr ⟨by decide, ih⟩
  | enter plain found direct next ih =>
      exact List.forall_mem_cons.mpr ⟨(wf.proper found _ List.mem_cons_self).spelled, ih⟩
  | link plain found through next _ ih =>
      exact List.forall_mem_cons.mpr ⟨(wf.proper found _ List.mem_cons_self).spelled, ih⟩

/-- A name that is neither too long nor made of dots alone is looked for. -/
theorem leadWith_plain (follow : Place → List Text → Except FileCause Lead) (last : Bool)
    (here : Place) {name : Text} (plain : Name.IsPlain name)
    (short : Name.size name ≤ Name.limit) (names : List Text) :
    leadWith follow d last here (name :: names) =
      match d.entryAt? (name :: here) with
      | none => if names.isEmpty then .ok (.missing here name) else .error .notFound
      | some (.link target) =>
        if names.isEmpty && !last then .ok (.entry (name :: here) (.link target))
        else follow (linkStart here target) (Text.splitAt slash target ++ names)
      | some (.file bytes) =>
        if names.isEmpty then .ok (.entry (name :: here) (.file bytes)) else .error .notFolder
      | some (.folder _) => leadWith follow d last (name :: here) names := by
  rw [leadWith, if_neg plain.1, if_neg plain.2, if_neg (Nat.not_lt.mpr short)]
  rfl

/-- A lead to an entry follows its names, if the leads from links do. -/
theorem follows_of_leadWith {follow : Place → List Text → Except FileCause Lead}
    (next : ∀ start names p e, follow start names = .ok (.entry p e) →
      ∃ n, d.Follows n start names p ∧ d.entryAt? p = some e)
    {here p : Place} {names : List Text} {e : Entry}
    (h : leadWith follow d true here names = .ok (.entry p e)) :
    ∃ n, d.Follows n here names p ∧ d.entryAt? p = some e := by
  induction names generalizing here with
  | nil =>
      rw [leadWith] at h
      split at h
      · next f found =>
          obtain ⟨rfl, rfl⟩ := Lead.entry.inj (Except.ok.inj h)
          exact ⟨0, .done here, found⟩
      · simp at h
  | cons name names ih =>
      rw [leadWith] at h
      split at h
      · next dot =>
          obtain ⟨n, follows, found⟩ := ih h
          exact ⟨n, .stay dot follows, found⟩
      · next notDot =>
          split at h
          · next dots =>
              obtain ⟨n, follows, found⟩ := ih h
              exact ⟨n, dots ▸ .up follows, found⟩
          · next notDots =>
              have plain : Name.IsPlain name := ⟨notDot, notDots⟩
              split at h
              · simp at h
              · split at h
                · split at h <;> simp at h
                · next target isLink =>
                    rw [if_neg (by simp)] at h
                    obtain ⟨n, follows, found⟩ := next _ _ _ _ h
                    obtain ⟨k, m, mid, through, rest, -⟩ := follows.split
                    exact ⟨k + m + 1, .link plain isLink through rest, found⟩
                · next bytes isFile =>
                    split at h
                    · next last =>
                        obtain ⟨rfl, rfl⟩ := Lead.entry.inj (Except.ok.inj h)
                        obtain rfl := List.isEmpty_iff.mp last
                        have direct : ¬ (Entry.file bytes).IsLink := by simp [Entry.IsLink]
                        exact ⟨0, .enter plain isFile direct (.done _), isFile⟩
                    · simp at h
                · next es isFolder =>
                    have direct : ¬ (Entry.folder es).IsLink := by simp [Entry.IsLink]
                    obtain ⟨n, follows, found⟩ := ih h
                    exact ⟨n, .enter plain isFolder direct follows, found⟩

/-- A lead to an entry follows its names. -/
theorem follows_of_leadFrom {links : Nat} {here p : Place} {names : List Text} {e : Entry}
    (h : d.leadFrom true links here names = .ok (.entry p e)) :
    ∃ n, d.Follows n here names p ∧ d.entryAt? p = some e := by
  induction links generalizing here names p e with
  | zero =>
      refine follows_of_leadWith ?_ h
      intro start names p e impossible
      simp at impossible
  | succ links ih => exact follows_of_leadWith (fun start names p e => ih) h

/-- A path text that leads to an entry follows the names in its spelling. -/
theorem follows_of_lead {t : Text} {p : Place} {e : Entry} (h : d.lead true t = .ok (.entry p e)) :
    ∃ u n, spelling t = .ok u ∧
      d.Follows n (if u.head? = some slash then [] else d.current) (Text.splitAt slash u) p ∧
      d.entryAt? p = some e := by
  unfold lead at h
  cases spelled : spelling t with
  | error c => simp [spelled, bind, Except.bind] at h
  | ok u =>
      simp only [spelled, bind, Except.bind] at h
      split at h
      · simp at h
      · obtain ⟨n, follows, found⟩ := follows_of_leadFrom h
        exact ⟨u, n, rfl, follows, found⟩

theorem lead_of_entry {t : Text} {e : Entry} (h : d.entry t = .ok e) :
    ∃ p, d.lead true t = .ok (.entry p e) := by
  unfold entry at h
  split at h
  · next p f lead =>
      obtain rfl := Except.ok.inj h
      exact ⟨p, lead⟩
  · simp at h
  · simp at h

end Follows

section LinkFree

variable {d : Disk}

/-- Nothing in the file tree is a link. -/
def IsLinkFree (d : Disk) : Prop := ∀ p target, d.entryAt? p ≠ some (.link target)

/-- Without links, names that go down lead straight down. -/
theorem Follows.eq_append (free : d.IsLinkFree) {n : Nat} {here p : Place} {names : List Text}
    (h : d.Follows n here names p) (plain : ∀ m ∈ names, Name.IsPlain m) :
    p = names.reverse ++ here := by
  induction h with
  | done here => rfl
  | stay dot next ih => exact absurd dot (plain _ List.mem_cons_self).1
  | up next ih => exact absurd rfl (plain _ List.mem_cons_self).2
  | enter _ found direct next ih =>
      rw [ih (List.forall_mem_cons.mp plain).2]
      simp
  | link _ found through next => exact absurd found (free _ _)

/-- Without links, a place has no more names than lead to it. -/
theorem Follows.length_le (free : d.IsLinkFree) {n : Nat} {here p : Place} {names : List Text}
    (h : d.Follows n here names p) : p.length ≤ here.length + names.length := by
  induction h with
  | done here => simp
  | stay dot next ih =>
      rw [List.length_cons]
      omega
  | up next ih =>
      rw [List.length_tail] at ih
      rw [List.length_cons]
      omega
  | enter _ found direct next ih =>
      rw [List.length_cons] at ih ⊢
      omega
  | link _ found through next => exact absurd found (free _ _)

end LinkFree

section Straight

variable {d : Disk}

theorem spelling_eq {t u : Text} (h : spelling t = .ok u) : u = Name.respell t := by
  unfold spelling at h
  split at h
  · split at h
    · simp at h
    · exact (Except.ok.inj h).symm
  · simp at h

/-- Proper names lead straight to what is at them, unless it is a link. -/
theorem leadWith_proper (follow : Place → List Text → Except FileCause Lead) (last : Bool)
    {here : Place} {names : List Text} {e : Entry} (proper : ∀ n ∈ names, Name.IsProper n)
    (found : d.entryAt? (names.reverse ++ here) = some e) (direct : ¬ e.IsLink) :
    leadWith follow d last here names = .ok (.entry (names.reverse ++ here) e) := by
  induction names generalizing here with
  | nil =>
      rw [List.reverse_nil, List.nil_append] at found ⊢
      rw [leadWith, found]
  | cons name names ih =>
      rw [List.forall_mem_cons] at proper
      rw [List.reverse_cons, List.append_assoc, List.singleton_append] at found ⊢
      have plain := proper.1.isPlain
      rw [leadWith_plain follow last here plain proper.1.short]
      cases names with
      | nil =>
          rw [List.reverse_nil, List.nil_append] at found ⊢
          rw [found]
          cases e with
          | file bytes => rfl
          | link target => exact absurd ⟨target, rfl⟩ direct
          | folder es => simp only [leadWith, found]
      | cons next names =>
          obtain ⟨es, above⟩ := exists_folder_of_entryAt?_append (by simp) found
          rw [above]
          exact ih proper.2 found

/-- The text of a place leads to what is there, however it is spelled, unless it is a link. -/
theorem lead_toText (wf : d.WellFormed) (last : Bool) {p : Place} {e : Entry}
    (found : d.entryAt? (p.map Name.respell) = some e) (direct : ¬ e.IsLink) :
    d.lead last p.toText = .ok (.entry (p.map Name.respell) e) := by
  have proper : Place.IsProper (p.map Name.respell) := wf.proper found
  have spelled := Place.spelling_toText proper
  generalize (p.map Name.respell : Place) = q at found proper spelled
  have free : ∀ n ∈ q, slash ∉ n := fun n mem => (proper n mem).slash
  have head := Place.head?_toText q free
  have ne : Place.toText q ≠ [] := by
    intro empty
    simp [empty] at head
  simp only [Disk.lead, spelled, bind, Except.bind, if_neg ne, head, if_true,
    Place.splitAt_toText free]
  change leadWith (d.leadFrom last 39) d last [] _ = _
  rw [leadWith, if_pos (.inl rfl)]
  split
  · next top =>
      subst top
      rw [leadWith, if_pos (.inl rfl), leadWith, found]
  · have back : q.reverse.reverse ++ ([] : Place) = q := by simp
    have found' : d.entryAt? (q.reverse.reverse ++ []) = some e := by rw [back, found]
    have straight := leadWith_proper (d.leadFrom last 39) last
      (fun n mem => proper n (List.mem_reverse.mp mem)) found' direct
    rw [back] at straight
    exact straight

theorem entry_toText (wf : d.WellFormed) {p : Place} {e : Entry}
    (found : d.entryAt? (p.map Name.respell) = some e) (direct : ¬ e.IsLink) :
    d.entry p.toText = .ok e := by
  rw [entry, lead_toText wf true found direct]

end Straight

end Disk

end RouteAtlas
