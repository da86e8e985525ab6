import RouteAtlas.Disk.Change
import RouteAtlas.Proofs.Disk.Alike

/-!
# What changes of files leave alone

Putting a file or a new folder at a place leaves every other place as it was. So making folders only
adds folders, and writing a file changes that file alone (`write_eq_ok`). A path that led to a place
before such changes leads there after them (`OnlyWrites.lead`): nothing on the way is lost, and no
link is made.
-/

namespace RouteAtlas

namespace Entry

namespace Alike

variable {a b c : Option Entry}

theorem refl (a : Option Entry) : Alike a a :=
  match a with
  | Option.none => .none
  | some (.file bytes) => .file bytes
  | some (.link target) => .link target
  | some (.folder es) => .folder es es

theorem symm (h : Alike a b) : Alike b a := by
  cases h with
  | none => exact .none
  | file bytes => exact .file bytes
  | link target => exact .link target
  | folder es es' => exact .folder es' es

theorem trans (h : Alike a b) (k : Alike b c) : Alike a c := by
  cases h with
  | folder es es' =>
      cases k with
      | folder _ es'' => exact .folder es es''
  | none => exact k
  | file _ => exact k
  | link _ => exact k

theorem eq_none (h : Alike Option.none a) : a = Option.none := by
  cases h
  rfl

theorem eq_file {bytes : ByteArray} (h : Alike (some (.file bytes)) a) :
    a = some (.file bytes) := by
  cases h
  rfl

theorem eq_link {target : Text} (h : Alike (some (.link target)) a) :
    a = some (.link target) := by
  cases h
  rfl

theorem exists_folder {es : List (Text × Entry)} (h : Alike (some (.folder es)) a) :
    ∃ es', a = some (.folder es') := by
  cases h with
  | folder _ es' => exact ⟨es', rfl⟩

end Alike

theorem among_putAmong (name : Text) (new : Entry) (es : List (Text × Entry)) (m : Text) :
    among m (putAmong name new es) = if m = name then some new else among m es := by
  induction es with
  | nil =>
      by_cases same : m = name
      · simp [putAmong, among, same]
      · simp [putAmong, among, same, Ne.symm same]
  | cons first rest ih =>
      obtain ⟨n, e⟩ := first
      rw [putAmong]
      split
      · next same =>
          subst same
          by_cases here : m = n
          · simp [among, here]
          · simp [among, here, Ne.symm here]
      · next other =>
          rw [among, ih, among]
          by_cases here : n = m
          · subst here
            simp [other]
          · simp [here]

/-- Below an entry without entries there is nothing. -/
theorem at?_cons_of_entries {e : Entry} (leaf : e.entries = []) (n : Text) (ns : List Text) :
    at? (n :: ns) e = none := by
  rw [at?, leaf]
  rfl

/-- An entry without entries that is put into a folder, in the place of nothing or of another such
entry, is found at its name, and all else as before. -/
theorem alike_changeAt {name : Text} {new : Entry} (leaf : new.entries = []) {ns : List Text}
    {e : Entry} {es : List (Text × Entry)} (above : at? ns e = some (.folder es))
    (old : ∀ o, among name es = some o → o.entries = []) (ms : List Text) :
    Alike (if ms = ns ++ [name] then some new else at? ms e)
      (at? ms (changeAt (putAmong name new) ns e)) := by
  induction ns generalizing e ms with
  | nil =>
      obtain rfl := Option.some.inj above
      cases ms with
      | nil => exact .folder _ _
      | cons m ms =>
          simp only [changeAt, at?, entries, among_putAmong, List.nil_append, List.cons.injEq]
          by_cases here : m = name
          · subst here
            cases ms with
            | nil => simpa [at?] using Alike.refl (some new)
            | cons k ms =>
                have nothing : (among m es).bind (at? (k :: ms)) = none := by
                  cases found : among m es with
                  | none => rfl
                  | some o => exact at?_cons_of_entries (old o found) k ms
                simp only [nothing, reduceCtorEq, and_false, if_true, if_false, Option.bind_some,
                  at?_cons_of_entries leaf]
                exact .none
          · simp only [here, false_and, if_false]
            exact .refl _
  | cons n ns ih =>
      obtain ⟨f, found, below⟩ := Option.bind_eq_some_iff.mp above
      cases e with
      | file _ => simp [entries, among] at found
      | link _ => simp [entries, among] at found
      | folder top =>
          have found : among n top = some f := found
          have changed : changeAt (putAmong name new) (n :: ns) (.folder top) =
              .folder (putAmong n (changeAt (putAmong name new) ns f) top) := by
            rw [changeAt, found]
          rw [changed]
          cases ms with
          | nil => exact .folder _ _
          | cons m ms =>
              simp only [at?, entries, among_putAmong, List.cons_append, List.cons.injEq]
              by_cases here : m = n
              · subst here
                simp only [found, true_and, if_true, Option.bind_some]
                exact ih below ms
              · simp only [here, false_and, if_false]
                exact .refl _

end Entry

/-- The lead ends at the place, with what is there. A name that is missing is missing in a
folder. -/
def Lead.IsAt (d : Disk) (p : Place) : Lead → Prop
  | entry q e => q = p ∧ d.entryAt? p = some e
  | missing folder name =>
    name :: folder = p ∧ d.entryAt? p = none ∧ ∃ es, d.entryAt? folder = some (.folder es)

/-- A lead ends at a place of one file tree, and what stands for it in another one ends there too,
with what is there then. -/
def Lead.Persists (d d' : Disk) (l : Lead) (r : Except FileCause Lead) : Prop :=
  ∃ p l', l.IsAt d p ∧ r = .ok l' ∧ l'.IsAt d' p

theorem Lead.IsAt.unique {d : Disk} {p q : Place} {l : Lead} (h : l.IsAt d p) (k : l.IsAt d q) :
    p = q := by
  cases l with
  | entry _ _ => exact h.1.symm.trans k.1
  | missing _ _ => exact h.1.symm.trans k.1

namespace Disk

/-- There is a folder at the place. -/
def HasFolder (d : Disk) (p : Place) : Prop := ∃ es, d.entryAt? p = some (.folder es)

/-- What the file at a place holds; nothing if there is no file. -/
def bytesAt (d : Disk) (p : Place) : ByteArray :=
  match d.entryAt? p with
  | some (.file bytes) => bytes
  | _ => .empty

/-- The place of the file that a path leads to, if it leads to a file. -/
def filePlace? (d : Disk) (path : Text) : Option Place :=
  match d.lead true path with
  | .ok (.entry p (.file _)) => some p
  | _ => none

theorem filePlace?_eq_some {d : Disk} {path : Text} {p : Place} :
    d.filePlace? path = some p ↔ ∃ bytes, d.lead true path = .ok (.entry p (.file bytes)) := by
  unfold filePlace?
  split
  · next found => simp [found]
  · next other => simpa using other p

theorem bytesAt_file {d : Disk} {p : Place} {bytes : ByteArray}
    (h : d.entryAt? p = some (.file bytes)) : d.bytesAt p = bytes := by
  rw [bytesAt, h]

theorem bytesAt_none {d : Disk} {p : Place} (h : d.entryAt? p = none) : d.bytesAt p = .empty := by
  rw [bytesAt, h]

/-- Files at the places `ps` have been written and folders may have been added. All else is as it
was. -/
structure OnlyWrites (ps : List Place) (d d' : Disk) : Prop where
  current : d'.current = d.current
  outside : ∀ q ∉ ps, Entry.Alike (d.entryAt? q) (d'.entryAt? q) ∨
    d.entryAt? q = none ∧ d'.HasFolder q
  inside : ∀ q ∈ ps, (d.entryAt? q = none ∨ ∃ bytes, d.entryAt? q = some (.file bytes)) ∧
    ∃ bytes, d'.entryAt? q = some (.file bytes)

/-- A file at the path can be opened for writing. -/
def CanWrite (d : Disk) (path : Text) : Prop := ∃ d', d.write path .empty = .ok d'

theorem hasFolder_nil (d : Disk) : d.HasFolder [] := ⟨d.entries, rfl⟩

theorem HasFolder.tail {d : Disk} {p : Place} (h : d.HasFolder p) : d.HasFolder p.tail := by
  cases p with
  | nil => exact h
  | cons n p =>
      obtain ⟨es, there⟩ := h
      obtain ⟨above, isFolder, -⟩ := exists_folder_of_entryAt?_cons there
      exact ⟨above, isFolder⟩

namespace OnlyWrites

variable {d d' d'' : Disk} {ps qs : List Place}

theorem refl (d : Disk) : OnlyWrites [] d d where
  current := rfl
  outside := fun _ _ => .inl (.refl _)
  inside := nofun

/-- What is at a place stays there: a link with its target, a folder as a folder, a file as a
file. -/
theorem stays (h : OnlyWrites ps d d') {q : Place} {e : Entry} (there : d.entryAt? q = some e) :
    Entry.Alike (some e) (d'.entryAt? q) ∨
      (∃ bytes, e = .file bytes) ∧ ∃ bytes, d'.entryAt? q = some (.file bytes) := by
  by_cases mem : q ∈ ps
  · obtain ⟨before, after⟩ := h.inside q mem
    rw [there] at before
    obtain none | ⟨bytes, file⟩ := before
    · cases none
    · exact .inr ⟨⟨bytes, Option.some.inj file⟩, after⟩
  · obtain alike | ⟨missing, -⟩ := h.outside q mem
    · exact .inl (there ▸ alike)
    · rw [there] at missing
      cases missing

theorem hasFolder (h : OnlyWrites ps d d') {q : Place} (folder : d.HasFolder q) :
    d'.HasFolder q := by
  obtain ⟨es, there⟩ := folder
  obtain alike | ⟨⟨bytes, file⟩, -⟩ := h.stays there
  · exact alike.exists_folder
  · cases file

theorem hasCurrent (h : OnlyWrites ps d d') (current : d.HasFolder d.current) :
    d'.HasFolder d'.current := by
  rw [h.current]
  exact h.hasFolder current

theorem file (h : OnlyWrites ps d d') {q : Place} {bytes : ByteArray}
    (there : d.entryAt? q = some (.file bytes)) :
    ∃ bytes', d'.entryAt? q = some (.file bytes') := by
  obtain alike | ⟨-, after⟩ := h.stays there
  · exact ⟨bytes, alike.eq_file⟩
  · exact after

theorem link (h : OnlyWrites ps d d') {q : Place} {target : Text}
    (there : d.entryAt? q = some (.link target)) : d'.entryAt? q = some (.link target) := by
  obtain alike | ⟨⟨bytes, file⟩, -⟩ := h.stays there
  · exact alike.eq_link
  · cases file

theorem appears (h : OnlyWrites ps d d') {q : Place} (missing : d.entryAt? q = none) :
    d'.entryAt? q = none ∨ (∃ bytes, d'.entryAt? q = some (.file bytes)) ∨ d'.HasFolder q := by
  by_cases mem : q ∈ ps
  · exact .inr (.inl (h.inside q mem).2)
  · obtain alike | ⟨-, folder⟩ := h.outside q mem
    · exact .inl (missing ▸ alike).eq_none
    · exact .inr (.inr folder)

/-- A file holds what it held, unless it has been written. -/
theorem bytesAt_eq (h : OnlyWrites ps d d') {q : Place} (other : q ∉ ps) :
    d'.bytesAt q = d.bytesAt q := by
  obtain alike | ⟨missing, es, folder⟩ := h.outside q other
  · unfold bytesAt
    generalize d.entryAt? q = before, d'.entryAt? q = after at alike
    cases alike <;> rfl
  · rw [bytesAt_none missing, bytesAt, folder]

theorem trans (h : OnlyWrites ps d d') (k : OnlyWrites qs d' d'') :
    OnlyWrites (ps ++ qs) d d'' where
  current := k.current.trans h.current
  outside := by
    intro q mem
    rw [List.mem_append, not_or] at mem
    obtain alike | ⟨missing, folder⟩ := h.outside q mem.1
    · obtain later | ⟨missing, folder⟩ := k.outside q mem.2
      · exact .inl (alike.trans later)
      · exact .inr ⟨(missing ▸ alike.symm).eq_none, folder⟩
    · exact .inr ⟨missing, k.hasFolder folder⟩
  inside := by
    intro q mem
    by_cases first : q ∈ ps
    · obtain ⟨before, bytes, between⟩ := h.inside q first
      exact ⟨before, k.file between⟩
    · obtain ⟨between, after⟩ := k.inside q ((List.mem_append.mp mem).resolve_left first)
      refine ⟨?_, after⟩
      obtain alike | ⟨missing, -⟩ := h.outside q first
      · obtain none | ⟨bytes, file⟩ := between
        · exact .inl (none ▸ alike.symm).eq_none
        · exact .inr ⟨bytes, (file ▸ alike.symm).eq_file⟩
      · exact .inl missing

section Lead

variable {follow follow' : Place → List Text → Except FileCause Lead} {last : Bool} {here : Place}
  {name : Text}

/-- The name that was missing may be that of a file or of a folder now, but not that of a link. -/
theorem leadWith_missing (h : OnlyWrites ps d d') (start : d.HasFolder here)
    (plain : Name.IsPlain name) (short : Name.size name ≤ Name.limit)
    (missing : d.entryAt? (name :: here) = none) :
    Lead.Persists d d' (.missing here name) (Disk.leadWith follow' d' last here [name]) := by
  refine ⟨name :: here, ?_⟩
  have before : (Lead.missing here name).IsAt d (name :: here) := ⟨rfl, missing, start⟩
  rw [leadWith_plain _ _ _ plain short]
  rcases h.appears missing with gone | ⟨bytes, isFile⟩ | ⟨es, isFolder⟩
  · rw [gone]
    exact ⟨_, before, rfl, rfl, gone, h.hasFolder start⟩
  · rw [isFile]
    exact ⟨_, before, rfl, rfl, isFile⟩
  · have reached : Disk.leadWith follow' d' last (name :: here) [] =
        .ok (.entry (name :: here) (.folder es)) := by
      rw [Disk.leadWith, isFolder]
    rw [isFolder]
    exact ⟨_, before, reached, rfl, isFolder⟩

theorem leadWith_file (h : OnlyWrites ps d d') (plain : Name.IsPlain name)
    (short : Name.size name ≤ Name.limit) {bytes : ByteArray}
    (isFile : d.entryAt? (name :: here) = some (.file bytes)) :
    Lead.Persists d d' (.entry (name :: here) (.file bytes))
      (Disk.leadWith follow' d' last here [name]) := by
  obtain ⟨bytes', later⟩ := h.file isFile
  rw [leadWith_plain _ _ _ plain short, later]
  exact ⟨name :: here, _, ⟨rfl, isFile⟩, rfl, rfl, later⟩

/-- A link is still there, and leads on as before if the leads from links do. -/
theorem leadWith_link (h : OnlyWrites ps d d')
    (next : ∀ start names l, d.HasFolder start → follow start names = .ok l →
      Lead.Persists d d' l (follow' start names))
    (start : d.HasFolder here) (plain : Name.IsPlain name) (short : Name.size name ≤ Name.limit)
    {target : Text} (isLink : d.entryAt? (name :: here) = some (.link target)) {names : List Text}
    {l : Lead} (found : Disk.leadWith follow d last here (name :: names) = .ok l) :
    Lead.Persists d d' l (Disk.leadWith follow' d' last here (name :: names)) := by
  rw [leadWith_plain _ _ _ plain short, isLink] at found
  rw [leadWith_plain _ _ _ plain short, h.link isLink]
  dsimp only at found ⊢
  split at found
  · next final =>
      obtain rfl := Except.ok.inj found
      exact ⟨name :: here, _, ⟨rfl, isLink⟩, if_pos final, rfl, h.link isLink⟩
  · next through =>
      rw [if_neg through]
      refine next _ _ _ ?_ found
      unfold linkStart
      split
      · exact d.hasFolder_nil
      · exact start

/-- Names lead to the same place as before, if they do so from the end of a link. -/
theorem leadWith (h : OnlyWrites ps d d')
    (next : ∀ start names l, d.HasFolder start → follow start names = .ok l →
      Lead.Persists d d' l (follow' start names))
    {names : List Text} {l : Lead} (start : d.HasFolder here)
    (found : Disk.leadWith follow d last here names = .ok l) :
    Lead.Persists d d' l (Disk.leadWith follow' d' last here names) := by
  induction names generalizing here with
  | nil =>
      obtain ⟨es, there⟩ := start
      obtain ⟨es', later⟩ := h.hasFolder ⟨es, there⟩
      rw [Disk.leadWith, there] at found
      obtain rfl := Except.ok.inj found
      rw [Disk.leadWith, later]
      exact ⟨here, _, ⟨rfl, there⟩, rfl, rfl, later⟩
  | cons name names ih =>
      by_cases dot : name = [] ∨ name = Text.ofString "."
      · rw [Disk.leadWith, if_pos dot] at found ⊢
        exact ih start found
      by_cases dots : name = Text.ofString ".."
      · rw [Disk.leadWith, if_neg dot, if_pos dots] at found ⊢
        exact ih start.tail found
      by_cases long : Name.limit < Name.size name
      · rw [Disk.leadWith, if_neg dot, if_neg dots, if_pos long] at found
        cases found
      have plain : Name.IsPlain name := ⟨dot, dots⟩
      have short := Nat.not_lt.mp long
      have looked := leadWith_plain follow last here plain short names (d := d)
      cases there : d.entryAt? (name :: here) with
      | none =>
          rw [looked, there] at found
          dsimp only at found
          split at found
          · next final =>
              obtain rfl := Except.ok.inj found
              obtain rfl := List.isEmpty_iff.mp final
              exact h.leadWith_missing start plain short there
          · cases found
      | some e =>
          cases e with
          | link target => exact h.leadWith_link next start plain short there found
          | file bytes =>
              rw [looked, there] at found
              dsimp only at found
              split at found
              · next final =>
                  obtain rfl := Except.ok.inj found
                  obtain rfl := List.isEmpty_iff.mp final
                  exact h.leadWith_file plain short there
              · cases found
          | folder es =>
              obtain ⟨es', later⟩ := h.hasFolder ⟨es, there⟩
              rw [looked, there] at found
              rw [leadWith_plain _ _ _ plain short, later]
              exact ih ⟨es, there⟩ found

end Lead

theorem leadFrom (h : OnlyWrites ps d d') {last : Bool} {links : Nat} {here : Place}
    {names : List Text} {l : Lead} (start : d.HasFolder here)
    (found : d.leadFrom last links here names = .ok l) :
    Lead.Persists d d' l (d'.leadFrom last links here names) := by
  induction links generalizing here names l with
  | zero => exact h.leadWith (fun _ _ _ _ impossible => by cases impossible) start found
  | succ links ih => exact h.leadWith (fun _ _ _ folder found => ih folder found) start found

/-- A path leads to the same place as before. -/
theorem lead (h : OnlyWrites ps d d') (current : d.HasFolder d.current) {last : Bool} {path : Text}
    {l : Lead} (found : d.lead last path = .ok l) :
    Lead.Persists d d' l (d'.lead last path) := by
  rw [Disk.lead] at found ⊢
  cases spelled : spelling path with
  | error c =>
      rw [spelled] at found
      cases found
  | ok t =>
      rw [spelled] at found
      simp only [bind, Except.bind] at found ⊢
      split at found
      · cases found
      · next some =>
          rw [if_neg some, h.current]
          refine h.leadFrom ?_ found
          split
          · exact d.hasFolder_nil
          · exact current

/-- A path leads to what is now at its place. -/
theorem lead_entry (h : OnlyWrites ps d d') (current : d.HasFolder d.current) {last : Bool}
    {path : Text} {l : Lead} (found : d.lead last path = .ok l) {p : Place} (isAt : l.IsAt d p)
    {e : Entry} (there : d'.entryAt? p = some e) : d'.lead last path = .ok (.entry p e) := by
  obtain ⟨q, l', here, found', isAt'⟩ := h.lead current found
  obtain rfl := isAt.unique here
  cases l' with
  | missing folder name =>
      obtain ⟨-, missing, -⟩ := isAt'
      rw [missing] at there
      cases there
  | entry q e' =>
      obtain ⟨rfl, there'⟩ := isAt'
      rw [there'] at there
      rw [found', Option.some.inj there]

/-- A path that leads to a file leads to the same file, with what it held, if the file has not been
written. -/
theorem lead_file (h : OnlyWrites ps d d') (current : d.HasFolder d.current) {last : Bool}
    {path : Text} {p : Place} {bytes : ByteArray}
    (found : d.lead last path = .ok (.entry p (.file bytes))) (other : p ∉ ps) :
    d'.lead last path = .ok (.entry p (.file bytes)) := by
  obtain ⟨q, -, ⟨rfl, there⟩, -⟩ := h.lead current found
  obtain alike | ⟨missing, -⟩ := h.outside p other
  · exact h.lead_entry current found ⟨rfl, there⟩ (there ▸ alike).eq_file
  · rw [there] at missing
    cases missing

/-- A path that leads to a file leads to it ever after. -/
theorem filePlace? (h : OnlyWrites ps d d') (current : d.HasFolder d.current) {path : Text}
    {p : Place} (found : d.filePlace? path = some p) : d'.filePlace? path = some p := by
  obtain ⟨bytes, lead⟩ := filePlace?_eq_some.mp found
  obtain ⟨q, -, ⟨rfl, there⟩, -⟩ := h.lead current lead
  obtain ⟨bytes', later⟩ := h.file there
  exact filePlace?_eq_some.mpr ⟨bytes', h.lead_entry current lead ⟨rfl, there⟩ later⟩

end OnlyWrites

/-! ## The changes -/

variable {d d' : Disk}

/-- Putting an entry without entries in the place of nothing or of a file changes that place
only. -/
theorem entryAt?_put {folder : Place} (above : d.HasFolder folder) {name : Text} {new : Entry}
    (leaf : new.entries = []) (old : ∀ e, d.entryAt? (name :: folder) = some e → e.entries = [])
    (q : Place) :
    Entry.Alike (if q = name :: folder then some new else d.entryAt? q)
      ((d.changeAt (Entry.putAmong name new) folder).entryAt? q) := by
  obtain ⟨es, above⟩ := above
  have empty : ∀ e, Entry.among name es = some e → e.entries = [] := by
    intro e found
    refine old e ?_
    rw [entryAt?_cons, above]
    exact found
  have changed := Entry.alike_changeAt leaf above empty q.reverse
  have place : q.reverse = folder.reverse ++ [name] ↔ q = name :: folder := by
    rw [← List.reverse_cons, List.reverse_inj]
  have root : (d.changeAt (Entry.putAmong name new) folder).root =
      d.root.changeAt (Entry.putAmong name new) folder.reverse := by
    rw [root, Disk.changeAt]
    cases folder.reverse with
    | nil => rfl
    | cons n ns =>
        rw [root, Entry.changeAt]
        cases Entry.among n d.entries <;> rfl
  simp only [place] at changed
  rw [entryAt?, entryAt?, root]
  exact changed

theorem onlyWrites_file {folder : Place} (above : d.HasFolder folder) {name : Text}
    (old : d.entryAt? (name :: folder) = none ∨
      ∃ bytes, d.entryAt? (name :: folder) = some (.file bytes)) (bytes : ByteArray) :
    OnlyWrites [name :: folder] d (d.changeAt (Entry.putAmong name (.file bytes)) folder) ∧
      (d.changeAt (Entry.putAmong name (.file bytes)) folder).entryAt? (name :: folder) =
        some (.file bytes) := by
  have empty : ∀ e, d.entryAt? (name :: folder) = some e → e.entries = [] := by
    intro e there
    obtain none | ⟨bytes, file⟩ := old
    · rw [none] at there
      cases there
    · rw [file] at there
      obtain rfl := Option.some.inj there
      rfl
  have leaf : (Entry.file bytes).entries = [] := rfl
  have put := entryAt?_put above leaf empty
  have written := put (name :: folder)
  rw [if_pos rfl] at written
  refine ⟨⟨rfl, fun q mem => ?_, fun q mem => ?_⟩, written.eq_file⟩
  · have kept := put q
    rw [if_neg (by simpa using mem)] at kept
    exact .inl kept
  · obtain rfl := List.mem_singleton.mp mem
    exact ⟨old, bytes, written.eq_file⟩

theorem onlyWrites_folder {folder : Place} (above : d.HasFolder folder) {name : Text}
    (missing : d.entryAt? (name :: folder) = none) :
    OnlyWrites [] d (d.changeAt (Entry.putAmong name (.folder [])) folder) := by
  have leaf : (Entry.folder []).entries = [] := rfl
  have empty : ∀ e, d.entryAt? (name :: folder) = some e → e.entries = [] := by simp [missing]
  have put := entryAt?_put above leaf empty
  refine ⟨rfl, fun q _ => ?_, nofun⟩
  have kept := put q
  split at kept
  · next same => exact .inr ⟨same ▸ missing, kept.exists_folder⟩
  · exact .inl kept

/-- A lead ends at a place, with what is there. -/
theorem isAt_of_lead (current : d.HasFolder d.current) {last : Bool} {path : Text} {l : Lead}
    (found : d.lead last path = .ok l) : ∃ p, l.IsAt d p := by
  obtain ⟨p, -, isAt, -⟩ := (OnlyWrites.refl d).lead current found
  exact ⟨p, isAt⟩

/-- A path that leads to a file leads to what its place holds. -/
theorem entryAt?_of_lead (current : d.HasFolder d.current) {last : Bool} {path : Text} {p : Place}
    {e : Entry} (found : d.lead last path = .ok (.entry p e)) : d.entryAt? p = some e := by
  obtain ⟨_, rfl, there⟩ := isAt_of_lead current found
  exact there

/-- Changing what a file holds changes that file only, and the path then leads to it. -/
theorem modify_eq_ok (current : d.HasFolder d.current) {path : Text}
    {change : ByteArray → ByteArray} (h : d.modify path change = .ok d') :
    ∃ p, OnlyWrites [p] d d' ∧
      d'.lead true path = .ok (.entry p (.file (change (d.bytesAt p)))) := by
  rw [modify] at h
  split at h
  · next name folder old found =>
      obtain ⟨p, rfl, there⟩ := isAt_of_lead current found
      obtain ⟨es, above, -⟩ := exists_folder_of_entryAt?_cons there
      obtain rfl := Except.ok.inj h
      rw [← bytesAt_file there]
      obtain ⟨only, written⟩ := onlyWrites_file ⟨es, above⟩ (.inr ⟨old, there⟩)
        (change (d.bytesAt (name :: folder)))
      exact ⟨_, only, only.lead_entry current found ⟨rfl, there⟩ written⟩
  · cases h
  · next folder name found =>
      obtain ⟨p, rfl, missing, above⟩ := isAt_of_lead current found
      obtain rfl := Except.ok.inj h
      rw [← bytesAt_none missing]
      obtain ⟨only, written⟩ := onlyWrites_file above (.inl missing)
        (change (d.bytesAt (name :: folder)))
      exact ⟨_, only, only.lead_entry current found ⟨rfl, missing, above⟩ written⟩
  · cases h

/-- Writing a file changes that file only, and the path then leads to it. -/
theorem write_eq_ok (current : d.HasFolder d.current) {path : Text} {bytes : ByteArray}
    (h : d.write path bytes = .ok d') :
    ∃ p, OnlyWrites [p] d d' ∧ d'.lead true path = .ok (.entry p (.file bytes)) :=
  modify_eq_ok current h

/-- What is added to a file comes after what it held, and no other file is changed. -/
theorem append_eq_ok (current : d.HasFolder d.current) {path : Text} {bytes : ByteArray}
    (h : d.append path bytes = .ok d') :
    ∃ p, OnlyWrites [p] d d' ∧ d'.filePlace? path = some p ∧
      ∀ q, d'.bytesAt q = if q = p then d.bytesAt q ++ bytes else d.bytesAt q := by
  obtain ⟨p, only, found⟩ := modify_eq_ok current h
  refine ⟨p, only, filePlace?_eq_some.mpr ⟨_, found⟩, fun q => ?_⟩
  split
  · next same =>
      subst same
      exact bytesAt_file (entryAt?_of_lead (only.hasCurrent current) found)
  · next other => exact only.bytesAt_eq (by simpa using other)

/-- A file that a path leads to can be added to. -/
theorem exists_append (current : d.HasFolder d.current) {path : Text} {p : Place}
    (found : d.filePlace? path = some p) (bytes : ByteArray) :
    ∃ d', d.append path bytes = .ok d' := by
  obtain ⟨old, found⟩ := filePlace?_eq_some.mp found
  cases p with
  | nil => cases entryAt?_of_lead current found
  | cons name folder => exact ⟨_, by rw [append, modify, found]⟩

/-- Whether a file can be opened for writing does not depend on what is written. -/
theorem exists_write_iff (path : Text) (bytes : ByteArray) :
    (∃ d', d.write path bytes = .ok d') ↔ d.CanWrite path := by
  unfold CanWrite write modify
  split <;> simp

theorem write_eq_error {path : Text} (h : ¬ d.CanWrite path) :
    ∃ c, ∀ bytes, d.write path bytes = .error c := by
  unfold CanWrite write modify at h
  unfold write modify
  split at h
  · exact absurd ⟨_, rfl⟩ h
  · exact ⟨_, fun _ => rfl⟩
  · exact absurd ⟨_, rfl⟩ h
  · exact ⟨_, fun _ => rfl⟩

theorem createFolder_eq_ok (current : d.HasFolder d.current) {path : Text}
    (h : d.createFolder path = .ok d') : OnlyWrites [] d d' := by
  rw [createFolder] at h
  split at h
  · cases h
  · next folder name found =>
      obtain ⟨p, rfl, missing, above⟩ := isAt_of_lead current found
      obtain rfl := Except.ok.inj h
      exact onlyWrites_folder above missing
  · cases h

theorem ensureFolder_eq_ok (current : d.HasFolder d.current) {path : Text}
    (h : d.ensureFolder path = .ok d') : OnlyWrites [] d d' := by
  rw [ensureFolder] at h
  split at h
  · next made =>
      obtain rfl := Except.ok.inj h
      exact createFolder_eq_ok current made
  · split at h
    · obtain rfl := Except.ok.inj h
      exact .refl d
    · cases h

/-- A step that fails has changed nothing. -/
theorem onlyWrites_ofStep {step : Except FileError Disk}
    (h : ∀ d', step = .ok d' → OnlyWrites [] d d') :
    OnlyWrites [] d (Reached.ofStep d step).disk := by
  cases step with
  | ok d' => exact h d' rfl
  | error e => exact .refl d

theorem onlyWrites_reachFoldersAbove (current : d.HasFolder d.current) (p : Path) (names : Nat) :
    OnlyWrites [] d (d.reachFoldersAbove p names).disk := by
  induction names generalizing p with
  | zero => exact onlyWrites_ofStep fun d' => ensureFolder_eq_ok current
  | succ names ih =>
      rw [reachFoldersAbove]
      cases made : d.createFolder p.toText with
      | ok d' => exact createFolder_eq_ok current made
      | error e =>
          dsimp only
          split
          · have above := ih p.parent
            split
            · exact above.trans
                (onlyWrites_ofStep fun d' => ensureFolder_eq_ok (above.hasCurrent current))
            · exact above
          · exact .refl d

/-- Making the folders of a path adds folders only, however far it comes. -/
theorem onlyWrites_reachFolders (current : d.HasFolder d.current) (p : Path) :
    OnlyWrites [] d (d.reachFolders p).disk :=
  onlyWrites_reachFoldersAbove current p p.names.length

/-- Making the folders of a path adds folders only. -/
theorem ensureFolders_eq_ok (current : d.HasFolder d.current) {p : Path}
    (h : d.ensureFolders p = .ok d') : OnlyWrites [] d d' := by
  have added := onlyWrites_reachFolders current p
  rwa [(Reached.result_eq_ok h).2] at added

end Disk

end RouteAtlas
