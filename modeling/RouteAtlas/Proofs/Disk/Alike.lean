import RouteAtlas.Proofs.Disk.Real

/-!
# Alike file trees

Two file trees are alike if the same things are at the same places, in whatever order their folders
list them. Then paths lead to the same things in both, and have the same real places.
-/

namespace RouteAtlas

/-- The same thing, or nothing, is found twice; the entries of folders are not compared. -/
inductive Entry.Alike : Option Entry → Option Entry → Prop
  | none : Alike none none
  | file (bytes : ByteArray) : Alike (some (.file bytes)) (some (.file bytes))
  | link (target : Text) : Alike (some (.link target)) (some (.link target))
  | folder (es es' : List (Text × Entry)) : Alike (some (.folder es)) (some (.folder es'))

/-- Two leads end in the same way. -/
inductive Lead.Alike : Except FileCause Lead → Except FileCause Lead → Prop
  | error (c : FileCause) : Alike (.error c) (.error c)
  | missing (folder : Place) (name : Text) :
      Alike (.ok (.missing folder name)) (.ok (.missing folder name))
  | entry {e e' : Entry} (p : Place) (alike : Entry.Alike (some e) (some e')) :
      Alike (.ok (.entry p e)) (.ok (.entry p e'))

namespace Disk

/-- The same things are at the same places, and relative paths and the user's folder begin alike. -/
structure Alike (d d' : Disk) : Prop where
  entryAt? : ∀ p, Entry.Alike (d.entryAt? p) (d'.entryAt? p)
  current : d'.current = d.current
  home : d'.home = d.home

namespace Alike

variable {d d' : Disk}

theorem leadWith (alike : d.Alike d') {follow follow' : Place → List Text → Except FileCause Lead}
    (next : ∀ start names, Lead.Alike (follow start names) (follow' start names)) (last : Bool)
    (here : Place) (names : List Text) :
    Lead.Alike (Disk.leadWith follow d last here names)
      (Disk.leadWith follow' d' last here names) := by
  induction names generalizing here with
  | nil =>
      have there := alike.entryAt? here
      rw [Disk.leadWith, Disk.leadWith]
      generalize d.entryAt? here = found, d'.entryAt? here = found' at there
      cases there with
      | none => exact .error _
      | file bytes => exact .entry here (.file bytes)
      | link target => exact .entry here (.link target)
      | folder es es' => exact .entry here (.folder es es')
  | cons name names ih =>
      rw [Disk.leadWith, Disk.leadWith]
      split
      · exact ih here
      · split
        · exact ih here.tail
        · split
          · exact .error _
          · have there := alike.entryAt? (name :: here)
            generalize d.entryAt? (name :: here) = found,
              d'.entryAt? (name :: here) = found' at there
            cases there with
            | none =>
                simp only
                split
                · exact .missing here name
                · exact .error _
            | file bytes =>
                simp only
                split
                · exact .entry _ (.file bytes)
                · exact .error _
            | link target =>
                simp only
                split
                · exact .entry _ (.link target)
                · exact next _ _
            | folder es es' => exact ih (name :: here)

theorem leadFrom (alike : d.Alike d') (last : Bool) (links : Nat) (here : Place)
    (names : List Text) :
    Lead.Alike (d.leadFrom last links here names) (d'.leadFrom last links here names) := by
  induction links generalizing here names with
  | zero => exact alike.leadWith (fun _ _ => .error _) last here names
  | succ links ih => exact alike.leadWith ih last here names

/-- Paths lead to the same things in alike file trees. -/
theorem lead (alike : d.Alike d') (last : Bool) (path : Text) :
    Lead.Alike (d.lead last path) (d'.lead last path) := by
  rw [Disk.lead, Disk.lead, alike.current]
  cases spelling path with
  | error c => exact .error c
  | ok t =>
      simp only [bind, Except.bind]
      split
      · exact .error _
      · exact alike.leadFrom last 40 _ _

theorem isFolder (alike : d.Alike d') (path : Text) : d'.isFolder path = d.isFolder path := by
  have leads := alike.lead true path
  unfold Disk.isFolder Disk.entry
  generalize d.lead true path = a, d'.lead true path = b at leads
  cases leads with
  | error c => rfl
  | missing folder name => rfl
  | entry p same => cases same <;> rfl

theorem hasFile (alike : d.Alike d') (path : Text) : d'.hasFile path = d.hasFile path := by
  have leads := alike.lead true path
  unfold Disk.hasFile Disk.entry
  generalize d.lead true path = a, d'.lead true path = b at leads
  cases leads with
  | error c => rfl
  | missing folder name => rfl
  | entry p same => cases same <;> rfl

/-- A path that leads to a folder does so in every alike file tree. -/
theorem exists_folder (alike : d.Alike d') {path : Text} {es : List (Text × Entry)}
    (h : d.entry path = .ok (.folder es)) : ∃ es', d'.entry path = .ok (.folder es') := by
  have leads := alike.lead true path
  unfold Disk.entry at h ⊢
  generalize d.lead true path = a, d'.lead true path = b at leads h
  cases leads with
  | error c => simp at h
  | missing folder name => simp at h
  | entry p same =>
      obtain rfl := Except.ok.inj h
      cases same with
      | folder _ es' => exact ⟨es', rfl⟩

theorem resolveWith (alike : d.Alike d') {enter enter' : Place → Place → List Text → Resolution}
    (next : ∀ link start names, enter' link start names = enter link start names) (here : Place)
    (names : List Text) :
    Disk.resolveWith enter' d' here names = Disk.resolveWith enter d here names := by
  induction names generalizing here with
  | nil => rfl
  | cons name names ih =>
      rw [Disk.resolveWith, Disk.resolveWith]
      split
      · exact ih here
      · split
        · exact ih here.tail
        · have there := alike.entryAt? ((name :: here).map Name.respell)
          generalize d.entryAt? ((name :: here).map Name.respell) = found,
            d'.entryAt? ((name :: here).map Name.respell) = found' at there
          cases there with
          | link target => simp only [next, ih]
          | none => exact ih _
          | file bytes => exact ih _
          | folder es es' => exact ih _

theorem resolveFrom (alike : d.Alike d') (more : Nat) (inside : List Place) (here : Place)
    (names : List Text) :
    d'.resolveFrom more inside here names = d.resolveFrom more inside here names := by
  induction more generalizing inside here names with
  | zero => rfl
  | succ more ih =>
      rw [Disk.resolveFrom, Disk.resolveFrom]
      refine alike.resolveWith ?_ here names
      intro link start names
      rw [ih]

theorem expandHome (alike : d.Alike d') (p : Path) : d'.expandHome p = d.expandHome p := by
  unfold Disk.expandHome
  rw [alike.home]

theorem exists_entryAt?_iff (alike : d.Alike d') (p : Place) :
    (∃ e, d'.entryAt? p = some e) ↔ ∃ e, d.entryAt? p = some e := by
  have there := alike.entryAt? p
  generalize d.entryAt? p = found, d'.entryAt? p = found' at there
  cases there <;> simp

/-- A path to a folder has the same real place in alike file trees. -/
theorem realPlace (alike : d.Alike d') (wf : d.WellFormed) (wf' : d'.WellFormed) {p : Path}
    (proper : p.IsProper) {es : List (Text × Entry)} (h : d.entry p.toText = .ok (.folder es)) :
    d'.realPlace p = d.realPlace p := by
  obtain ⟨es', h'⟩ := alike.exists_folder h
  obtain ⟨top, place, -, resolves⟩ := exists_realPlace wf proper h (by simp [Entry.IsLink])
  obtain ⟨top', place', -, resolves'⟩ := exists_realPlace wf' proper h' (by simp [Entry.IsLink])
  have start : d'.startOf p = d.startOf p := by rw [startOf, startOf, alike.current]
  have first := resolves (Entry.linkCountAmong d.entries + Entry.linkCountAmong d'.entries + 1)
    (by omega)
  have second := resolves' (Entry.linkCountAmong d.entries + Entry.linkCountAmong d'.entries + 1)
    (by omega)
  rw [alike.resolveFrom, start, first, Resolution.mk.injEq] at second
  rw [place, place', second.1]

end Alike

end Disk

end RouteAtlas
