import RouteAtlas.Log.Message
import RouteAtlas.Proofs.Disk.Written
import RouteAtlas.Proofs.Results
import RouteAtlas.Proofs.Text.Surrogate
import RouteAtlas.Workspace

/-!
# Where records go

A log can be set up again and again. Each record goes where the last choice before it says: once to
the console if it matters enough for that choice, once to the file of that choice, and to no other
file (`Log.Runs.delivers`). Files are told apart by their places, so a file is the same however its
path is spelled, and a file that is chosen again goes on where it ended.
-/

namespace RouteAtlas

namespace Log

/-! ## What should be written -/

/-- How the log is to be set up. -/
structure Choice where
  verbose : Bool
  file : Option Text

/-- A message for a part of the log, with what comes first in a line at that time. The name of a
part begins with no dot. -/
structure Call where
  stamp : Text
  part : Text
  level : Level
  pattern : Text
  values : List Value
  noDot : part.head? ≠ some (CodePoint.ofChar '.')

/-- What can happen to a log. -/
inductive Event
  | setUp (choice : Choice)
  | call (c : Call)

/-- The record of a call, if its values fit its pattern. -/
def Call.record? (c : Call) : Option Record :=
  (fill c.pattern c.values).map fun message => ⟨partName c.part, c.level, message⟩

theorem Call.isOwn (c : Call) {r : Record} (h : c.record? = some r) : IsOwn r.name := by
  obtain ⟨message, -, rfl⟩ := Option.map_eq_some_iff.mp h
  exact isOwn_partName c.noDot

/-- The least level that the console shows. -/
def Choice.least (choice : Choice) : Level := if choice.verbose then .debug else .info

/-- The place of the file of a choice, if there is a file. -/
def Choice.place? (choice : Choice) (d : Disk) : Option Place :=
  choice.file.bind fun t => d.filePlace? (Workspace.placeOf d.current (Path.ofText t)).toText

/-- A record with its stamp and the choice in force when it came. -/
structure Logged where
  choice : Choice
  stamp : Text
  record : Record

namespace Logged

/-- What the console shows of a record. -/
def shown (l : Logged) : Text :=
  if l.choice.least ≤ l.record.level then
    "[docly] " ++ l.record.level.word ++ " " ++ l.record.message ++ "\n"
  else []

/-- The line of a record in a file. -/
def line (l : Logged) : Text :=
  l.stamp ++ l.record.level.word ++ " " ++ l.record.name ++ ": " ++ l.record.message ++ "\n"

/-- What the file at a place keeps of a record. -/
def kept (d : Disk) (p : Place) (l : Logged) : Text :=
  if l.choice.place? d = some p then l.line else []

end Logged

/-- The records of events, each with the last choice before it. -/
def logged (choice : Choice) : List Event → List Logged
  | [] => []
  | .setUp next :: es => logged next es
  | .call c :: es => (c.record?.map (⟨choice, c.stamp, ·⟩)).toList ++ logged choice es

/-! ## What is written -/

/-- What an event does to a workspace, when setting up succeeds, values fit their pattern, and what
goes to a file can be encoded. -/
inductive Step (w : Workspace) : Event → Workspace → Prop
  | setUp {choice : Choice} {w' : Workspace}
      (made : w.setUpLog choice.verbose choice.file = .ok w') : Step w (.setUp choice) w'
  | call {c : Call} {r : Record} (fits : c.record? = some r)
      (encodes : ∀ sink ∈ w.log.fileLine c.stamp r, sink.2.HasNoSurrogate) :
      Step w (.call c) ({ w with stamp := c.stamp }.record r)

/-- What events do to a workspace, one after the other. -/
inductive Runs : Workspace → List Event → Workspace → Prop
  | done (w : Workspace) : Runs w [] w
  | step {w v w' : Workspace} {e : Event} {es : List Event} (first : Step w e v)
      (rest : Runs v es w') : Runs w (e :: es) w'

/-! ## The sinks of a choice -/

theorem debug_le (level : Level) : Level.debug ≤ level := by
  cases level <;> decide

section Lines

variable (choice : Choice) (file : Option Place) (stamp : Text) {r : Record}

/-- The threshold of the whole log never hides what one of its sinks would take. -/
theorem consoleLine_setUp (own : IsOwn r.name) :
    ((setUp choice.verbose file).consoleLine r).getD [] = Logged.shown ⟨choice, stamp, r⟩ := by
  have least : (setUp choice.verbose file).least ≤ r.level ∨ ¬ choice.least ≤ r.level := by
    cases file with
    | none => exact Decidable.em _
    | some place => exact .inl (debug_le r.level)
  unfold consoleLine Logged.shown under
  rw [if_pos own]
  dsimp only
  by_cases enough : choice.least ≤ r.level
  · rw [if_pos (least.resolve_right (not_not_intro enough)), if_pos enough]
    exact congrArg (Option.getD · []) (if_pos enough)
  · rw [if_neg enough]
    split
    · exact congrArg (Option.getD · []) (if_neg enough)
    · rfl

theorem fileLine_setUp (own : IsOwn r.name) :
    (setUp choice.verbose file).fileLine stamp r =
      file.map fun place => (place, Logged.line ⟨choice, stamp, r⟩) := by
  unfold fileLine under
  rw [if_pos own]
  cases file with
  | none => exact ite_self none
  | some place => exact if_pos (debug_le r.level)

end Lines

/-- The log is set up by a choice, and its file is there. -/
structure InForce (choice : Choice) (w : Workspace) : Prop where
  current : w.disk.HasFolder w.disk.current
  log : w.log = .setUp choice.verbose
    (choice.file.map fun t => Workspace.placeOf w.disk.current (Path.ofText t))
  opened : choice.file.isSome → (choice.place? w.disk).isSome

theorem InForce.place?_eq {choice : Choice} {w : Workspace} (h : InForce choice w) {ps : List Place}
    {d : Disk} (only : Disk.OnlyWrites ps w.disk d) : choice.place? d = choice.place? w.disk := by
  cases file : choice.file with
  | none => simp only [Choice.place?, file, Option.bind_none]
  | some t =>
      obtain ⟨p, found⟩ := Option.isSome_iff_exists.mp (h.opened (by rw [file]; rfl))
      rw [found]
      rw [Choice.place?, file, Option.bind_some] at found ⊢
      rw [only.current]
      exact only.filePlace? h.current found

/-- A choice stays in force while files are written. -/
theorem InForce.after {choice : Choice} {w w' : Workspace} (h : InForce choice w) {ps : List Place}
    (only : Disk.OnlyWrites ps w.disk w'.disk) (log : w'.log = w.log) : InForce choice w' where
  current := only.hasCurrent h.current
  log := by rw [log, h.log, only.current]
  opened file := by
    rw [h.place?_eq only]
    exact h.opened file

/-! ## One event -/

/-- From the one workspace to the other, the console and each file grow by a text. -/
structure Grows (w w' : Workspace) (shown : Text) (kept : Place → Text) : Prop where
  console : w'.console = w.console ++ shown
  disk : ∃ ps, Disk.OnlyWrites ps w.disk w'.disk
  file : ∀ p, ∃ added, Utf8.encode? (kept p) = some added ∧
    w'.disk.bytesAt p = w.disk.bytesAt p ++ added

namespace Grows

variable {a b c : Workspace} {s t : Text} {k l : Place → Text}

theorem trans (first : Grows a b s k) (second : Grows b c t l) :
    Grows a c (s ++ t) fun p => k p ++ l p where
  console := by rw [second.console, first.console, List.append_assoc]
  disk := by
    obtain ⟨ps, only⟩ := first.disk
    obtain ⟨qs, more⟩ := second.disk
    exact ⟨ps ++ qs, only.trans more⟩
  file p := by
    obtain ⟨x, before, toMiddle⟩ := first.file p
    obtain ⟨y, after, toEnd⟩ := second.file p
    refine ⟨x ++ y, Utf8.encode?_append before after, ?_⟩
    rw [toEnd, toMiddle, ByteArray.append_assoc]

theorem of_bytesAt_eq {ps : List Place} (console : b.console = a.console)
    (only : Disk.OnlyWrites ps a.disk b.disk) (same : ∀ p, b.disk.bytesAt p = a.disk.bytesAt p) :
    Grows a b [] fun _ => [] where
  console := by rw [console, List.append_nil]
  disk := ⟨ps, only⟩
  file p := ⟨.empty, rfl, by rw [same, ByteArray.append_empty]⟩

theorem refl (w : Workspace) : Grows w w [] fun _ => [] :=
  of_bytesAt_eq rfl (.refl _) fun _ => rfl

end Grows

/-- A log with a file is set up only if all folders of the file can be made and it can be opened. -/
theorem eq_of_setUpLog {w w' : Workspace} {verbose : Bool} {t : Text}
    (made : w.setUpLog verbose (some t) = .ok w') :
    ∃ d, (w.disk.reachFolders (Path.ofText t).parent).disk.append
        (Workspace.placeOf (w.disk.reachFolders (Path.ofText t).parent).disk.current
          (Path.ofText t)).toText .empty = .ok d ∧
      w' = { w with
        disk := d
        log := .setUp verbose (some (Workspace.placeOf
          (w.disk.reachFolders (Path.ofText t).parent).disk.current (Path.ofText t))) } := by
  unfold Workspace.setUpLog Workspace.openLog at made
  dsimp only at made
  generalize w.disk.reachFolders (Path.ofText t).parent = folders at made ⊢
  obtain ⟨d, failure⟩ := folders
  cases failure with
  | some e => cases made
  | none =>
      dsimp only at made
      cases opened : d.append (Workspace.placeOf d.current (Path.ofText t)).toText .empty with
      | error e =>
          rw [opened] at made
          cases made
      | ok d' =>
          rw [opened] at made
          exact ⟨d', rfl, (Except.ok.inj made).symm⟩

/-- Setting the log up puts the choice in force, whatever was in force before, and every file keeps
what it held. -/
theorem setUpLog_eq_ok {choice : Choice} {w w' : Workspace}
    (current : w.disk.HasFolder w.disk.current)
    (made : w.setUpLog choice.verbose choice.file = .ok w') :
    Grows w w' [] (fun _ => []) ∧ InForce choice w' := by
  obtain ⟨verbose, file⟩ := choice
  cases file with
  | none =>
      obtain rfl := Except.ok.inj made
      exact ⟨.of_bytesAt_eq rfl (.refl _) fun _ => rfl, current, rfl, nofun⟩
  | some t =>
      obtain ⟨d', opened, rfl⟩ := eq_of_setUpLog made
      have above := Disk.onlyWrites_reachFolders current (Path.ofText t).parent
      obtain ⟨p, only, found, bytes⟩ := Disk.append_eq_ok (above.hasCurrent current) opened
      refine ⟨.of_bytesAt_eq rfl (above.trans only) fun q => ?_,
        only.hasCurrent (above.hasCurrent current), ?_, fun _ => ?_⟩
      · rw [bytes, ByteArray.append_empty, ite_self, above.bytesAt_eq (by simp)]
      · simp only [Option.map_some, only.current]
      · simp only [Choice.place?, Option.bind_some, only.current, found, Option.isSome_some]

/-- The file of the choice in force takes a line that can be encoded, behind what it holds. -/
theorem InForce.append_line {choice : Choice} {w : Workspace} (h : InForce choice w) {t : Text}
    (file : choice.file = some t) {line : Text} (plain : line.HasNoSurrogate) :
    ∃ p bytes d, choice.place? w.disk = some p ∧ Utf8.encode? line = some bytes ∧
      w.disk.append (Workspace.placeOf w.disk.current (Path.ofText t)).toText bytes = .ok d ∧
      Disk.OnlyWrites [p] w.disk d ∧
      ∀ q, d.bytesAt q = if q = p then w.disk.bytesAt q ++ bytes else w.disk.bytesAt q := by
  obtain ⟨p, found⟩ := Option.isSome_iff_exists.mp (h.opened (by rw [file]; rfl))
  have path := found
  rw [Choice.place?, file, Option.bind_some] at path
  obtain ⟨bytes, encoded⟩ := (Utf8.exists_encode?_iff line).mpr plain
  obtain ⟨d, appended⟩ := Disk.exists_append h.current path bytes
  obtain ⟨q, only, there, grown⟩ := Disk.append_eq_ok h.current appended
  -- the file was at its place before it was written
  obtain rfl : q = p := Option.some.inj (there.symm.trans (only.filePlace? h.current path))
  exact ⟨q, bytes, d, found, encoded, appended, only, grown⟩

/-- While a choice is in force, a record goes to its sinks and nowhere else, and the choice stays in
force. -/
theorem record_inForce {choice : Choice} {w : Workspace} (h : InForce choice w) {r : Record}
    (own : IsOwn r.name) (encodes : ∀ sink ∈ w.log.fileLine w.stamp r, sink.2.HasNoSurrogate) :
    Grows w (w.record r) (Logged.shown ⟨choice, w.stamp, r⟩)
        (fun p => Logged.kept (w.record r).disk p ⟨choice, w.stamp, r⟩) ∧
      InForce choice (w.record r) := by
  have console : (w.log.consoleLine r).getD [] = Logged.shown ⟨choice, w.stamp, r⟩ := by
    rw [h.log]
    exact consoleLine_setUp choice _ w.stamp own
  have sink : w.log.fileLine w.stamp r = choice.file.map fun t =>
      (Workspace.placeOf w.disk.current (Path.ofText t), Logged.line ⟨choice, w.stamp, r⟩) := by
    rw [h.log, fileLine_setUp choice _ _ own, Option.map_map]
    rfl
  cases file : choice.file with
  | none =>
      rw [file] at sink
      rw [Workspace.record_of_none sink, console]
      refine ⟨⟨rfl, ⟨[], .refl _⟩, fun p => ⟨.empty, ?_, ByteArray.append_empty.symm⟩⟩,
        h.after (.refl _) rfl⟩
      rw [Logged.kept, Choice.place?, file]
      rfl
  | some t =>
      rw [file] at sink
      rw [sink] at encodes
      obtain ⟨p, bytes, d, found, encoded, appended, only, grown⟩ :=
        h.append_line file (encodes _ rfl)
      have result : w.record r =
          { w.display (Logged.shown ⟨choice, w.stamp, r⟩) with disk := d } := by
        rw [Workspace.record_of_some sink, console]
        simp only [Workspace.append, encoded, Workspace.display, appended]
      rw [result]
      refine ⟨⟨rfl, ⟨_, only⟩, fun q => ?_⟩, h.after only rfl⟩
      rw [Logged.kept, h.place?_eq only, found, grown]
      by_cases here : q = p
      · rw [if_pos here, if_pos (congrArg some here.symm)]
        exact ⟨bytes, encoded, rfl⟩
      · rw [if_neg here, if_neg fun same => here (Option.some.inj same).symm]
        exact ⟨.empty, rfl, ByteArray.append_empty.symm⟩

/-! ## All events -/

/-- A call gives one record, and that goes where the choice in force says. -/
theorem Step.grows_call {choice : Choice} {w w' : Workspace} {c : Call} (h : InForce choice w)
    (step : Step w (.call c) w') :
    ∃ r, c.record? = some r ∧ Grows w w' (Logged.shown ⟨choice, c.stamp, r⟩)
      (fun p => Logged.kept w'.disk p ⟨choice, c.stamp, r⟩) ∧ InForce choice w' := by
  cases step with
  | call fits encodes =>
      have stamped : InForce choice { w with stamp := c.stamp } := ⟨h.current, h.log, h.opened⟩
      obtain ⟨grows, after⟩ := record_inForce stamped (c.isOwn fits) encodes
      exact ⟨_, fits, ⟨grows.console, grows.disk, grows.file⟩, after⟩

/-- While events follow each other, the console shows and the files keep what the records and the
choices in force ask for, and every chosen file is there. -/
theorem Runs.grows {choice : Choice} {w w' : Workspace} {es : List Event} (run : Runs w es w')
    (h : InForce choice w) :
    Grows w w' ((logged choice es).flatMap Logged.shown)
        (fun p => (logged choice es).flatMap (Logged.kept w'.disk p)) ∧
      ∀ l ∈ logged choice es, l.choice.file.isSome → (l.choice.place? w'.disk).isSome := by
  induction run generalizing choice with
  | done w => exact ⟨.refl w, nofun⟩
  | @step w v w' e es first rest ih =>
      cases e with
      | setUp next =>
          cases first with
          | setUp made =>
              obtain ⟨kept, after⟩ := setUpLog_eq_ok h.current made
              obtain ⟨grows, opened⟩ := ih after
              exact ⟨kept.trans grows, opened⟩
      | call c =>
          obtain ⟨r, fits, grown, after⟩ := first.grows_call h
          obtain ⟨grows, opened⟩ := ih after
          obtain ⟨ps, only⟩ := grows.disk
          -- nothing that comes later moves the file of this choice
          have same := after.place?_eq only
          have records : logged choice (.call c :: es) =
              ⟨choice, c.stamp, r⟩ :: logged choice es := by
            rw [logged, fits]
            rfl
          simp only [Logged.kept, ← same] at grown
          rw [records]
          refine ⟨grown.trans grows, List.forall_mem_cons.mpr ⟨fun file => ?_, opened⟩⟩
          rw [same]
          exact after.opened file

/-- From the first set-up on, the console shows each record that matters enough for the choice in
force, once and in order, and nothing else. Each file ends with the lines, once and in order, of all
records for which the choice in force named it, behind what it held at first; a choice that names a
file has one. -/
theorem Runs.delivers {w w' : Workspace} {choice : Choice} {es : List Event}
    (run : Runs w (.setUp choice :: es) w') (current : w.disk.HasFolder w.disk.current) :
    w'.console = w.console ++ (logged choice es).flatMap Logged.shown ∧
      (∀ l ∈ logged choice es, l.choice.file.isSome → (l.choice.place? w'.disk).isSome) ∧
      ∀ p, ∃ added,
        Utf8.encode? ((logged choice es).flatMap (Logged.kept w'.disk p)) = some added ∧
        w'.disk.bytesAt p = w.disk.bytesAt p ++ added := by
  cases run with
  | step first rest =>
      cases first with
      | setUp made =>
          obtain ⟨kept, after⟩ := setUpLog_eq_ok current made
          obtain ⟨grows, opened⟩ := rest.grows after
          have all := kept.trans grows
          exact ⟨all.console, opened, all.file⟩

/-- A folder whose log file holds a text. -/
def folderWithLog (content : String) : Disk :=
  ⟨[("p", .folder [("a.log", .file content.toUTF8)])], ["p"], "/p"⟩

/-- A log loses its file and gets it again, under another spelling of its path. -/
def resumed : List Event := [
  .call ⟨"t1 ", "scanner", .debug, "one", [], by decide⟩,
  .setUp ⟨false, none⟩,
  .call ⟨"t2 ", "", .debug, "two", [], by decide⟩,
  .call ⟨"t3 ", "", .error, "three", [], by decide⟩,
  .setUp ⟨false, some "/p//a.log"⟩,
  .call ⟨"t4 ", "x", .debug, "%d of %s", [.int 4, .text "four"], by decide⟩]

theorem runs_resumed :
    Runs (.ofDisk (folderWithLog "old\n") "") (.setUp ⟨true, some "a.log"⟩ :: resumed)
      ⟨folderWithLog "old\nt1 DEBUG docly.scanner: one\nt4 DEBUG docly.x: 4 of four\n",
        .setUp false (some ["a.log", "p"]), "[docly] DEBUG one\n[docly] ERROR three\n", "t4 "⟩ := by
  let before := folderWithLog "old\n"
  let between := folderWithLog "old\nt1 DEBUG docly.scanner: one\n"
  let shown : Text := "[docly] DEBUG one\n"
  let all : Text := "[docly] DEBUG one\n[docly] ERROR three\n"
  refine .step (v := ⟨before, .setUp true (some ["a.log", "p"]), [], ""⟩) (.setUp rfl) ?_
  refine .step (v := ⟨between, .setUp true (some ["a.log", "p"]), shown, "t1 "⟩)
    (.call (r := ⟨"docly.scanner", .debug, "one"⟩) rfl (by decide)) ?_
  refine .step (v := ⟨between, .setUp false none, shown, "t1 "⟩) (.setUp rfl) ?_
  refine .step (v := ⟨between, .setUp false none, shown, "t2 "⟩)
    (.call (r := ⟨"docly", .debug, "two"⟩) rfl (by decide)) ?_
  refine .step (v := ⟨between, .setUp false none, all, "t3 "⟩)
    (.call (r := ⟨"docly", .error, "three"⟩) rfl (by decide)) ?_
  refine .step (v := ⟨between, .setUp false (some ["a.log", "p"]), all, "t3 "⟩) (.setUp rfl) ?_
  exact .step (.call (r := ⟨"docly.x", .debug, "4 of four"⟩) rfl (by decide)) (.done _)

/-- The file keeps the first record and the last, and the console shows the first and the third. -/
theorem delivers_resumed :
    (folderWithLog "old\n").HasFolder ["p"] ∧
      ∃ w', Runs (.ofDisk (folderWithLog "old\n") "") (.setUp ⟨true, some "a.log"⟩ :: resumed) w' ∧
        w'.console = "[docly] DEBUG one\n[docly] ERROR three\n" ∧
        w'.disk.bytesAt ["a.log", "p"] =
          "old\nt1 DEBUG docly.scanner: one\nt4 DEBUG docly.x: 4 of four\n".toUTF8 := by
  have current : (folderWithLog "old\n").HasFolder ["p"] := ⟨_, rfl⟩
  obtain ⟨console, -, files⟩ := runs_resumed.delivers current
  obtain ⟨added, encoded, bytes⟩ := files ["a.log", "p"]
  have lines : added = "t1 DEBUG docly.scanner: one\nt4 DEBUG docly.x: 4 of four\n".toUTF8 :=
    Option.some.inj (encoded.symm.trans (by rfl))
  refine ⟨current, _, runs_resumed, console.trans (by rfl), bytes.trans ?_⟩
  rw [lines]
  rfl

end Log

end RouteAtlas
