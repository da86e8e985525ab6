import RouteAtlas.Proofs.Disk.Written
import RouteAtlas.Proofs.Run.Publish

/-!
# Publishing that fails

The two files of a document are written in place, one after the other, and nothing is taken back.
So a failure before the JSON file is open leaves all files as they were, and one after it leaves the
JSON file with its new text. From then on only the page's file can be the reason: it cannot be
opened, or its text cannot be encoded and it is left empty. Making the page itself does not fail any
more, since it shows fewer numbers than the JSON text.
-/

namespace RouteAtlas

/-- Where there is a JSON text there is a page. -/
theorem Document.exists_page_of_jsonText {d : Document} {s : String} (h : d.jsonText = .ok s) :
    ∃ t, d.page = .ok t := by
  have short := d.exists_jsonText_iff.mp ⟨s, h⟩
  obtain ⟨ps, parts⟩ :=
    (Page.exists_parts_iff d).mpr ⟨short .portNumber, short .host, short .backlog⟩
  exact ⟨Markup.render ps, by rw [page, parts]; rfl⟩

namespace Run

section Steps

variable {ε α β : Type} {w w' : Workspace} {e : RunError}

/-- A failed sequence fails in its first step or behind it. -/
theorem run_bind_failed {x : Run α} {f : α → Run β} (h : (x >>= f).run.run w = (.error e, w')) :
    x.run.run w = (.error e, w') ∨
      ∃ a v, x.run.run w = (.ok a, v) ∧ (f a).run.run v = (.error e, w') := by
  generalize first : x.run.run w = r at h
  obtain ⟨error | a, v⟩ := r
  · rw [run_bind_error first] at h
    obtain ⟨same, rfl⟩ := Prod.mk.inj h
    exact .inl (by rw [Except.error.inj same])
  · rw [run_bind_ok first] at h
    exact .inr ⟨a, v, rfl, h⟩

theorem run_lift_failed {explain : ε → RunError} {r : Except ε α}
    (h : (lift explain r).run.run w = (.error e, w')) : ∃ c, r = .error c ∧ w' = w := by
  cases r with
  | error c => exact ⟨c, rfl, (Prod.mk.inj h).2.symm⟩
  | ok a => cases h

theorem eq_of_run_lift {explain : ε → RunError} {r : Except ε α} {a : α}
    (h : (lift explain r).run.run w = (.ok a, w')) : r = .ok a ∧ w' = w := by
  cases r with
  | error c => cases h
  | ok b =>
      obtain ⟨same, rfl⟩ := Prod.mk.inj h
      exact ⟨by rw [Except.ok.inj same], rfl⟩

theorem run_change_error {f : Disk → Except FileError Disk} {c : FileError}
    (h : f w.disk = .error c) : (change f).run.run w = (.error (.file c), w) := by
  have lifted : (lift .file (f w.disk)).run.run w = (.error (.file c), w) := by
    rw [h]
    rfl
  have step : (get : Run Workspace).run.run w = (.ok w, w) := rfl
  unfold change
  rw [run_bind_ok step]
  exact run_bind_error lifted

theorem run_writeText_error {p : Path} {t : Text} {c : FileError}
    (h : ∀ bytes, w.disk.write p.toText bytes = .error c) :
    (writeText p t).run.run w = (.error (.file c), w) := by
  unfold writeText
  cases Utf8.encode? t with
  | some bytes => exact run_change_error (h bytes)
  | none => exact run_bind_error (run_change_error (h .empty))

theorem run_change_failed {f : Disk → Except FileError Disk}
    (h : (change f).run.run w = (.error e, w')) : ∃ c, f w.disk = .error c ∧ w' = w := by
  cases changed : f w.disk with
  | error c =>
      rw [run_change_error changed] at h
      exact ⟨c, rfl, (Prod.mk.inj h).2.symm⟩
  | ok d =>
      rw [run_change changed] at h
      cases h

theorem exists_of_run_change {f : Disk → Except FileError Disk} {u : Unit}
    (h : (change f).run.run w = (.ok u, w')) :
    ∃ d, f w.disk = .ok d ∧ w' = { w with disk := d } := by
  cases changed : f w.disk with
  | error c =>
      rw [run_change_error changed] at h
      cases h
  | ok d =>
      rw [run_change changed] at h
      exact ⟨d, rfl, (Prod.mk.inj h).2.symm⟩

/-- Folders that have been made stay where the next one cannot be made. -/
theorem run_makeFolders_error {p : Path} {c : FileError} (h : w.disk.ensureFolders p = .error c) :
    (makeFolders p).run.run w =
      (.error (.file c), { w with disk := (w.disk.reachFolders p).disk }) := by
  have failure : (w.disk.reachFolders p).failure = some c := Reached.result_eq_error h
  have start : (get : Run Workspace).run.run w = (.ok w, w) := rfl
  unfold makeFolders
  rw [run_bind_ok start]
  dsimp only
  rw [failure]
  exact run_bind_ok rfl

theorem run_makeFolders_failed {p : Path} (h : (makeFolders p).run.run w = (.error e, w')) :
    ∃ c, w.disk.ensureFolders p = .error c ∧
      w' = { w with disk := (w.disk.reachFolders p).disk } := by
  cases made : w.disk.ensureFolders p with
  | error c =>
      rw [run_makeFolders_error made] at h
      exact ⟨c, rfl, (Prod.mk.inj h).2.symm⟩
  | ok d =>
      rw [run_makeFolders made] at h
      cases h

theorem exists_of_run_makeFolders {p : Path} {u : Unit}
    (h : (makeFolders p).run.run w = (.ok u, w')) :
    ∃ d, w.disk.ensureFolders p = .ok d ∧ w' = { w with disk := d } := by
  cases made : w.disk.ensureFolders p with
  | error c =>
      rw [run_makeFolders_error made] at h
      cases h
  | ok d =>
      rw [run_makeFolders made] at h
      exact ⟨d, rfl, (Prod.mk.inj h).2.symm⟩

/-- Writing a text fails if its file cannot be opened, and then nothing changes, or if it cannot be
encoded, and then its file is empty. -/
theorem run_writeText_failed (current : w.disk.HasFolder w.disk.current) {p : Path} {t : Text}
    (h : (writeText p t).run.run w = (.error e, w')) :
    (¬ w.disk.CanWrite p.toText ∧ w' = w) ∨
      (Utf8.encode? t = none ∧ ∃ q, Disk.OnlyWrites [q] w.disk w'.disk ∧
        w'.disk.lead true p.toText = .ok (.entry q (.file .empty))) := by
  have closed {bytes : ByteArray} {c : FileError}
      (refused : w.disk.write p.toText bytes = .error c) : ¬ w.disk.CanWrite p.toText := by
    rw [← Disk.exists_write_iff _ bytes, refused]
    simp
  unfold writeText at h
  cases encoded : Utf8.encode? t with
  | some bytes =>
      rw [encoded] at h
      obtain ⟨c, refused, rfl⟩ := run_change_failed h
      exact .inl ⟨closed refused, rfl⟩
  | none =>
      rw [encoded] at h
      obtain refused | ⟨⟨⟩, v, opened, thrown⟩ := run_bind_failed h
      · obtain ⟨c, refused, rfl⟩ := run_change_failed refused
        exact .inl ⟨closed refused, rfl⟩
      · obtain ⟨d, written, rfl⟩ := exists_of_run_change opened
        obtain ⟨-, rfl⟩ := Prod.mk.inj thrown
        obtain ⟨q, only, found⟩ := Disk.write_eq_ok current written
        exact .inr ⟨rfl, q, only, found⟩

/-- A text that is written is encoded, and its file holds all of it. -/
theorem exists_of_run_writeText (current : w.disk.HasFolder w.disk.current) {p : Path} {t : Text}
    {u : Unit} (h : (writeText p t).run.run w = (.ok u, w')) :
    ∃ bytes q, Utf8.encode? t = some bytes ∧ Disk.OnlyWrites [q] w.disk w'.disk ∧
      w'.disk.lead true p.toText = .ok (.entry q (.file bytes)) := by
  unfold writeText at h
  cases encoded : Utf8.encode? t with
  | some bytes =>
      rw [encoded] at h
      obtain ⟨d, written, rfl⟩ := exists_of_run_change h
      obtain ⟨q, only, found⟩ := Disk.write_eq_ok current written
      exact ⟨bytes, q, rfl, only, found⟩
  | none =>
      rw [encoded] at h
      generalize first : (change fun d => d.write p.toText .empty).run.run w = r at h
      obtain ⟨error | a, v⟩ := r
      · rw [run_bind_error first] at h
        cases h
      · rw [run_bind_ok first] at h
        cases h

end Steps

/-- Where publishing writes the two files. -/
def outputAt (names : OutputNames) (folder : Option Text) (d : Disk) : Output :=
  ⟨outputFolder d folder ++ Path.ofText names.json, outputFolder d folder ++ Path.ofText names.html⟩

/-- Publishing that fails has written nothing, and at most added folders, if the folder could not be
made, if there is no JSON text, or if its file could not be opened. Otherwise the JSON file has its
whole new text, and either the page's file could not be opened and no other file is touched, or the
page cannot be encoded and its file is empty. -/
theorem publish_failed {names : OutputNames} {folder : Option Text} {document : Document}
    {w w' : Workspace} {e : RunError} (current : w.disk.HasFolder w.disk.current)
    (failed : (publish names folder document).run.run w = (.error e, w')) :
    (Disk.OnlyWrites [] w.disk w'.disk ∧
      ((∃ c, w.disk.ensureFolders (outputFolder w.disk folder) = .error c) ∨
        (∃ c, document.jsonText = .error c) ∨
        ¬ w'.disk.CanWrite (outputAt names folder w.disk).json.toText)) ∨
    ∃ s bytes p, document.jsonText = .ok s ∧ Utf8.encode? s = some bytes ∧
      ((Disk.OnlyWrites [p] w.disk w'.disk ∧
          w'.disk.lead true (outputAt names folder w.disk).json.toText =
            .ok (.entry p (.file bytes)) ∧
          ¬ w'.disk.CanWrite (outputAt names folder w.disk).page.toText) ∨
        ∃ t q, document.page = .ok t ∧ Utf8.encode? t = none ∧
          Disk.OnlyWrites [p, q] w.disk w'.disk ∧
          w'.disk.lead true (outputAt names folder w.disk).page.toText =
            .ok (.entry q (.file .empty)) ∧
          (p ≠ q → w'.disk.lead true (outputAt names folder w.disk).json.toText =
            .ok (.entry p (.file bytes)))) := by
  have start : (get : Run Workspace).run.run w = (.ok w, w) := rfl
  unfold publish at failed
  rw [run_bind_ok start] at failed
  obtain stopped | ⟨⟨⟩, v, entered, rest⟩ := run_bind_failed failed
  · obtain ⟨c, unmade, rfl⟩ := run_makeFolders_failed stopped
    exact .inl ⟨Disk.onlyWrites_reachFolders current _, .inl ⟨c, unmade⟩⟩
  obtain ⟨made, folders, rfl⟩ := exists_of_run_makeFolders entered
  have added := Disk.ensureFolders_eq_ok current folders
  dsimp only [outputAt] at rest ⊢
  obtain stopped | ⟨s, v, told, rest'⟩ := run_bind_failed rest
  · obtain ⟨c, untold, rfl⟩ := run_lift_failed stopped
    exact .inl ⟨added, .inr (.inl ⟨c, untold⟩)⟩
  obtain ⟨json, rfl⟩ := eq_of_run_lift told
  obtain stopped | ⟨⟨⟩, half, first, rest''⟩ := run_bind_failed rest'
  · obtain ⟨closed, rfl⟩ | ⟨broken, -⟩ := run_writeText_failed (added.hasCurrent current) stopped
    · exact .inl ⟨added, .inr (.inr closed)⟩
    · obtain ⟨bytes, encoded⟩ := (Utf8.exists_encode?_iff s).mpr (Text.hasNoSurrogate_ofString s)
      rw [encoded] at broken
      cases broken
  obtain ⟨bytes, p, encoded, only, found⟩ :=
    exists_of_run_writeText (added.hasCurrent current) first
  have both := added.trans only
  have there := both.hasCurrent current
  refine .inr ⟨s, bytes, p, json, encoded, ?_⟩
  obtain stopped | ⟨t, v, drawn, last⟩ := run_bind_failed rest''
  · obtain ⟨c, undrawn, -⟩ := run_lift_failed stopped
    obtain ⟨t, page⟩ := Document.exists_page_of_jsonText json
    rw [undrawn] at page
    cases page
  obtain ⟨page, rfl⟩ := eq_of_run_lift drawn
  obtain stopped | ⟨⟨⟩, v, -, logged⟩ := run_bind_failed last
  · obtain ⟨closed, rfl⟩ | ⟨broken, q, emptied, found'⟩ := run_writeText_failed there stopped
    · exact .inl ⟨both, found, closed⟩
    · refine .inr ⟨t, q, page, broken, both.trans emptied, found', fun other => ?_⟩
      exact emptied.lead_file there found (by simpa using other)
  · cases logged

/-- How publishing ends if only the page's file cannot be opened. -/
theorem run_publish_closed {names : OutputNames} {folder : Option Text} {document : Document}
    {w : Workspace} {made half : Disk} {s : String} {bytes : ByteArray}
    (folders : w.disk.ensureFolders (outputFolder w.disk folder) = .ok made)
    (json : document.jsonText = .ok s) (encoded : Utf8.encode? s = some bytes)
    (written : made.write (outputAt names folder w.disk).json.toText bytes = .ok half)
    (closed : ¬ half.CanWrite (outputAt names folder w.disk).page.toText) :
    ∃ c, (publish names folder document).run.run w =
      (.error (.file c), { w with disk := half }) := by
  have start : (get : Run Workspace).run.run w = (.ok w, w) := rfl
  obtain ⟨t, page⟩ := Document.exists_page_of_jsonText json
  have first : (writeText (outputFolder w.disk folder ++ Path.ofText names.json) s).run.run
      { w with disk := made } = (.ok (), { w with disk := half }) :=
    run_writeText encoded written
  unfold publish
  rw [run_bind_ok start, run_bind_ok (run_makeFolders folders)]
  dsimp only
  rw [json, page, run_bind_ok (run_lift_ok _ s), run_bind_ok first, run_bind_ok (run_lift_ok _ t)]
  obtain ⟨c, refused⟩ := Disk.write_eq_error closed
  have stopped : (writeText (outputFolder w.disk folder ++ Path.ofText names.html) t).run.run
      { w with disk := half } = (.error (.file c), { w with disk := half }) :=
    run_writeText_error refused
  exact ⟨c, run_bind_error stopped⟩

/-- Names of the two files, with the page in a folder that is not made. -/
def strayNames : OutputNames := ⟨"output.json", "pages/apidoc.html"⟩

/-- A folder with a JSON file. -/
def jsonFolder (bytes : ByteArray) : Disk := folderWith [("output.json", .file bytes)]

theorem not_canWrite_strayPage (bytes : ByteArray) :
    ¬ (jsonFolder bytes).CanWrite (outputAt strayNames none (jsonFolder bytes)).page.toText := by
  rintro ⟨d, opened⟩
  cases opened

/-- The JSON text of no facts, as bytes, begins with a brace. -/
theorem exists_emptyJson : ∃ s bytes, (Document.ofFacts []).jsonText = .ok s ∧
    Utf8.encode? s = some bytes ∧ bytes.data.toList.head? = some 0x7B := by
  obtain ⟨rest, printed⟩ :
      ∃ rest, Json.printAt 0 (Document.ofFacts []).toJson = .ok ('\x7b' :: rest) := ⟨_, rfl⟩
  have text : (Document.ofFacts []).jsonText = .ok (String.ofList ('\x7b' :: rest)) := by
    rw [Document.jsonText, Json.print, printed]
    rfl
  obtain ⟨bytes, encoded⟩ := (Utf8.exists_encode?_iff (String.ofList ('\x7b' :: rest))).mpr
    (Text.hasNoSurrogate_ofString _)
  refine ⟨_, bytes, text, encoded, ?_⟩
  rw [Text.ofString, String.toList_ofList, Utf8.encode?] at encoded
  split at encoded
  · cases encoded
  · obtain rfl := Option.some.inj encoded
    rfl

theorem exists_run_stray : ∃ s bytes c, (Document.ofFacts []).jsonText = .ok s ∧
    Utf8.encode? s = some bytes ∧ bytes ≠ "old".toUTF8 ∧
    (publish strayNames none (.ofFacts [])).run.run (.ofDisk (jsonFolder "old".toUTF8) "") =
      (.error (.file c), .ofDisk (jsonFolder bytes) "") := by
  obtain ⟨s, bytes, text, encoded, front⟩ := exists_emptyJson
  let start : Workspace := .ofDisk (jsonFolder "old".toUTF8) ""
  have folders : start.disk.ensureFolders (outputFolder start.disk none) = .ok start.disk := rfl
  have written : start.disk.write (outputAt strayNames none start.disk).json.toText bytes =
      .ok (jsonFolder bytes) := rfl
  obtain ⟨c, ended⟩ :=
    run_publish_closed folders text encoded written (not_canWrite_strayPage bytes)
  refine ⟨s, bytes, c, text, encoded, ?_, ended⟩
  rintro rfl
  exact absurd front (by decide)

/-- Publishing fails where the page has no folder, and only the JSON file is written. -/
theorem publish_failed_stray : ∃ e w' s bytes p,
    (publish strayNames none (.ofFacts [])).run.run (.ofDisk (jsonFolder "old".toUTF8) "") =
      (.error e, w') ∧
    (Document.ofFacts []).jsonText = .ok s ∧ Utf8.encode? s = some bytes ∧
    Disk.OnlyWrites [p] (jsonFolder "old".toUTF8) w'.disk ∧
    w'.disk.lead true "/p/output.json" = .ok (.entry p (.file bytes)) := by
  obtain ⟨s, bytes, c, text, -, -, ended⟩ := exists_run_stray
  have current : (jsonFolder "old".toUTF8).HasFolder (jsonFolder "old".toUTF8).current := ⟨_, rfl⟩
  obtain ⟨-, reason⟩ | ⟨s, bytes, p, text, encoded, ending⟩ :=
    publish_failed (w := .ofDisk (jsonFolder "old".toUTF8) "") current ended
  · obtain ⟨c, unmade⟩ | ⟨c, untold⟩ | closed := reason
    · cases unmade
    · rw [text] at untold
      cases untold
    · exact absurd ⟨_, rfl⟩ closed
  · obtain ⟨only, found, -⟩ | ⟨t, q, -, -, -, opened, -⟩ := ending
    · exact ⟨_, _, s, bytes, p, ended, text, encoded, only, found⟩
    · cases opened

/-- Publishing fails, and an old JSON file has a new text. -/
theorem publish_replaces : ∃ e w' bytes,
    (publish strayNames none (.ofFacts [])).run.run (.ofDisk (jsonFolder "old".toUTF8) "") =
      (.error e, w') ∧
    (jsonFolder "old".toUTF8).read "output.json" = .ok "old".toUTF8 ∧
    w'.disk.read "output.json" = .ok bytes ∧ bytes ≠ "old".toUTF8 := by
  obtain ⟨s, bytes, c, -, -, other, ended⟩ := exists_run_stray
  exact ⟨_, _, bytes, ended, rfl, rfl, other⟩

end Run

end RouteAtlas
