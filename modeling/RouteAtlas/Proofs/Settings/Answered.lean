import RouteAtlas.Command
import RouteAtlas.Proofs.Run.Publish
import RouteAtlas.Proofs.Settings.Fields

/-!
# Answers to settings files

A settings file that is there and can be read is reported on, with settings or with an error that
has a message, unless it is no UTF-8, its parser fails in another way than by refusing the text, or
an integer beyond the digit limit is asked for its text. With an error a command ends with the
message and a status. The message is one line exactly if the name of the file is and what the parser
says of the text is, so an answer in one line also depends on the words of the parser.
-/

namespace RouteAtlas

/-- No line ends inside the text. -/
def Text.IsOneLine (t : Text) : Prop :=
  CodePoint.ofChar '\n' ∉ t ∧ CodePoint.ofChar '\r' ∉ t

instance (t : Text) : Decidable t.IsOneLine := inferInstanceAs (Decidable (_ ∧ _))

theorem Text.isOneLine_append {a b : Text} : (a ++ b).IsOneLine ↔ a.IsOneLine ∧ b.IsOneLine := by
  simp only [IsOneLine, List.mem_append, not_or]
  exact and_and_and_comm

/-- Whether an error has a message does not depend on the words in it. -/
theorem SettingsError.isSome_message? (e : SettingsError) (words : Settings.Words) :
    (e.message? words).isSome = e.message?.isSome := by
  cases e <;> rfl

namespace Settings

/-- There is a result, or an error with a message. -/
def IsReported {α : Type} (r : Except SettingsError α) : Prop :=
  (∃ a, r = .ok a) ∨ ∃ e, r = .error e ∧ e.message?.isSome = true

/-- There is a result, or an error whose message is one line. -/
def IsAnswer {α : Type} (words : Words) (r : Except SettingsError α) : Prop :=
  (∃ a, r = .ok a) ∨ ∃ e message, r = .error e ∧ e.message? words = some message ∧ message.IsOneLine

/-- The format of a file with a name. -/
def formatOf (name : Text) : Format :=
  if Text.asciiLower (Path.extensionOf name) = Text.ofString ".json" then .json else .yaml

/-- A file with a name has a text that its parser refuses. -/
def refusal (name text : Text) : Refusal := ⟨name, .text (formatOf name) text⟩

/-- The message of a refusal is one line exactly if the name of the file and the words are. -/
theorem isOneLine_message_iff {r : Refusal} {front : Text} (oneLine : front.IsOneLine)
    (words : Words) :
    (r.message front words).IsOneLine ↔
      r.name.IsOneLine ∧ ∀ said, words r.obstacle = some said → said.IsOneLine := by
  have colon : Text.IsOneLine ": " := by decide
  rw [Refusal.message, Text.isOneLine_append, Text.isOneLine_append, and_iff_right oneLine]
  refine and_congr_right fun _ => ?_
  cases words r.obstacle with
  | none => exact iff_of_true (by decide) nofun
  | some said =>
      rw [Text.isOneLine_append, and_iff_right colon]
      exact ⟨fun h _ same => Option.some.inj same ▸ h, fun h => h said rfl⟩

/-- The data of a text. The name of its file decides on the parser. -/
def dataOfText (name text : Text) : Except SettingsError Data :=
  if text.strip = [] then .ok (.mapping [])
  else if Text.asciiLower (Path.extensionOf name) = Text.ofString ".json" then jsonData name text
  else yamlData name text

/-- The parser gives data or refuses the text, and fails in no other way. -/
def ParsesOrRefuses (name text : Text) : Prop :=
  ∀ e, dataOfText name text = .error e → e = .unparsable (refusal name text)

/-- The settings that a file's data give, if it has data. -/
def ofParsed (name : Text) : Except SettingsError Data → Except SettingsError Settings
  | .error e => .error e
  | .ok (.mapping es) =>
    match ofData (.mapping es) with
    | .ok s => .ok s
    | .error .tooManyDigits => .error .tooManyDigits
  | .ok _ => .error (.notMapping name)

theorem ofBytes_eq (name : Text) (bytes : ByteArray) :
    ofBytes name bytes = ofParsed name (data name bytes) := by
  rw [ofBytes]
  cases data name bytes with
  | error e => rfl
  | ok d => cases d <;> rfl

theorem data_eq (name : Text) (bytes : ByteArray) :
    data name bytes =
      match Utf8.decode? bytes with
      | none => .error .badEncoding
      | some t => dataOfText name (Text.unifyLineEnds t) := rfl

/-- An error of a parser is the refusal of the text, or it has no message. -/
theorem message?_of_dataOfText {name text : Text} {e : SettingsError}
    (h : dataOfText name text = .error e) :
    e = .unparsable (refusal name text) ∨ e.message? = none := by
  rw [dataOfText] at h
  split at h
  · cases h
  · split at h
    · next isJson =>
        have format : formatOf name = .json := if_pos isJson
        rw [jsonData] at h
        rw [refusal, format]
        split at h
        · exact .inl (Except.error.inj h).symm
        · obtain rfl := Except.error.inj h
          exact .inr rfl
        · cases h
    · next other =>
        have format : formatOf name = .yaml := if_neg other
        rw [yamlData] at h
        rw [refusal, format]
        split at h
        · exact .inl (Except.error.inj h).symm
        · exact .inl (Except.error.inj h).symm
        · obtain rfl := Except.error.inj h
          exact .inr rfl
        · obtain rfl := Except.error.inj h
          exact .inr rfl
        · cases h
        · split at h
          · exact .inl (Except.error.inj h).symm
          · obtain rfl := Except.error.inj h
            exact .inr rfl
          · cases h
          · cases h

theorem parsesOrRefuses_iff (name text : Text) :
    ParsesOrRefuses name text ↔
      ∀ e, dataOfText name text = .error e → e.message?.isSome = true := by
  refine forall_congr' fun e => forall_congr' fun failed => ?_
  obtain rfl | silent := message?_of_dataOfText failed
  · exact iff_of_true rfl rfl
  · refine iff_of_false ?_ (by rw [silent]; exact nofun)
    rintro rfl
    cases silent

section Reported

variable {α β : Type} {f : α → β} {words : Words} {r : Except SettingsError α} {e : SettingsError}

theorem isReported_error_iff :
    IsReported (.error e : Except SettingsError α) ↔ e.message?.isSome = true := by
  simp [IsReported]

theorem isAnswer_error_iff :
    IsAnswer words (.error e : Except SettingsError α) ↔
      ∃ message, e.message? words = some message ∧ message.IsOneLine := by
  simp [IsAnswer]

theorem isReported_map : IsReported (r.map f) ↔ IsReported r := by
  cases r with
  | ok a => exact iff_of_true (.inl ⟨_, rfl⟩) (.inl ⟨a, rfl⟩)
  | error e => exact isReported_error_iff.trans isReported_error_iff.symm

theorem isAnswer_map : IsAnswer words (r.map f) ↔ IsAnswer words r := by
  cases r with
  | ok a => exact iff_of_true (.inl ⟨_, rfl⟩) (.inl ⟨a, rfl⟩)
  | error e => exact isAnswer_error_iff.trans isAnswer_error_iff.symm

theorem map_eq_error_iff : r.map f = .error e ↔ r = .error e := by
  cases r <;> simp [Except.map]

end Reported

theorem isReported_ofParsed_iff (name : Text) (r : Except SettingsError Data) :
    IsReported (ofParsed name r) ↔ (∀ e, r = .error e → e.message?.isSome = true) ∧
      ∀ es, r = .ok (.mapping es) → (Data.mapping es).AsksShort := by
  match r with
  | .error e => simp [ofParsed, isReported_error_iff]
  | .ok (.mapping es) =>
      have fields := exists_ofData_iff (.mapping es)
      have report : IsReported (ofParsed name (.ok (.mapping es))) ↔
          ∃ s, ofData (.mapping es) = .ok s := by
        rw [ofParsed]
        cases ofData (.mapping es) with
        | ok s => exact iff_of_true (.inl ⟨s, rfl⟩) ⟨s, rfl⟩
        | error e =>
            obtain ⟨⟩ := e
            exact iff_of_false (isReported_error_iff.not.mpr nofun) nofun
      rw [report, fields]
      exact ⟨fun short => ⟨nofun, fun _ same => by cases same; exact short⟩, fun h => h.2 es rfl⟩
  | .ok (.value _) => exact iff_of_true (isReported_error_iff.mpr rfl) ⟨nofun, nofun⟩
  | .ok (.bytes _) => exact iff_of_true (isReported_error_iff.mpr rfl) ⟨nofun, nofun⟩
  | .ok .moment => exact iff_of_true (isReported_error_iff.mpr rfl) ⟨nofun, nofun⟩
  | .ok (.list _) => exact iff_of_true (isReported_error_iff.mpr rfl) ⟨nofun, nofun⟩
  | .ok .set => exact iff_of_true (isReported_error_iff.mpr rfl) ⟨nofun, nofun⟩

/-- The bytes of a file are reported on unless they are no text, the parser fails on it, or an
integer has too many digits. -/
theorem isReported_ofBytes_iff (name : Text) (bytes : ByteArray) :
    IsReported (ofBytes name bytes) ↔ ∃ t, Utf8.decode? bytes = some t ∧
      ParsesOrRefuses name (Text.unifyLineEnds t) ∧
      ∀ es, dataOfText name (Text.unifyLineEnds t) = .ok (.mapping es) →
        (Data.mapping es).AsksShort := by
  rw [ofBytes_eq, data_eq]
  cases Utf8.decode? bytes with
  | none => exact iff_of_false (isReported_error_iff.not.mpr nofun) nofun
  | some t =>
      simp only [Option.some.injEq, exists_eq_left', isReported_ofParsed_iff, parsesOrRefuses_iff]

/-- An error with a message says that the text is refused or that it holds no mapping. -/
theorem eq_of_message? {name : Text} {bytes : ByteArray} {e : SettingsError}
    (h : ofBytes name bytes = .error e) (message : e.message?.isSome = true) :
    (∃ t, Utf8.decode? bytes = some t ∧
      e = .unparsable (refusal name (Text.unifyLineEnds t))) ∨ e = .notMapping name := by
  rw [ofBytes_eq] at h
  generalize parsed : data name bytes = r at h
  unfold ofParsed at h
  split at h
  · obtain rfl := Except.error.inj h
    rw [data_eq] at parsed
    split at parsed
    · obtain rfl := Except.error.inj parsed
      cases message
    · next t decoded =>
        obtain same | silent := message?_of_dataOfText parsed
        · exact .inl ⟨t, decoded, same⟩
        · rw [silent] at message
          cases message
  · split at h
    · cases h
    · obtain rfl := Except.error.inj h
      cases message
  · exact .inr (Except.error.inj h).symm

/-- The message of an error is one line exactly if the name of the file is and what is said of a
refused text is. -/
theorem isOneLine_iff_of_message? {name : Text} {bytes : ByteArray} {e : SettingsError}
    (h : ofBytes name bytes = .error e) {words : Words} {message : Text}
    (printed : e.message? words = some message) :
    message.IsOneLine ↔ name.IsOneLine ∧
      ∀ r said, e = .unparsable r → words r.obstacle = some said → said.IsOneLine := by
  have reported : e.message?.isSome = true := by
    rw [← e.isSome_message? words, printed]
    rfl
  obtain ⟨t, -, rfl⟩ | rfl := eq_of_message? h reported
  · obtain rfl := Option.some.inj printed
    rw [isOneLine_message_iff (by decide)]
    exact and_congr_right fun _ =>
      ⟨fun all r said same => SettingsError.unparsable.inj same ▸ all said,
        fun all said => all _ said rfl⟩
  · obtain rfl := Option.some.inj printed
    rw [Text.isOneLine_append, and_iff_left (by decide)]
    exact ⟨fun oneLine => ⟨oneLine, nofun⟩, And.left⟩

theorem isAnswer_ofBytes_iff (name : Text) (bytes : ByteArray) (words : Words) :
    IsAnswer words (ofBytes name bytes) ↔
      IsReported (ofBytes name bytes) ∧
        ∀ e, ofBytes name bytes = .error e → name.IsOneLine ∧
          ∀ r said, e = .unparsable r → words r.obstacle = some said → said.IsOneLine := by
  cases read : ofBytes name bytes with
  | ok s => exact iff_of_true (.inl ⟨s, rfl⟩) ⟨.inl ⟨s, rfl⟩, nofun⟩
  | error e =>
      rw [isAnswer_error_iff, isReported_error_iff, ← e.isSome_message? words,
        Option.isSome_iff_exists]
      constructor
      · rintro ⟨message, printed, oneLine⟩
        refine ⟨⟨message, printed⟩, fun e' same => ?_⟩
        obtain rfl := Except.error.inj same
        exact (isOneLine_iff_of_message? read printed).mp oneLine
      · rintro ⟨⟨message, printed⟩, oneLine⟩
        exact ⟨message, printed, (isOneLine_iff_of_message? read printed).mpr (oneLine e rfl)⟩

theorem load_eq {d : Disk} {given : Option Text} {p : Place} {bytes : ByteArray}
    (h : place d given = .ok p) (read : d.read p.toText = .ok bytes) :
    load d given = (ofBytes (p.headD []) bytes).map fun s => ⟨s, some p⟩ := by
  have there : d.doesExist p.toText = .ok true := by
    unfold Disk.read at read
    unfold Disk.doesExist
    split at read
    · next found => rw [found]
    · cases read
    · cases read
  rw [load, h]
  dsimp only
  rw [there, read]

end Settings

namespace Command

open Run (run_bind_ok run_bind_error)

variable {w w' : Workspace}

theorem run_get : (get : Step Workspace).run.run w = (.ok w, w) := rfl

theorem run_set : (set w' : Step PUnit).run.run w = (.ok (), w') := rfl

theorem run_need {ε α : Type} (reason : ε → Failure) {x : Except ε α} {a : α} (h : x = .ok a) :
    (need reason x).run.run w = (.ok a, w) := by
  rw [h]
  rfl

/-- How a command ends whose settings cannot be read: with the message of the error, or with the
error alone. -/
def endingOf (words : Settings.Words) (e : SettingsError) (w : Workspace) : Ending × Workspace :=
  match e.message? words with
  | some message => (.stopped 1, w.display (message ++ Text.ofString "\n"))
  | none => (.failed (.settings e), w)

theorem run_document (words : Settings.Words) {a : Arguments} {path : Text} {root : Place}
    {e : SettingsError}
    (real : (w.disk.expandHome (Path.ofText path)).bind w.disk.realPlace = .ok root)
    (there : w.disk.doesExist root.toText = .ok true)
    (broken : Settings.load w.disk a.settings = .error e) :
    (document words a path).run.run w =
      (.error (endingOf words e w).1, (endingOf words e w).2) := by
  unfold document
  rw [run_bind_ok run_get, run_bind_ok (run_need _ real), run_bind_ok (run_need _ there), broken]
  dsimp only
  unfold endingOf
  cases e.message? words with
  | none => exact run_bind_error rfl
  | some message => exact run_bind_error rfl

/-- The command gets as far as its settings: its log is set up and the tree that it asks for is
there. -/
def ReadsSettings (arguments : List Text) (w w' : Workspace) (given : Option Text) : Prop :=
  ∃ a c path root, Demand.ofTexts arguments = .ok (.run a) ∧ a.path = some (c :: path) ∧
    a.settings = given ∧ w.openLog a.verbose a.logFile = (.ok (), w') ∧
    (w'.disk.expandHome (Path.ofText (c :: path))).bind w'.disk.realPlace = .ok root ∧
    w'.disk.doesExist root.toText = .ok true

theorem ReadsSettings.run {arguments : List Text} {given : Option Text} {e : SettingsError}
    (h : ReadsSettings arguments w w' given) (broken : Settings.load w'.disk given = .error e)
    (words : Settings.Words) :
    run arguments w words = (⟨(endingOf words e w').1, []⟩, (endingOf words e w').2) := by
  obtain ⟨a, c, path, root, demand, asked, rfl, log, real, there⟩ := h
  have ended : (obey words arguments).run.run w =
      (.error (endingOf words e w').1, (endingOf words e w').2) := by
    unfold obey
    rw [demand]
    dsimp only
    rw [run_bind_ok run_get, log]
    dsimp only
    rw [run_bind_ok run_set, run_bind_ok (run_need _ rfl), asked]
    exact run_document words real there broken
  have applied : (obey words arguments).run w =
      (.error (endingOf words e w').1, (endingOf words e w').2) := ended
  rw [Command.run, applied]

/-- A settings file that is there and can be read is reported on exactly if it is UTF-8, its parser
gives data or refuses the text, and no integer beyond the digit limit is asked for its text. Where
there is an error, the answer is one line exactly if the file is reported on, its name is one line,
and so is what its parser says of a refused text. A command then ends with status 1 and the message,
which says that the text cannot be parsed or holds no mapping; an error without a message goes
through. -/
theorem answers_settings {d : Disk} {given : Option Text} {p : Place} {bytes : ByteArray}
    (place : Settings.place d given = .ok p) (read : d.read p.toText = .ok bytes) :
    (Settings.IsReported (Settings.load d given) ↔ ∃ t, Utf8.decode? bytes = some t ∧
      Settings.ParsesOrRefuses (p.headD []) (Text.unifyLineEnds t) ∧
      ∀ es, Settings.dataOfText (p.headD []) (Text.unifyLineEnds t) = .ok (.mapping es) →
        (Data.mapping es).AsksShort) ∧
    (∀ words, Settings.IsAnswer words (Settings.load d given) ↔
      Settings.IsReported (Settings.load d given) ∧
        ∀ e, Settings.load d given = .error e → (p.headD []).IsOneLine ∧
          ∀ r said, e = .unparsable r → words r.obstacle = some said → said.IsOneLine) ∧
    ∀ words arguments w w' e, ReadsSettings arguments w w' given → w'.disk = d →
      Settings.load d given = .error e →
      (∀ message, e.message? words = some message →
        ((∃ t, Utf8.decode? bytes = some t ∧
            e = .unparsable (Settings.refusal (p.headD []) (Text.unifyLineEnds t))) ∨
          e = .notMapping (p.headD [])) ∧
        run arguments w words =
          (⟨.stopped 1, []⟩, w'.display (message ++ Text.ofString "\n"))) ∧
      (e.message? words = none → run arguments w words = (⟨.failed (.settings e), []⟩, w')) := by
  have loaded := Settings.load_eq place read
  refine ⟨?_, fun words => ?_, ?_⟩
  · rw [loaded, Settings.isReported_map, Settings.isReported_ofBytes_iff]
  · rw [loaded, Settings.isAnswer_map, Settings.isReported_map, Settings.isAnswer_ofBytes_iff]
    simp only [Settings.map_eq_error_iff]
  · rintro words arguments w w' e reads rfl broken
    have ended := reads.run broken words
    rw [loaded, Settings.map_eq_error_iff] at broken
    refine ⟨fun message printed => ⟨?_, ?_⟩, fun silent => ?_⟩
    · refine Settings.eq_of_message? broken ?_
      rw [← e.isSome_message? words, printed]
      rfl
    · rw [ended, endingOf, printed]
    · rw [ended, endingOf, silent]

/-- A folder with a settings file. -/
def settingsFolder (name : String) (bytes : ByteArray) : Disk :=
  Run.folderWith [(name, .file bytes)]

/-- A workspace with these files and a log that only the console shows. -/
def startedAt (d : Disk) : Workspace := { Workspace.ofDisk d "" with log := .setUp false none }

theorem readsSettings_standard (bytes : ByteArray) :
    ReadsSettings ["."] (.ofDisk (settingsFolder ".docly.yml" bytes) "")
      (startedAt (settingsFolder ".docly.yml" bytes)) none :=
  ⟨_, _, _, _, rfl, rfl, rfl, rfl, rfl, rfl⟩

theorem readsSettings_json (bytes : ByteArray) :
    ReadsSettings [".", "--config", "a.json"] (.ofDisk (settingsFolder "a.json" bytes) "")
      (startedAt (settingsFolder "a.json" bytes)) (some "a.json") :=
  ⟨_, _, _, _, rfl, rfl, rfl, rfl, rfl, rfl⟩

/-- The words for an opening brace alone, as JSON. -/
def braceWords : Text :=
  "Expecting property name enclosed in double quotes: line 1 column 2 (char 1)"

/-- The words for a bell alone, as YAML. -/
def bellWords : Text :=
  "unacceptable character #x0007: special characters are not allowed
  in \"<unicode string>\", position 0"

/-- A brace alone is refused as JSON and a bell alone as YAML. The command says so, in one line of
the brace and in two lines of the bell. -/
theorem answers_settings_refused :
    (∃ w, Settings.IsAnswer (fun _ => some braceWords)
        (Settings.load (settingsFolder "a.json" "\x7b".toUTF8) (some "a.json")) ∧
      run [".", "--config", "a.json"] (.ofDisk (settingsFolder "a.json" "\x7b".toUTF8) "")
        (fun _ => some braceWords) = (⟨.stopped 1, []⟩, w) ∧
      w.console = "Failed to parse a.json: " ++ braceWords ++ "\n") ∧
    ∃ w, Settings.IsReported (Settings.load (settingsFolder ".docly.yml" "\x07".toUTF8) none) ∧
      ¬ Settings.IsAnswer (fun _ => some bellWords)
        (Settings.load (settingsFolder ".docly.yml" "\x07".toUTF8) none) ∧
      run ["."] (.ofDisk (settingsFolder ".docly.yml" "\x07".toUTF8) "")
        (fun _ => some bellWords) = (⟨.stopped 1, []⟩, w) ∧
      w.console = "Failed to parse .docly.yml: " ++ bellWords ++ "\n" := by
  have brace : Settings.load (settingsFolder "a.json" "\x7b".toUTF8) (some "a.json") =
      .error (.unparsable (Settings.refusal "a.json" "\x7b")) := rfl
  have bell : Settings.load (settingsFolder ".docly.yml" "\x07".toUTF8) none =
      .error (.unparsable (Settings.refusal ".docly.yml" "\x07")) := rfl
  have refused : Settings.dataOfText ".docly.yml" (Text.unifyLineEnds "\x07") =
      .error (.unparsable (Settings.refusal ".docly.yml" "\x07")) := rfl
  have jsonPlace : Settings.place (settingsFolder "a.json" "\x7b".toUTF8) (some "a.json") =
      .ok ["a.json", "p"] := rfl
  have yamlPlace : Settings.place (settingsFolder ".docly.yml" "\x07".toUTF8) none =
      .ok [".docly.yml", "p"] := rfl
  obtain ⟨-, inLine, stops⟩ := answers_settings jsonPlace rfl
  obtain ⟨report, inLines, stops'⟩ := answers_settings yamlPlace rfl
  have ended := (stops (fun _ => some braceWords) _ _ _ _ (readsSettings_json _) rfl brace).1 _ rfl
  have ended' := (stops' (fun _ => some bellWords) _ _ _ _ (readsSettings_standard _) rfl
    bell).1 _ rfl
  refine ⟨⟨_, (inLine _).mpr ⟨.inr ⟨_, brace, rfl⟩, ?_⟩, ended.2, rfl⟩,
    ⟨_, report.mpr ⟨"\x07", rfl, ?_, ?_⟩, ?_, ended'.2, rfl⟩⟩
  · refine fun e same => ⟨by decide, fun r said _ spoken => ?_⟩
    obtain rfl := Option.some.inj spoken
    decide
  · intro e other
    exact Except.error.inj (other.symm.trans refused)
  · intro es other
    cases other.symm.trans refused
  · intro answered
    obtain ⟨-, oneLine⟩ := (inLines _).mp answered
    exact absurd ((oneLine _ bell).2 _ _ rfl rfl) (by decide)

/-- A byte that begins no character is not reported on, and the command fails, whatever the words
are. -/
theorem not_isAnswer_badEncoding :
    (settingsFolder ".docly.yml" ⟨#[0xFF]⟩).read "/p/.docly.yml" = .ok ⟨#[0xFF]⟩ ∧
    ∀ words,
      ¬ Settings.IsAnswer words (Settings.load (settingsFolder ".docly.yml" ⟨#[0xFF]⟩) none) ∧
      (run ["."] (.ofDisk (settingsFolder ".docly.yml" ⟨#[0xFF]⟩) "") words).1.ending =
        .failed (.settings .badEncoding) := by
  have broken : Settings.load (settingsFolder ".docly.yml" ⟨#[0xFF]⟩) none =
      .error .badEncoding := rfl
  refine ⟨rfl, fun words => ⟨?_, ?_⟩⟩
  · rw [broken, Settings.isAnswer_error_iff]
    rintro ⟨message, ⟨⟩, -⟩
  · rw [(readsSettings_standard _).run broken words]
    rfl

end Command

end RouteAtlas
