import RouteAtlas.Proofs.Document.Publishable
import RouteAtlas.Proofs.Facts.Description
import RouteAtlas.Run

/-!
# Publishing

Where both files can be written, publishing a document fails in two cases only: a server detail is
an integer beyond the digit limit, or the page shows a surrogate. The JSON file is written first, so
the second case leaves it behind, with an empty page. The document of extracted facts can meet both
cases: a number in hexadecimal digits may be of any size, and an escape may name a surrogate.
-/

namespace RouteAtlas

/-- In the folder, which can be made, both files of the output can be written, whatever they are to
hold. -/
def Disk.CanPublish (d : Disk) (names : OutputNames) (folder : Path) : Prop :=
  ∃ made, d.ensureFolders folder = .ok made ∧
    ∀ json, ∃ half, made.write (folder ++ Path.ofText names.json).toText json = .ok half ∧
      ∀ page, ∃ whole, half.write (folder ++ Path.ofText names.html).toText page = .ok whole

namespace Run

section Steps

variable {ε α β : Type} {x : ExceptT ε (StateM Workspace) α}
variable {f : α → ExceptT ε (StateM Workspace) β} {w w' : Workspace}

theorem run_bind_ok {a : α} (h : x.run.run w = (.ok a, w')) :
    (x >>= f).run.run w = (f a).run.run w' := by
  rw [ExceptT.run_bind, StateT.run_bind, h]
  rfl

theorem run_bind_error {e : ε} (h : x.run.run w = (.error e, w')) :
    (x >>= f).run.run w = (.error e, w') := by
  rw [ExceptT.run_bind, StateT.run_bind, h]
  rfl

theorem run_lift_ok {ε : Type} (explain : ε → RunError) (a : α) :
    (lift explain (.ok a)).run.run w = (.ok a, w) := rfl

theorem run_change {f : Disk → Except FileError Disk} {d : Disk} (h : f w.disk = .ok d) :
    (change f).run.run w = (.ok (), { w with disk := d }) := by
  have lifted : (lift .file (f w.disk)).run.run w = (.ok d, w) := by
    rw [h, run_lift_ok]
  exact run_bind_ok lifted

theorem run_makeFolders {p : Path} {d : Disk} (h : w.disk.ensureFolders p = .ok d) :
    (makeFolders p).run.run w = (.ok (), { w with disk := d }) := by
  obtain ⟨failure, rfl⟩ := Reached.result_eq_ok h
  have start : (get : Run Workspace).run.run w = (.ok w, w) := rfl
  unfold makeFolders
  rw [run_bind_ok start]
  dsimp only
  rw [failure]
  exact run_bind_ok rfl

theorem run_writeText {p : Path} {t : Text} {d : Disk} {bytes : ByteArray}
    (encoded : Utf8.encode? t = some bytes) (h : w.disk.write p.toText bytes = .ok d) :
    (writeText p t).run.run w = (.ok (), { w with disk := d }) := by
  unfold writeText
  rw [encoded]
  exact run_change h

theorem run_writeText_unencodable {p : Path} {t : Text} {d : Disk}
    (broken : Utf8.encode? t = none) (h : w.disk.write p.toText .empty = .ok d) :
    (writeText p t).run.run w = (.error .unencodable, { w with disk := d }) := by
  unfold writeText
  rw [broken]
  exact run_bind_ok (run_change h)

end Steps

/-- How publishing a document ends where its files can be written. -/
theorem run_publish {names : OutputNames} {folder : Option Text} {w : Workspace}
    (h : w.disk.CanPublish names (outputFolder w.disk folder)) (d : Document) :
    ((publish names folder d).run.run w).1 =
      match d.jsonText, d.page with
      | .ok _, .ok t =>
        if (Utf8.encode? t).isSome then
          .ok ⟨outputFolder w.disk folder ++ Path.ofText names.json,
            outputFolder w.disk folder ++ Path.ofText names.html⟩
        else .error .unencodable
      | _, _ => .error .tooManyDigits := by
  obtain ⟨made, folders, files⟩ := h
  have start : (get : Run Workspace).run.run w = (.ok w, w) := rfl
  unfold publish
  rw [run_bind_ok start, run_bind_ok (run_makeFolders folders)]
  dsimp only
  generalize outputFolder w.disk folder ++ Path.ofText names.json = jsonPath at files ⊢
  generalize outputFolder w.disk folder ++ Path.ofText names.html = pagePath at files ⊢
  cases json : d.jsonText with
  | error e => rfl
  | ok s =>
      obtain ⟨bytes, encoded⟩ := (Utf8.exists_encode?_iff s).mpr (Text.hasNoSurrogate_ofString s)
      obtain ⟨half, written, pages⟩ := files bytes
      have first : (writeText jsonPath s).run.run { w with disk := made } =
          (.ok (), { w with disk := half }) := run_writeText encoded written
      rw [run_bind_ok (run_lift_ok _ s), run_bind_ok first]
      cases page : d.page with
      | error e => rfl
      | ok t =>
          rw [run_bind_ok (run_lift_ok _ t)]
          cases whole : Utf8.encode? t with
          | none =>
              obtain ⟨last, written⟩ := pages .empty
              have second : (writeText pagePath t).run.run { w with disk := half } =
                  (.error .unencodable, { w with disk := last }) :=
                run_writeText_unencodable whole written
              rw [run_bind_error second]
              simp [whole]
          | some bytes =>
              obtain ⟨last, written⟩ := pages bytes
              have second : (writeText pagePath t).run.run { w with disk := half } =
                  (.ok (), { w with disk := last }) := run_writeText whole written
              rw [run_bind_ok second]
              simp only [whole, Option.isSome_some, if_true]
              rfl

/-- The document of extracted facts has a JSON text and a page exactly when no detail is an integer
beyond the digit limit. The JSON text can always be written, the page exactly when no path of a
route and no detail holds a surrogate. So both conditions together decide whether publishing
succeeds where its files can be written. -/
theorem publish_ofFacts {fs : List Facts} (extracts : ∀ f ∈ fs, f.IsExtract) :
    ((∃ s, (Document.ofFacts fs).jsonText = .ok s) ↔ (Document.ofFacts fs).server.IsShort) ∧
      ((∃ t, (Document.ofFacts fs).page = .ok t) ↔ (Document.ofFacts fs).server.IsShort) ∧
      (∀ s, (Document.ofFacts fs).jsonText = .ok s → ∃ bytes, Utf8.encode? s = some bytes) ∧
      (∀ t, (Document.ofFacts fs).page = .ok t →
        ((∃ bytes, Utf8.encode? t = some bytes) ↔ (Document.ofFacts fs).IsEncodable)) ∧
      ∀ (names : OutputNames) (folder : Option Text) (w : Workspace),
        w.disk.CanPublish names (outputFolder w.disk folder) →
        ((∃ out, ((publish names folder (Document.ofFacts fs)).run.run w).1 = .ok out) ↔
          (Document.ofFacts fs).server.IsShort ∧ (Document.ofFacts fs).IsEncodable) := by
  have legible := Document.isLegible_ofFacts extracts
  generalize Document.ofFacts fs = d at legible ⊢
  have json := d.exists_jsonText_iff
  have page := legible.exists_page_iff
  refine ⟨json, page, ?_, fun t made => legible.encode?_page_iff made, ?_⟩
  · intro s _
    exact (Utf8.exists_encode?_iff s).mpr (Text.hasNoSurrogate_ofString s)
  · intro names folder w writable
    rw [run_publish writable]
    cases text : d.jsonText with
    | error e =>
        have long : ¬ d.server.IsShort := by
          rw [← json, text]
          simp
        simp [long]
    | ok s =>
        have short : d.server.IsShort := json.mp ⟨s, text⟩
        obtain ⟨t, made⟩ := page.mpr short
        rw [made, ← legible.encode?_page_iff made]
        cases encoded : Utf8.encode? t <;> simp [encoded, short]

/-- A current folder that holds these entries. -/
def folderWith (entries : List (Text × Entry)) : Disk := ⟨[("p", .folder entries)], ["p"], "/p"⟩

/-- The names of the two files. -/
def outputNames : OutputNames := ⟨"output.json", "apidoc.html"⟩

theorem canPublish_folderWith :
    (folderWith []).CanPublish outputNames (outputFolder (folderWith []) none) := by
  refine ⟨folderWith [], by rfl, fun json => ⟨folderWith [("output.json", .file json)], by rfl, ?_⟩⟩
  exact fun page =>
    ⟨folderWith [("output.json", .file json), ("apidoc.html", .file page)], by rfl⟩

open RouteAtlas.Tree in
/-- The facts of the commented script can be published. -/
theorem publish_commented : ∃ f : Facts,
    f.IsExtract ∧ (Document.ofFacts [f]).routes.map (·.path) = [("/list" : Text)] ∧
      ∃ out, ((publish outputNames none (Document.ofFacts [f])).run.run
        (.ofDisk (folderWith []) "")).1 = .ok out := by
  obtain ⟨f, made, paths, server⟩ : ∃ f, ((Facts.ofFile ⟨⟨"express", "Router"⟩, "@desc", true⟩
      (folderWith []) ⟨"/p/app.js", commentedSource, commentedTree⟩).run.run []).1 = .ok f ∧
      (Document.ofFacts [f]).routes.map (·.path) = [("/list" : Text)] ∧
      (Document.ofFacts [f]).server = .unknown := ⟨_, rfl, rfl, rfl⟩
  have extract : f.IsExtract := ⟨_, _, _, _, _, Prod.ext made rfl⟩
  have short : (Document.ofFacts [f]).server.IsShort := server ▸ ServerDetails.isShort_unknown
  have encodable : (Document.ofFacts [f]).IsEncodable := by
    refine ⟨by rw [server]; trivial, by rw [server]; trivial, by rw [server]; trivial, ?_⟩
    intro r mem
    have path : r.path ∈ (Document.ofFacts [f]).routes.map (·.path) := List.mem_map_of_mem mem
    rw [paths, List.mem_singleton] at path
    exact path ▸ Text.hasNoSurrogate_ofString _
  obtain ⟨-, -, -, -, published⟩ := publish_ofFacts (List.forall_mem_singleton.mpr extract)
  exact ⟨f, extract, paths, (published _ _ _ canPublish_folderWith).mpr ⟨short, encodable⟩⟩

/-- A script with a route whose path holds the two escapes of a surrogate pair. -/
def pairSource : ByteArray :=
  "const app = express();\napp.get(\"/\\uD83D\\uDE00\", h);".toUTF8

open RouteAtlas.Tree in
def pairTree : Tree := ⟨"program", true, none, 0, 51, [
  declarationTree initializerTree,
  ⟨"expression_statement", true, none, 23, 51, [
    ⟨"call_expression", true, none, 23, 50, [
      ⟨"member_expression", true, some "function", 23, 30, [
        leaf "identifier" (some "object") 23 26, token "." 26 27,
        leaf "property_identifier" (some "property") 27 30]⟩,
      ⟨"arguments", true, some "arguments", 30, 50, [
        token "(" 30 31,
        ⟨"string", true, none, 31, 46, [
          token "\"" 31 32, leaf "string_fragment" none 32 33, leaf "escape_sequence" none 33 39,
          leaf "escape_sequence" none 39 45, token "\"" 45 46]⟩,
        token "," 46 47, leaf "identifier" none 48 49, token ")" 49 50]⟩]⟩,
    token ";" 50 51]⟩]⟩

/-- The halves of the pair are not joined. There is a JSON text and a page, but the page cannot be
written, and publishing fails where both files could be. -/
theorem publish_pair : ∃ f : Facts, f.IsExtract ∧
    (Document.ofFacts [f]).routes.map (·.path) =
      [[slash, ⟨0xD83D, by decide⟩, ⟨0xDE00, by decide⟩]] ∧
    (∃ s, (Document.ofFacts [f]).jsonText = .ok s) ∧
    (∃ t, (Document.ofFacts [f]).page = .ok t ∧ Utf8.encode? t = none) ∧
    (folderWith []).CanPublish outputNames (outputFolder (folderWith []) none) ∧
    ((publish outputNames none (Document.ofFacts [f])).run.run
      (.ofDisk (folderWith []) "")).1 = .error .unencodable := by
  obtain ⟨f, made, paths, server⟩ : ∃ f, ((Facts.ofFile ⟨⟨"express", "Router"⟩, "@desc", true⟩
      (folderWith []) ⟨"/p/app.js", pairSource, pairTree⟩).run.run []).1 = .ok f ∧
      (Document.ofFacts [f]).routes.map (·.path) =
        [[slash, ⟨0xD83D, by decide⟩, ⟨0xDE00, by decide⟩]] ∧
      (Document.ofFacts [f]).server = .unknown := ⟨_, rfl, rfl, rfl⟩
  have extract : f.IsExtract := ⟨_, _, _, _, _, Prod.ext made rfl⟩
  have legible := Document.isLegible_ofFacts (List.forall_mem_singleton.mpr extract)
  have short : (Document.ofFacts [f]).server.IsShort := server ▸ ServerDetails.isShort_unknown
  have broken : ¬ (Document.ofFacts [f]).IsEncodable := by
    intro encodable
    obtain ⟨r, mem, path⟩ := List.mem_map.mp (paths ▸ List.mem_singleton_self _)
    have plain := encodable.paths r mem
    rw [path] at plain
    exact absurd plain (by decide)
  obtain ⟨s, text⟩ := (Document.exists_jsonText_iff _).mpr short
  obtain ⟨t, page⟩ := legible.exists_page_iff.mpr short
  have unencodable : Utf8.encode? t = none := by
    rw [← legible.encode?_page_iff page] at broken
    simpa [Option.eq_none_iff_forall_ne_some] using broken
  refine ⟨f, extract, paths, ⟨s, text⟩, ⟨t, page, unencodable⟩, canPublish_folderWith, ?_⟩
  have run := run_publish (w := .ofDisk (folderWith []) "") canPublish_folderWith
    (Document.ofFacts [f])
  rw [run, text, page]
  simp [unencodable]

end Run

end RouteAtlas
