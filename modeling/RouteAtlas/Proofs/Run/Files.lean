import RouteAtlas.Run
import RouteAtlas.Proofs.Facts.Description
import RouteAtlas.Proofs.Import.Memo
import RouteAtlas.Proofs.Import.Scanned

/-!
# Files read one after the other

A run reads its files one by one and hands the remembered answers on. Nothing else passes from a
file to the next, and the answers are those of the files. So each file has the facts that it has
when it is read alone, with nothing remembered.
-/

namespace RouteAtlas

/-- A workspace with these files, whose log writes to none of them. -/
structure Workspace.Keeps (d : Disk) (w : Workspace) : Prop where
  disk : w.disk = d
  quiet : w.log.file = none

theorem Workspace.Keeps.record {d : Disk} {w : Workspace} (h : w.Keeps d) (r : Record) :
    (w.record r).Keeps d := by
  have noLine : w.log.fileLine w.stamp r = none := Log.fileLine_eq_none h.quiet _ _
  rw [Workspace.record_of_none noLine]
  exact ⟨h.disk, h.quiet⟩

namespace Run

variable {d : Disk} {α : Type}

theorem yields_log (part : Text) (level : Level) (message : Text) :
    Yields (Workspace.Keeps d) (log part level message).run (.ok ()) :=
  fun _ keeps => ⟨rfl, keeps.record _⟩

theorem yields_lift {ε : Type} (explain : ε → RunError) (r : Except ε α) :
    Yields (Workspace.Keeps d) (lift explain r).run (r.mapError explain) := by
  cases r with
  | ok a => exact .pure _
  | error e => exact .pure _

/-- The facts of a file as its bytes and the other files decide them. -/
def factsAt (reading : Reading) (d : Disk) (path : Text) : Except RunError Facts :=
  match d.read path with
  | .error e => .error (.file e)
  | .ok bytes =>
    ((ParsedText.ofText path (sourceText bytes)).1.factsIn d reading).mapError .literal

/-- With sound answers remembered, a file has the facts that the files decide, and what is
remembered after it is sound. -/
theorem yields_readFile (reading : Reading) {memo : Import.Memo}
    (sound : Import.Memo.IsSound d memo) (path : Text) :
    ∃ after, Import.Memo.IsSound d after ∧
      Yields (Workspace.Keeps d) (readFile reading memo path).run
        ((factsAt reading d path).map (·, after)) := by
  have read := yields_lift (d := d) .file (d.read path)
  cases file : d.read path with
  | error e =>
      refine ⟨memo, sound, .bind_ok (yields_log _ _ _) (.bind_get fun w keeps => ?_)⟩
      obtain ⟨rfl, -⟩ := keeps
      simp only [factsAt, file] at read ⊢
      exact .bind_error read
  | ok bytes =>
      have parse :=
        Facts.yields_ofFile d reading (ParsedText.ofText path (sourceText bytes)).1 memo sound
      refine ⟨_, parse.2, .bind_ok (yields_log _ _ _) (.bind_get fun w keeps => ?_)⟩
      obtain ⟨rfl, -⟩ := keeps
      simp only [factsAt, file] at read ⊢
      refine .bind_ok read ?_
      -- from here on neither the parser nor the answers matter, but what came of them
      generalize ParsedText.ofText path (sourceText bytes) = parsing at parse ⊢
      obtain ⟨found, -⟩ := parse
      generalize (Facts.ofFile reading w.disk parsing.1).run.run memo = outcome at found ⊢
      have rest : Yields (Workspace.Keeps w.disk) (ExceptT.run (do
          let facts ← lift .literal outcome.1
          log "extractor" .debug (factsLine facts)
          return (facts, outcome.2)))
          ((outcome.1.mapError .literal).map (·, outcome.2)) := by
        have facts := yields_lift (d := w.disk) .literal outcome.1
        cases found : outcome.1 with
        | ok f =>
            rw [found] at facts
            exact .bind_ok facts (.bind_ok (yields_log _ _ _) (.pure _))
        | error e =>
            rw [found] at facts
            exact .bind_error facts
      rw [← found]
      split
      · exact rest
      · exact .bind_ok (yields_log _ _ _) rest

theorem yields_readFiles (reading : Reading) (paths : List Text) {memo : Import.Memo}
    (sound : Import.Memo.IsSound d memo) :
    Yields (Workspace.Keeps d) (readFiles reading memo paths).run
      (paths.mapM (factsAt reading d)) := by
  induction paths generalizing memo with
  | nil => exact .pure _
  | cons path rest ih =>
      obtain ⟨after, soundAfter, first⟩ := yields_readFile reading sound path
      have step : (do
          let f ← factsAt reading d path
          let fs ← rest.mapM (factsAt reading d)
          return f :: fs) =
          (factsAt reading d path).map (·, after) >>= fun f => do
            let fs ← rest.mapM (factsAt reading d)
            return f.1 :: fs := by
        cases factsAt reading d path <;> rfl
      rw [List.mapM_cons, step]
      refine first.exceptBind fun f isFacts => ?_
      obtain ⟨f, m⟩ := f
      obtain rfl : m = after := by
        cases outcome : factsAt reading d path with
        | ok g =>
            rw [outcome] at isFacts
            exact (congrArg Prod.snd (Except.ok.inj isFacts)).symm
        | error e =>
            rw [outcome] at isFacts
            cases isFacts
      exact (ih soundAfter).exceptBind fun fs _ => .pure _

/-- Remembered answers cannot be told from those that the files give. Files read one after the other
have the facts that each has when it is read alone, and so have parsed texts; questions asked one
after the other have the answers that each importer's own question has. -/
theorem readFiles_memo (reading : Reading) (d : Disk) :
    (∀ (w : Workspace) (paths : List Text), w.disk = d → w.log.file = none →
      ((readFiles reading [] paths).run.run w).1 =
        paths.mapM fun path => ((Prod.fst <$> readFile reading [] path).run.run w).1) ∧
    (∀ ps : List ParsedText,
      ((ps.mapM fun p => (Facts.ofFile reading d p).run).run []).1 =
        ps.map fun p => ((Facts.ofFile reading d p).run.run []).1) ∧
    ∀ queries : List (Text × Text),
      ((queries.mapM fun q => Import.remember d q.1 q.2).run []).1 =
        queries.map fun q => Import.resolve d q.1 q.2 := by
  have sound := Import.Memo.isSound_nil d
  refine ⟨?_, ?_, ?_⟩
  · intro w paths disk quiet
    have keeps : w.Keeps d := ⟨disk, quiet⟩
    rw [(yields_readFiles reading paths sound w keeps).1]
    have alone (path : Text) :
        ((Prod.fst <$> readFile reading [] path).run.run w).1 = factsAt reading d path := by
      obtain ⟨after, -, first⟩ := yields_readFile reading sound path
      rw [ExceptT.run_map, (first.map (Except.map Prod.fst) w keeps).1]
      cases factsAt reading d path <;> rfl
    simp only [alone]
  · intro ps
    have each (p : ParsedText) := Facts.yields_ofFile d reading p
    rw [(Yields.mapM each ps [] sound).1]
    exact List.map_congr_left fun p _ => (each p [] sound).1.symm
  · intro queries
    have each (q : Text × Text) := Import.yields_remember d q.1 q.2
    exact (Yields.mapM each queries [] sound).1

open RouteAtlas.Tree in
/-- The tree of `const a = require('./lib/users')`. -/
def requiringTree : Tree := ⟨"program", true, none, 0, 32, [
  ⟨"lexical_declaration", true, none, 0, 32, [
    token "const" 0 5,
    ⟨"variable_declarator", true, none, 6, 32, [
      leaf "identifier" (some "name") 6 7, token "=" 8 9,
      ⟨"call_expression", true, some "value", 10, 32, [
        leaf "identifier" (some "function") 10 17,
        ⟨"arguments", true, some "arguments", 17, 32, [
          token "(" 17 18,
          ⟨"string", true, none, 18, 31, [
            token "'" 18 19, leaf "string_fragment" none 19 30, token "'" 30 31]⟩,
          token ")" 31 32]⟩]⟩]⟩]⟩]⟩

/-- A text at some path that asks for `./lib/users`. -/
def requiringAt (path : Text) : ParsedText :=
  ⟨path, "const a = require('./lib/users')".toUTF8, requiringTree⟩

open Import in
/-- Two spellings of a folder share an answer; another folder has its own, that there is no file. -/
theorem readFiles_workshop :
    (∃ fs, ((readFiles ⟨⟨"express", "Router"⟩, "@desc", true⟩ []
        ["/srv/app/main.js", "/srv/app/lib/users.js", "/srv/app/main.js"]).run.run
          (.ofDisk workshop "")).1 = .ok fs ∧ fs.map (·.file) =
        (["/srv/app/main.js", "/srv/app/lib/users.js", "/srv/app/main.js"] : List Text)) ∧
      ((([requiringAt "/srv/app/main.js", requiringAt "app/./main.js",
          requiringAt "/srv/app/lib/users.js"].mapM fun p =>
            (Facts.ofFile ⟨⟨"express", "Router"⟩, "@desc", true⟩ workshop p).run).run []).1.map
          fun r => r.toOption.map (·.imports)) =
        ([some [("a", "/srv/app/lib/users.js")], some [("a", "/srv/app/lib/users.js")], some []] :
          List (Option (Assoc Text Text))) ∧
      ((([("/srv/app/main.js", "./lib/users"), ("app/./main.js", "./lib/users"),
          ("/srv/app/main.js", "./none"), ("/srv/./app/main.js", "./none")] :
          List (Text × Text)).mapM fun q => remember workshop q.1 q.2).run []).1 =
        ([some "/srv/app/lib/users.js", some "/srv/app/lib/users.js", none, none] :
          List (Option Text)) := by
  obtain ⟨files, texts, answers⟩ := readFiles_memo ⟨⟨"express", "Router"⟩, "@desc", true⟩ workshop
  refine ⟨?_, ?_, ?_⟩
  · rw [files _ _ rfl rfl]
    exact ⟨_, by rfl, by rfl⟩
  · rw [texts]
    rfl
  · rw [answers]
    rfl

end Run

end RouteAtlas
