import RouteAtlas.Code.Lowering
import RouteAtlas.Facts.Reading
import RouteAtlas.Import
import RouteAtlas.Script

/-!
# The facts of a source file

The text of a file is read into statements and these into facts. Broken bytes in a file count as
U+FFFD, and every line end as LF. Statements are read from as much of a text as can be understood.
-/

namespace RouteAtlas

/-- A source text after parsing: the path of its file, its bytes and its syntax tree. -/
structure ParsedText where
  path : Text
  source : ByteArray
  tree : Tree

namespace ParsedText

/-- Parses a source text, and tells whether all of it could be read; the path tells the dialect. -/
def ofText (path : Text) (text : String) : ParsedText × Bool :=
  let (tree, complete) := Script.tree (Dialect.ofPath path) text
  (⟨path, text.toUTF8, tree⟩, complete)

/-- The statements of a parsed text. -/
def statements (p : ParsedText) : Except LiteralError (List Statement) :=
  p.tree.statements p.source

end ParsedText

/-- The statements of a source text, and whether all of it could be read. -/
structure Understood where
  statements : List Statement
  complete : Bool

/-- Understands a source text. -/
def Understood.ofText (path : Text) (text : String) : Except LiteralError Understood :=
  let (parsed, complete) := ParsedText.ofText path text
  parsed.statements.map fun statements => ⟨statements, complete⟩

/-- The text of a source file. -/
def sourceText (bytes : ByteArray) : String :=
  ((Text.unifyLineEnds (Utf8.decodeReplacing bytes)).toString?).getD ""

/-- The facts of statements that stand alone: their imports lead nowhere. -/
def Facts.ofAlone (reading : Reading) (path : Text) (statements : List Statement) : Facts :=
  Facts.ofStatements (m := Id) reading (fun _ => none) path statements

/-- The facts of a parsed text, where `resolve` answers the requests of a file. -/
def Facts.ofParsed {m : Type → Type} [Monad m] (reading : Reading)
    (resolve : Text → Text → m (Option Text)) (p : ParsedText) : ExceptT LiteralError m Facts := do
  let statements ← ExceptT.mk (pure p.statements)
  ExceptT.lift (Facts.ofStatements reading (resolve p.path) p.path statements)

/-- A parsed text has the facts of its statements, and fails when these cannot be read. -/
theorem Facts.run_ofParsed {m : Type → Type} [Monad m] [LawfulMonad m] (reading : Reading)
    (resolve : Text → Text → m (Option Text)) (p : ParsedText) :
    (Facts.ofParsed reading resolve p).run =
      match p.statements with
      | .ok ss => .ok <$> Facts.ofStatements reading (resolve p.path) p.path ss
      | .error e => pure (.error e) := by
  unfold ofParsed
  rw [ExceptT.run_bind, ExceptT.run_mk, pure_bind]
  cases p.statements with
  | ok ss => exact ExceptT.run_lift _
  | error e => rfl

/-- A parsed text that has facts has statements, and the facts are those of its statements. -/
theorem Facts.statements_of_run_ofParsed {σ : Type} {reading : Reading}
    {resolve : Text → Text → StateM σ (Option Text)} {p : ParsedText} {before after : σ} {f : Facts}
    (h : (ofParsed reading resolve p).run.run before = (.ok f, after)) :
    ∃ ss, p.statements = .ok ss ∧
      f = ((ofStatements reading (resolve p.path) p.path ss).run before).1 := by
  rw [run_ofParsed] at h
  cases read : p.statements with
  | error e =>
      rw [read] at h
      cases h
  | ok ss =>
      rw [read] at h
      exact ⟨ss, rfl, (Except.ok.inj (Prod.mk.inj h).1).symm⟩

/-- The facts of a parsed text in a file tree, where `Import.remember` remembers answers. -/
def Facts.ofFile (reading : Reading) (d : Disk) :
    ParsedText → ExceptT LiteralError (StateM Import.Memo) Facts :=
  Facts.ofParsed reading (Import.remember d)

end RouteAtlas
