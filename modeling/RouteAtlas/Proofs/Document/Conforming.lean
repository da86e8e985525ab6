import RouteAtlas.Proofs.Document.Publishable
import RouteAtlas.Proofs.Document.Reordering
import RouteAtlas.Proofs.Facts.Description
import RouteAtlas.Proofs.Json.Grammar

/-!
# Documents that conform to the grammar

The JSON text of a document is JSON exactly when all server details that are reals are finite. The
texts in it are all quoted, so it is only the details that decide. A numeral in a script may be too
large for a floating point number; then the detail is infinite, and the text has a word in the place
of a number.
-/

namespace RouteAtlas

/-- All reals among the details of the server are finite. -/
def ServerDetails.IsFinite (d : ServerDetails) : Prop := ∀ k, (d.get k).IsFinite

theorem Document.isFinite_toJson (d : Document) : d.toJson.IsFinite ↔ d.server.IsFinite :=
  d.all_toJson trivial fun _ => trivial

namespace Document

/-- The details are finite if of each the last value that a file gives is, since it counts. -/
theorem isFinite_server_ofFacts (fs : List Facts) :
    (ofFacts fs).server.IsFinite ↔
      ∀ k v, (Assoc.given k (fs.flatMap (·.details))).getLast? = some v → v.IsFinite := by
  have unknown : ServerDetails.unknown.IsFinite := fun k => by cases k <;> trivial
  refine forall_congr' fun k => ?_
  rw [get_server_ofFacts]
  cases (Assoc.given k (fs.flatMap (·.details))).getLast? with
  | none => exact iff_of_true (unknown k) nofun
  | some v => simp

/-- The JSON text of a document conforms to the grammar of JSON exactly when no detail of the server
is infinite or no number, that is, when no file gives such a value last. -/
theorem isText_jsonText_iff (fs : List Facts) {s : String}
    (printed : (ofFacts fs).jsonText = .ok s) :
    (Json.IsText s.toList ↔ (ofFacts fs).server.IsFinite) ∧
      ((ofFacts fs).server.IsFinite ↔
        ∀ k v, (Assoc.given k (fs.flatMap (·.details))).getLast? = some v → v.IsFinite) := by
  refine ⟨?_, isFinite_server_ofFacts fs⟩
  rw [Json.isText_print_iff printed, isFinite_toJson]

/-- A script whose server listens at a number, written in five characters. -/
def listenSource (numeral : String) : ByteArray :=
  ("const app = express();\napp.listen(" ++ numeral ++ ");").toUTF8

open RouteAtlas.Tree in
def listenTree : Tree := ⟨"program", true, none, 0, 41, [
  declarationTree initializerTree,
  ⟨"expression_statement", true, none, 23, 41, [
    ⟨"call_expression", true, none, 23, 40, [
      ⟨"member_expression", true, some "function", 23, 33, [
        leaf "identifier" (some "object") 23 26, token "." 26 27,
        leaf "property_identifier" (some "property") 27 33]⟩,
      ⟨"arguments", true, some "arguments", 33, 40, [
        token "(" 33 34, leaf "number" none 34 39, token ")" 39 40]⟩]⟩,
    token ";" 40 41]⟩]⟩

/-- The facts of a text, with no other file. -/
def extractOf (p : ParsedText) : Except LiteralError Facts :=
  ((Facts.ofFile ⟨⟨"express", "Router"⟩, "@desc", true⟩ ⟨[], [], "/p"⟩ p).run.run []).1

theorem isExtract_of_extractOf {p : ParsedText} {f : Facts} (h : extractOf p = .ok f) :
    f.IsExtract :=
  ⟨_, _, _, _, _, Prod.ext h rfl⟩

/-- A small number, whose exponent is written out, is within the grammar. -/
theorem isText_jsonText_listen : ∃ f,
    extractOf ⟨"/p/app.js", listenSource "1e-07", listenTree⟩ = .ok f ∧ f.IsExtract ∧
    ∃ s, (Document.ofFacts [f]).jsonText = .ok s ∧ Json.IsText s.toList := by
  obtain ⟨f, m, e, made, server⟩ : ∃ f m e,
      extractOf ⟨"/p/app.js", listenSource "1e-07", listenTree⟩ = .ok f ∧
      (Document.ofFacts [f]).server =
        ⟨.real (.finite false m e), .bool false, .null, .null⟩ := ⟨_, _, _, rfl, rfl⟩
  have short : (Document.ofFacts [f]).server.IsShort := by
    rw [server]
    intro k
    cases k <;> trivial
  obtain ⟨s, printed⟩ := (Document.exists_jsonText_iff _).mpr short
  refine ⟨f, made, isExtract_of_extractOf made, s, printed, ?_⟩
  rw [(isText_jsonText_iff _ printed).1, server]
  intro k
  cases k <;> trivial

/-- A numeral beyond all finite numbers leaves the grammar. -/
theorem isText_jsonText_overflow : ∃ f,
    extractOf ⟨"/p/app.js", listenSource "1e999", listenTree⟩ = .ok f ∧ f.IsExtract ∧
    (Document.ofFacts [f]).server.portNumber = .real (.infinity false) ∧
    ∃ s, (Document.ofFacts [f]).jsonText = .ok s ∧ ¬ Json.IsText s.toList := by
  obtain ⟨f, made, server⟩ : ∃ f,
      extractOf ⟨"/p/app.js", listenSource "1e999", listenTree⟩ = .ok f ∧
      (Document.ofFacts [f]).server =
        ⟨.real (.infinity false), .bool false, .null, .null⟩ := ⟨_, rfl, rfl⟩
  have short : (Document.ofFacts [f]).server.IsShort := by
    rw [server]
    intro k
    cases k <;> trivial
  obtain ⟨s, printed⟩ := (Document.exists_jsonText_iff _).mpr short
  refine ⟨f, made, isExtract_of_extractOf made, by rw [server], s, printed, fun isText => ?_⟩
  have finite := (Document.isFinite_toJson _).mp ((Json.isText_print_iff printed).mp isText)
  rw [server] at finite
  exact finite .portNumber

end Document

end RouteAtlas
