import RouteAtlas.Document.Json
import RouteAtlas.Proofs.Json.Printed

/-!
# The JSON text of a document

The JSON text of a document is ASCII, and whoever reads it gets the published form of the document:
the members in their order, and every text as it is. So documents with different published forms
have different texts. Left out are documents with a surrogate in a text, with a real, or with an
integer beyond the digit limit.
-/

namespace RouteAtlas

/-- Values that keep their meaning in the text of JSON. -/
def Value.IsPortable : Value → Prop
  | .null => True
  | .bool _ => True
  | .int n => (Nat.toDigits 10 n.natAbs).length ≤ Numeral.digitLimit
  | .real _ => False
  | .text t => t.HasNoSurrogate

instance : DecidablePred Value.IsPortable
  | .null => inferInstanceAs (Decidable True)
  | .bool _ => inferInstanceAs (Decidable True)
  | .int _ => inferInstanceAs (Decidable (_ ≤ _))
  | .real _ => inferInstanceAs (Decidable False)
  | .text t => inferInstanceAs (Decidable t.HasNoSurrogate)

/-- Routes without surrogates. -/
structure Route.IsPortable (r : Route) : Prop where
  path : r.path.HasNoSurrogate
  method : r.method.HasNoSurrogate
  router : ∀ t ∈ r.router, t.HasNoSurrogate
  source : r.source.HasNoSurrogate
  middleware : ∀ t ∈ r.middleware, t.HasNoSurrogate
  description : ∀ t ∈ r.description, t.HasNoSurrogate

/-- Documents that keep their meaning in the text of JSON. -/
structure Document.IsPortable (d : Document) : Prop where
  details : ∀ k, (d.server.get k).IsPortable
  routes : ∀ r ∈ d.routes, r.IsPortable
  globals : ∀ t ∈ d.globals, t.HasNoSurrogate
  locals : ∀ m ∈ d.locals, m.1.HasNoSurrogate ∧ ∀ t ∈ m.2, t.HasNoSurrogate

namespace Json

theorem IsPortable.ofValue {v : Value} (h : v.IsPortable) : IsPortable (.ofValue v) := by
  cases v with
  | null => exact .null
  | bool b => exact .bool b
  | int n => exact .int h
  | real x => exact h.elim
  | text t => exact .text h

theorem IsPortable.ofText? {t : Option Text} (h : ∀ s ∈ t, s.HasNoSurrogate) :
    IsPortable (.ofText? t) := by
  cases t with
  | none => exact .null
  | some s => exact .text (h s rfl)

theorem IsPortable.array_map {α : Type} {f : α → Json} {xs : List α}
    (h : ∀ x ∈ xs, IsPortable (f x)) : IsPortable (.array (xs.map f)) :=
  .array (List.forall_mem_map.mpr h)

theorem IsPortable.object_nil : IsPortable (.object []) := .object nofun nofun

theorem IsPortable.object_cons {k : Text} {v : Json} {ms : List (Text × Json)}
    (key : k.HasNoSurrogate) (value : IsPortable v) (rest : IsPortable (.object ms)) :
    IsPortable (.object ((k, v) :: ms)) := by
  cases rest with
  | object keys values =>
      exact .object (List.forall_mem_cons.mpr ⟨key, keys⟩)
        (List.forall_mem_cons.mpr ⟨value, values⟩)

/-- An object with a single text in it. -/
theorem IsPortable.object_text {k t : Text} (key : k.HasNoSurrogate) (h : t.HasNoSurrogate) :
    IsPortable (.object [(k, .text t)]) :=
  .object_cons key (.text h) .object_nil

end Json

theorem ServerDetails.isPortable_toJson {d : ServerDetails} (h : ∀ k, (d.get k).IsPortable) :
    d.toJson.IsPortable :=
  .object_cons (by decide) (.ofValue (h .portNumber)) <|
    .object_cons (by decide) (.ofValue (h .isPortEnv)) <|
      .object_cons (by decide) (.ofValue (h .host)) <|
        .object_cons (by decide) (.ofValue (h .backlog)) .object_nil

theorem Route.IsPortable.toJson {r : Route} (h : r.IsPortable) : r.toJson.IsPortable :=
  .object_cons (by decide) (.text h.path) <|
    .object_cons (by decide) (.text h.method) <|
      .object_cons (by decide) (.ofText? h.router) <|
        .object_cons (by decide) (.text h.source) <|
          .object_cons (by decide) (.array_map fun t mem => .text (h.middleware t mem)) <|
            .object_cons (by decide) (.ofText? h.description) .object_nil

namespace Document

theorem IsPortable.localsToJson {d : Document} (h : d.IsPortable) : d.localsToJson.IsPortable := by
  apply Json.IsPortable.object
  · exact List.forall_mem_map.mpr fun m mem => (h.locals m mem).1
  · refine List.forall_mem_map.mpr fun m mem => .array_map fun path inPaths => ?_
    exact .object_text (by decide) ((h.locals m mem).2 path inPaths)

theorem IsPortable.toJson {d : Document} (h : d.IsPortable) : d.toJson.IsPortable := by
  have globals :
      (Json.array (d.globals.map fun name => .object [("name", .text name)])).IsPortable :=
    .array_map fun name mem => .object_text (by decide) (h.globals name mem)
  have middlewares := Json.IsPortable.object_cons (k := "global") (by decide) globals <|
    .object_cons (k := "local") (by decide) h.localsToJson .object_nil
  exact .object_cons (by decide) (ServerDetails.isPortable_toJson h.details) <|
    .object_cons (by decide) (.array_map fun r mem => (h.routes r mem).toJson) <|
      .object_cons (by decide) middlewares .object_nil

/-- The JSON text of a document is ASCII and is read as the published form of the document. Only
documents with the same published form have the same text. -/
theorem IsPortable.read_jsonText {d : Document} (h : d.IsPortable) :
    ∃ s, d.jsonText = .ok s ∧ Json.IsAscii s.toList ∧
      Json.read (Text.ofString s) = .ok d.toJson ∧
      ∀ e : Document, e.IsPortable → e.jsonText = .ok s → e.toJson = d.toJson := by
  obtain ⟨s, text, ascii, reads⟩ := h.toJson.read_print
  refine ⟨s, text, ascii, reads, ?_⟩
  intro e portable sameText
  obtain ⟨t, otherText, -, otherReads⟩ := portable.toJson.read_print
  obtain rfl : s = t := Except.ok.inj (sameText.symm.trans otherText)
  exact Except.ok.inj (otherReads.symm.trans reads)

/-- A document whose texts hold what JSON escapes: quotes, backslashes, controls, and code points
beyond the first plane. -/
def awkward : Document where
  server := ⟨.int (-65535), .bool false, .text "\"\\u0041\"", .null⟩
  routes := [⟨"/\u0000\t\n", "get", none, "C:\\app.js", [], some "😀 \u007f"⟩,
    ⟨"/é", "post", some "[", "/p/\x7b.js", ["auth", "log"], none⟩]
  globals := []
  locals := [("\"", ["/a", "/b\\"]), ("😀", [])]

theorem read_jsonText_awkward : awkward.IsPortable ∧
    ∃ s, awkward.jsonText = .ok s ∧ Json.IsAscii s.toList ∧
      Json.read (Text.ofString s) = .ok awkward.toJson ∧
      ∀ e : Document, e.IsPortable → e.jsonText = .ok s → e.toJson = awkward.toJson := by
  have routes : ∀ r ∈ awkward.routes, r.IsPortable := by
    intro r mem
    rcases List.mem_cons.mp mem with rfl | mem
    · exact ⟨by decide, by decide, by decide, by decide, by decide, by decide⟩
    · obtain rfl := List.mem_singleton.mp mem
      exact ⟨by decide, by decide, by decide, by decide, by decide, by decide⟩
  have portable : awkward.IsPortable :=
    ⟨fun k => by cases k <;> decide, routes, by decide, by decide⟩
  exact ⟨portable, IsPortable.read_jsonText portable⟩

end Document

end RouteAtlas
