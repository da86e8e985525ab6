import RouteAtlas.Document.Json
import RouteAtlas.Proofs.Document.Grouping
import RouteAtlas.Proofs.Document.Page
import RouteAtlas.Proofs.Facts.Legible
import RouteAtlas.Proofs.Json.Values
import RouteAtlas.Proofs.Markup.Reference

/-!
# What can be published

A document has a JSON text and a page unless a server detail is an integer beyond the digit limit.
The JSON text is ASCII. The page shows texts as they are, so it can be written only if none of them
holds a surrogate. In the document of extracted facts these are the paths and the details alone.
-/

namespace RouteAtlas

namespace Value

/-- The value is no integer beyond the digit limit. -/
def IsShort : Value → Prop
  | int n => (Nat.toDigits 10 n.natAbs).length ≤ Numeral.digitLimit
  | _ => True

/-- The value is no text with a surrogate. -/
def IsEncodable : Value → Prop
  | text t => t.HasNoSurrogate
  | _ => True

instance : DecidablePred IsShort
  | int _ => inferInstanceAs (Decidable (_ ≤ _))
  | null | bool _ | real _ | text _ => inferInstanceAs (Decidable True)

end Value

theorem Numeral.exists_decimal?_iff (n : Int) :
    (∃ t, decimal? n = some t) ↔ (Value.int n).IsShort := by
  simp only [decimal?, Value.IsShort]
  split
  · next long => simpa using long
  · next short => simpa using short

/-- No detail of the server is an integer beyond the digit limit. -/
def ServerDetails.IsShort (d : ServerDetails) : Prop := ∀ k, (d.get k).IsShort

theorem ServerDetails.isShort_unknown : unknown.IsShort := fun k => by cases k <;> trivial

/-- None of the texts that come from string literals into a page holds a surrogate. -/
structure Document.IsEncodable (d : Document) : Prop where
  port : d.server.portNumber.IsEncodable
  host : d.server.host.IsEncodable
  backlog : d.server.backlog.IsEncodable
  paths : ∀ r ∈ d.routes, r.path.HasNoSurrogate

/-! ## The JSON text -/

namespace Json

/-- No integer in the value is beyond the digit limit. -/
inductive IsShort : Json → Prop
  | null : IsShort .null
  | bool {b} : IsShort (.bool b)
  | int {n} (h : (Value.int n).IsShort) : IsShort (.int n)
  | real {x} : IsShort (.real x)
  | text {t} : IsShort (.text t)
  | array {es} (h : ∀ e ∈ es, IsShort e) : IsShort (.array es)
  | object {ms : List (Text × Json)} (h : ∀ m ∈ ms, IsShort m.2) : IsShort (.object ms)

theorem isShort_array {es : List Json} : IsShort (.array es) ↔ ∀ e ∈ es, e.IsShort :=
  ⟨fun | .array h => h, .array⟩

theorem isShort_object {ms : List (Text × Json)} :
    IsShort (.object ms) ↔ ∀ m ∈ ms, m.2.IsShort :=
  ⟨fun | .object h => h, .object⟩

theorem exists_printInt_iff (n : Int) : (∃ cs, printInt n = .ok cs) ↔ IsShort (.int n) := by
  have digits := Numeral.exists_decimal?_iff n
  have inside : IsShort (.int n) ↔ (Value.int n).IsShort := ⟨fun | .int h => h, .int⟩
  rw [inside, ← digits, printInt]
  cases Numeral.decimal? n <;> simp

mutual

/-- A value is printed exactly when its integers are within the limit. -/
theorem exists_printAt_iff (level : Nat) (j : Json) :
    (∃ cs, printAt level j = .ok cs) ↔ j.IsShort := by
  match j with
  | .null => exact iff_of_true ⟨_, rfl⟩ .null
  | .bool _ => exact iff_of_true ⟨_, rfl⟩ .bool
  | .int n => exact exists_printInt_iff n
  | .real _ => exact iff_of_true ⟨_, rfl⟩ .real
  | .text _ => exact iff_of_true ⟨_, rfl⟩ .text
  | .array [] => exact iff_of_true ⟨_, rfl⟩ (.array nofun)
  | .object [] => exact iff_of_true ⟨_, rfl⟩ (.object nofun)
  | .array (e :: es) =>
      have first := exists_printAt_iff (level + 1) e
      have rest := exists_printElements_iff (level + 1) es
      simp only [printAt, exists_bind_ok, bind_pure_comp, exists_fmap_ok, exists_and_right,
        isShort_array, List.forall_mem_cons, first, rest]
  | .object ((k, v) :: ms) =>
      have first := exists_printAt_iff (level + 1) v
      have rest := exists_printMembers_iff (level + 1) ms
      simp only [printAt, exists_bind_ok, bind_pure_comp, exists_fmap_ok, exists_and_right,
        isShort_object, List.forall_mem_cons, first, rest]

theorem exists_printElements_iff (level : Nat) (es : List Json) :
    (∃ cs, printElements level es = .ok cs) ↔ ∀ e ∈ es, e.IsShort := by
  match es with
  | [] => exact iff_of_true ⟨_, rfl⟩ nofun
  | e :: rest =>
      have first := exists_printAt_iff level e
      have later := exists_printElements_iff level rest
      simp only [printElements, exists_bind_ok, bind_pure_comp, exists_fmap_ok, exists_and_right,
        List.forall_mem_cons, first, later]

theorem exists_printMembers_iff (level : Nat) (ms : List (Text × Json)) :
    (∃ cs, printMembers level ms = .ok cs) ↔ ∀ m ∈ ms, m.2.IsShort := by
  match ms with
  | [] => exact iff_of_true ⟨_, rfl⟩ nofun
  | (k, v) :: rest =>
      have first := exists_printAt_iff level v
      have later := exists_printMembers_iff level rest
      simp only [printMembers, exists_bind_ok, bind_pure_comp, exists_fmap_ok, exists_and_right,
        List.forall_mem_cons, first, later]

end

theorem isShort_iff_all (j : Json) : j.IsShort ↔ j.All Value.IsShort := by
  constructor
  · intro h
    induction h with
    | null => exact .null trivial
    | bool => exact .bool trivial
    | int h => exact .int h
    | real => exact .real trivial
    | text => exact .text trivial
    | array _ ih => exact .array ih
    | object _ ih => exact .object ih
  · intro h
    induction h with
    | null => exact .null
    | bool => exact .bool
    | int h => exact .int h
    | real => exact .real
    | text => exact .text
    | array _ ih => exact .array ih
    | object _ ih => exact .object ih

end Json

section Values

variable {P : Value → Prop}

theorem ServerDetails.all_toJson (d : ServerDetails) : d.toJson.All P ↔ ∀ k, P (d.get k) := by
  have all : (∀ k, P (d.get k)) ↔
      P d.portNumber ∧ P d.isPortEnv ∧ P d.host ∧ P d.backlog :=
    ⟨fun h => ⟨h .portNumber, h .isPortEnv, h .host, h .backlog⟩,
      fun ⟨port, flag, host, backlog⟩ k => by cases k <;> assumption⟩
  simp [all, toJson, Json.all_object, Json.all_ofValue]

theorem Route.all_toJson (null : P .null) (texts : ∀ t, P (.text t)) (r : Route) :
    r.toJson.All P := by
  have text (t : Text) : (Json.text t).All P := .text (texts t)
  have text? (t : Option Text) : (Json.ofText? t).All P := by
    cases t with
    | none => exact .null null
    | some t => exact text t
  have middleware : (Json.array (r.middleware.map .text)).All P :=
    .array (List.forall_mem_map.mpr fun n _ => text n)
  simp [toJson, Json.all_object, text, text?, middleware]

/-- What holds of null and of every text holds of all values in a document exactly if it holds of
the details of the server. -/
theorem Document.all_toJson (null : P .null) (texts : ∀ t, P (.text t)) (d : Document) :
    d.toJson.All P ↔ ∀ k, P (d.server.get k) := by
  have named {α : Type} {f : α → Text} {k : Text} (xs : List α) :
      (Json.array (xs.map fun x => .object [(k, .text (f x))])).All P := by
    refine .array (List.forall_mem_map.mpr fun x _ => ?_)
    exact .object (List.forall_mem_singleton.mpr (.text (texts (f x))))
  have locals : d.localsToJson.All P :=
    .object (List.forall_mem_map.mpr fun m _ => named m.2)
  rw [← ServerDetails.all_toJson]
  have text (t : Text) : (Json.text t).All P := .text (texts t)
  simp [toJson, Json.all_object, Json.all_array, Route.all_toJson null texts, locals, text]

end Values

theorem Document.exists_jsonText_iff (d : Document) :
    (∃ s, d.jsonText = .ok s) ↔ d.server.IsShort := by
  rw [jsonText, Json.print, exists_map_ok, Json.exists_printAt_iff, Json.isShort_iff_all,
    Document.all_toJson trivial fun _ => trivial]
  rfl

/-! ## The page -/

/-- A value that is present has a text if it is short, and zero is short. -/
theorem Value.exists_toText?_iff (v : Value) :
    (v.isPresent = true → ∃ t, v.toText? = some t) ↔ v.IsShort := by
  cases v with
  | int n =>
      by_cases zero : n = 0
      · subst zero
        exact iff_of_true (fun present => absurd present (by decide)) (by decide)
      · have present : (int n).isPresent = true := by simpa [isPresent] using zero
        rw [← Numeral.exists_decimal?_iff]
        exact ⟨fun h => h present, fun h _ => h⟩
  | null => exact iff_of_true (fun _ => ⟨_, rfl⟩) trivial
  | bool b => exact iff_of_true (fun _ => by cases b <;> exact ⟨_, rfl⟩) trivial
  | real x => exact iff_of_true (fun _ => ⟨_, rfl⟩) trivial
  | text t => exact iff_of_true (fun _ => ⟨_, rfl⟩) trivial

namespace Page

theorem exists_box_iff (title note : String) (v : Value) :
    (∃ ps, box title v note = .ok ps) ↔ v.IsShort := by
  rw [← Value.exists_toText?_iff, box]
  cases v.isPresent with
  | false => exact iff_of_true ⟨_, rfl⟩ fun h => absurd h Bool.false_ne_true
  | true => cases v.toText? <;> simp

theorem exists_parts_iff (d : Document) :
    (∃ ps, parts d = .ok ps) ↔
      d.server.portNumber.IsShort ∧ d.server.host.IsShort ∧ d.server.backlog.IsShort := by
  simp only [parts, bind_pure_comp, exists_bind_ok, exists_fmap_ok, exists_and_right,
    exists_box_iff]

end Page

namespace Markup

theorem hasNoSurrogate_escape (t : Text) : (escape t).HasNoSurrogate ↔ t.HasNoSurrogate := by
  induction t with
  | nil => exact Iff.rfl
  | cons c r ih =>
      have first : (escape [c]).HasNoSurrogate ↔ ¬ c.IsSurrogate := by
        rcases escape_singleton c with reference | ⟨same, -⟩
        · have plain : ∀ e ∈ references, e.1.HasNoSurrogate ∧ ¬ e.2.IsSurrogate := by decide
          exact iff_of_true (plain _ reference).1 (plain _ reference).2
        · simp [same, Text.HasNoSurrogate]
      rw [escape_cons, Text.hasNoSurrogate_append, Text.hasNoSurrogate_cons, first, ih]

/-- A rendered page has the surrogates of its values. -/
theorem hasNoSurrogate_render (ps : List Markup) :
    (render ps).HasNoSurrogate ↔ ∀ t ∈ ps.filterMap value?, t.HasNoSurrogate := by
  induction ps with
  | nil => exact iff_of_true nofun nofun
  | cons part rest ih =>
      have split : (render (part :: rest)).HasNoSurrogate ↔
          part.toText.HasNoSurrogate ∧ (render rest).HasNoSurrogate :=
        Text.hasNoSurrogate_append
      rw [split, ih]
      cases part with
      | fixed s =>
          exact and_iff_right (Text.hasNoSurrogate_ofString s)
      | value t =>
          rw [toText, hasNoSurrogate_escape]
          exact List.forall_mem_cons.symm

end Markup

theorem Binary64.hasNoSurrogate_toText (x : Binary64) : x.toText.HasNoSurrogate := by
  have plain := Text.hasNoSurrogate_ofString
  cases x with
  | nan => exact plain _
  | infinity negative => cases negative <;> exact plain _
  | finite negative m e => cases negative <;> exact plain _

/-- Only the text of a text can hold a surrogate. -/
theorem Value.hasNoSurrogate_of_toText? {v : Value} {t : Text} (h : v.toText? = some t)
    (encodable : v.IsEncodable) : t.HasNoSurrogate := by
  have plain := Text.hasNoSurrogate_ofString
  cases v with
  | null =>
      obtain rfl := Option.some.inj h
      exact plain _
  | bool b =>
      cases b <;>
      · obtain rfl := Option.some.inj h
        exact plain _
  | int n =>
      simp only [toText?, Numeral.decimal?] at h
      split at h
      · cases h
      · obtain rfl := Option.some.inj h
        exact plain _
  | real x =>
      obtain rfl := Option.some.inj h
      exact x.hasNoSurrogate_toText
  | text s =>
      obtain rfl := Option.some.inj h
      exact encodable

theorem Page.forall_shownValue_iff (v : Value) :
    (∀ t ∈ shownValue v, t.HasNoSurrogate) ↔ v.IsEncodable := by
  constructor
  · intro h
    cases v with
    | text t =>
        cases t with
        | nil => exact nofun
        | cons c rest => exact h (c :: rest) List.mem_cons_self
    | _ => trivial
  · intro encodable t mem
    unfold shownValue at mem
    split at mem
    · exact Value.hasNoSurrogate_of_toText? (Option.mem_toList.mp mem) encodable
    · cases mem

/-! ## Legible documents -/

/-- What the page shows beside paths and details is legible, and whether the port comes from the
environment is a truth value. -/
structure Document.IsLegible (d : Document) : Prop where
  globals : ∀ n ∈ d.globals, n.HasNoSurrogate
  routes : ∀ r ∈ d.routes, r.IsLegible
  flag : d.server.isPortEnv.IsShort

/-- The block of a legible route shows no surrogate if the path holds none. -/
theorem Route.IsLegible.hasNoSurrogate_of_mem_shown {r : Route} (h : r.IsLegible) {method t : Text}
    (name : method.HasNoSurrogate) (path : r.path.HasNoSurrogate)
    (shown : t ∈ Page.shownRoute method r) : t.HasNoSurrogate := by
  have parts : t = method ∨ t = r.path ∨ Page.description? r = some t ∨ t ∈ r.middleware := by
    simpa [Page.shownRoute] using shown
  rcases parts with rfl | rfl | description | middleware
  · exact name
  · exact path
  · exact h.description t (Option.filter_eq_some_iff.mp description).1
  · exact h.middleware t middleware

namespace Document.IsLegible

variable {d : Document}

theorem hasNoSurrogate_of_mem_keys (h : d.IsLegible) {k : Text}
    (mem : k ∈ (groupByMethod d.routes).map Prod.fst) : k.HasNoSurrogate := by
  have known : ∀ m ∈ CallSite.methods, (Text.upper m).HasNoSurrogate := by decide +kernel
  obtain ⟨r, inRoutes, rfl⟩ := Page.exists_of_mem_keys mem
  exact known _ (h.routes r inRoutes).method

/-- The columns show no surrogate if no path of a route holds one. -/
theorem forall_columns_iff (h : d.IsLegible) :
    (∀ t ∈ (groupByMethod d.routes).flatMap fun g => Page.shownColumn g.1 g.2,
      t.HasNoSurrogate) ↔ ∀ r ∈ d.routes, r.path.HasNoSurrogate := by
  constructor
  · intro all r mem
    obtain ⟨g, inGroups, inGroup⟩ :=
      List.mem_flatMap.mp ((Page.mem_groupByMethod d.routes r).mpr mem)
    have shown : r.path ∈ Page.shownColumn g.1 g.2 :=
      List.mem_cons_of_mem _ (List.mem_flatMap.mpr ⟨r, inGroup, by simp [Page.shownRoute]⟩)
    exact all _ (List.mem_flatMap.mpr ⟨g, inGroups, shown⟩)
  · intro paths t mem
    obtain ⟨g, inGroups, shown⟩ := List.mem_flatMap.mp mem
    have name := h.hasNoSurrogate_of_mem_keys (List.mem_map_of_mem inGroups)
    rcases List.mem_cons.mp shown with rfl | shown
    · exact name
    · obtain ⟨r, inGroup, shown⟩ := List.mem_flatMap.mp shown
      have inRoutes := (Page.mem_groupByMethod d.routes r).mp
        (List.mem_flatMap.mpr ⟨g, inGroups, inGroup⟩)
      exact (h.routes r inRoutes).hasNoSurrogate_of_mem_shown name (paths r inRoutes) shown

theorem isEncodable_iff (h : d.IsLegible) :
    (∀ t ∈ d.shown, t.HasNoSurrogate) ↔ d.IsEncodable := by
  simp only [shown, List.forall_mem_append, Page.forall_shownValue_iff, h.forall_columns_iff]
  exact ⟨fun ⟨⟨⟨⟨port, host⟩, backlog⟩, _⟩, paths⟩ => ⟨port, host, backlog, paths⟩,
    fun e => ⟨⟨⟨⟨e.port, e.host⟩, e.backlog⟩, h.globals⟩, e.paths⟩⟩

/-- The page of a legible document exists under the same condition as its JSON text. -/
theorem exists_page_iff (h : d.IsLegible) : (∃ t, d.page = .ok t) ↔ d.server.IsShort := by
  rw [page, exists_map_ok, Page.exists_parts_iff]
  constructor
  · rintro ⟨port, host, backlog⟩ (_ | _ | _ | _)
    · exact port
    · exact h.flag
    · exact host
    · exact backlog
  · exact fun short => ⟨short .portNumber, short .host, short .backlog⟩

/-- The page of a legible document can be written if its paths and details can. -/
theorem encode?_page_iff (h : d.IsLegible) {t : Text} (made : d.page = .ok t) :
    (∃ bytes, Utf8.encode? t = some bytes) ↔ d.IsEncodable := by
  rw [Utf8.exists_encode?_iff, ← h.isEncodable_iff]
  unfold page at made
  cases parts : Page.parts d with
  | error e =>
      rw [parts] at made
      cases made
  | ok ps =>
      rw [parts] at made
      obtain rfl := Except.ok.inj made
      rw [Markup.hasNoSurrogate_render, (Page.shows_parts parts).values]

end Document.IsLegible

theorem Document.isLegible_ofFacts {fs : List Facts} (h : ∀ f ∈ fs, f.IsExtract) :
    (ofFacts fs).IsLegible where
  globals n mem := by
    obtain ⟨f, inFs, mem⟩ := List.mem_flatMap.mp mem
    exact (h f inFs).isLegible.1.globals n mem
  routes r mem := by
    obtain ⟨origin, inFacts, copy⟩ := List.mem_flatMap.mp mem
    obtain ⟨f, inFs, inFile⟩ := List.mem_flatMap.mp inFacts
    have legible := (h f inFs).isLegible.1.routes origin inFile
    unfold MountPoints.copies at copy
    split at copy
    · exact List.mem_singleton.mp copy ▸ legible
    · obtain ⟨mount, -, rfl⟩ := List.mem_map.mp copy
      exact ⟨legible.method, legible.middleware, legible.description⟩
  flag := by
    have run (d : ServerDetails) (short : d.isPortEnv.IsShort) :
        (fs.foldl ServerDetails.merge d).isPortEnv.IsShort := by
      induction fs generalizing d with
      | nil => exact short
      | cons f rest ih =>
          obtain ⟨here, later⟩ := List.forall_mem_cons.mp h
          obtain ⟨-, calls, details⟩ := here.isLegible
          refine ih later _ ?_
          rw [d.merge_eq details]
          cases calls.getLast? with
          | none => exact short
          | some call => trivial
    exact run .unknown trivial

end RouteAtlas
