import Mathlib.Data.List.Forall2
import RouteAtlas.Document.Page
import RouteAtlas.Proofs.Markup.Tag
import RouteAtlas.Proofs.Markup.Template

/-!
# What a page shows

A page is a template with its holes filled. The template depends on the shape of the document alone:
how many routes, names and columns there are, and which values are present. The values stand in the
holes, escaped. So nothing that a source file says can add a tag to a page or take one away; only
the badge of a method carries a value in its class.
-/

namespace RouteAtlas

namespace Page

open Markup

/-- What the block of a route shows: a description or none, and so many middlewares. -/
structure RouteShape where
  hasDescription : Bool
  middleware : Nat
deriving DecidableEq

/-- What a page shows, but for the values themselves. -/
structure Shape where
  hasPort : Bool
  isPortEnv : Bool
  hasHost : Bool
  hasBacklog : Bool
  globals : Nat
  columns : List (List RouteShape)
deriving DecidableEq

/-- The description of a route, unless it is empty. -/
def description? (r : Route) : Option Text := r.description.filter fun d => !d.isEmpty

def routeShape (r : Route) : RouteShape := ⟨(description? r).isSome, r.middleware.length⟩

/-- So many names as tags. -/
def tagsTemplate (n : Nat) : Template :=
  (List.replicate n [some "<span class=\"tag\">", none, some "</span>"]).flatten

/-- The box of a detail that is present. -/
def boxTemplate (title note : String) (isPresent : Bool) : Template :=
  if isPresent then
    [some ("<div class=\"server-box\"><b>" ++ title ++ ":</b> "), none, some (note ++ "</div>\n")]
  else []

/-- Names as tags in a box of their own, if there are any. -/
def namesTemplate (opening : String) (n : Nat) : Template :=
  if n = 0 then [] else some opening :: tagsTemplate n ++ [some "</div>\n"]

/-- The block of a route up to the class of its badge. -/
def badgeOpening : String := "<div class=\"endpoint\">\n<h3><span class=\"method "

def endpointTemplate (s : RouteShape) : Template :=
  [some badgeOpening, none, some "\">", none, some "</span><span class=\"path\">", none,
    some "</span></h3>\n"]
    ++ (if s.hasDescription then [some "<p class=\"desc\">", none, some "</p>\n"] else [])
    ++ namesTemplate "<div><b>Middleware:</b> " s.middleware ++ [some "</div>\n"]

def columnTemplate (routes : List RouteShape) : Template :=
  [some "<div class=\"column\"><h2>", none, some "</h2>\n"]
    ++ routes.flatMap endpointTemplate ++ [some "</div>\n"]

/-- The template of all pages of one shape. -/
def template (s : Shape) : Template :=
  [some opening, some (columnRule (decide (2 < s.columns.length))), some styles]
    ++ boxTemplate "Port" (if s.isPortEnv then " (env)" else "") s.hasPort
    ++ boxTemplate "Host" "" s.hasHost ++ boxTemplate "Backlog" "" s.hasBacklog
    ++ namesTemplate "<div class=\"server-box\"><b>Global Middleware:</b> " s.globals
    ++ some "</div>\n<div class=\"columns\">\n" :: s.columns.flatMap columnTemplate
    ++ [some "</div>\n</body>\n</html>"]

/-- The text of a value that is present. -/
def shownValue (v : Value) : List Text := if v.isPresent then v.toText?.toList else []

/-- The values that the block of a route shows: its method in the badge twice, and its own. -/
def shownRoute (method : Text) (r : Route) : List Text :=
  [method, method, r.path] ++ (description? r).toList ++ r.middleware

def shownColumn (method : Text) (routes : List Route) : List Text :=
  method :: routes.flatMap (shownRoute method)

end Page

open Page in
/-- The shape of a document's page. -/
def Document.shape (d : Document) : Shape where
  hasPort := d.server.portNumber.isPresent
  isPortEnv := d.server.isPortEnv.isPresent
  hasHost := d.server.host.isPresent
  hasBacklog := d.server.backlog.isPresent
  globals := d.globals.length
  columns := (groupByMethod d.routes).map fun g => g.2.map routeShape

open Page in
/-- The values that a document's page shows, in the order in which it shows them. -/
def Document.shown (d : Document) : List Text :=
  shownValue d.server.portNumber ++ shownValue d.server.host ++ shownValue d.server.backlog
    ++ d.globals ++ (groupByMethod d.routes).flatMap fun g => shownColumn g.1 g.2

namespace Page

open Markup

section Parts

theorem shows_tags (names : List Text) : Shows (tags names) (tagsTemplate names.length) names := by
  induction names with
  | nil => exact ⟨rfl, rfl⟩
  | cons name rest ih =>
      have first : Shows [.fixed "<span class=\"tag\">", .value name, .fixed "</span>"]
          [some "<span class=\"tag\">", none, some "</span>"] [name] := ⟨rfl, rfl⟩
      exact first.append ih

/-- Names in a box of their own, which is there if there are any names. -/
theorem shows_names (opening : String) (names : List Text) :
    Shows (if names.isEmpty then [] else .fixed opening :: tags names ++ [.fixed "</div>\n"])
      (namesTemplate opening names.length) names := by
  cases names with
  | nil => exact ⟨rfl, rfl⟩
  | cons name rest =>
      have first : Shows [.fixed opening] [some opening] [] := ⟨rfl, rfl⟩
      have last : Shows [.fixed "</div>\n"] [some "</div>\n"] [] := ⟨rfl, rfl⟩
      have whole := (first.append (shows_tags (name :: rest))).append last
      rw [List.append_nil] at whole
      exact whole

/-- A box shows the text of a value that is present; without one there is no box. -/
theorem exists_of_box {title note : String} {v : Value} {parts : List Markup}
    (h : box title v note = .ok parts) :
    (v.isPresent = true ∧ ∃ t, v.toText? = some t ∧
      parts = [.fixed ("<div class=\"server-box\"><b>" ++ title ++ ":</b> "), .value t,
        .fixed (note ++ "</div>\n")]) ∨
    (v.isPresent = false ∧ parts = []) := by
  cases present : v.isPresent with
  | false =>
      rw [box, present] at h
      exact .inr ⟨rfl, (Except.ok.inj h).symm⟩
  | true =>
      cases text : v.toText? with
      | none =>
          rw [box, present, text] at h
          cases h
      | some t =>
          rw [box, present, text] at h
          exact .inl ⟨rfl, t, rfl, (Except.ok.inj h).symm⟩

theorem shows_box {title note : String} {v : Value} {parts : List Markup}
    (h : box title v note = .ok parts) :
    Shows parts (boxTemplate title note v.isPresent) (shownValue v) := by
  obtain ⟨present, t, text, rfl⟩ | ⟨absent, rfl⟩ := exists_of_box h
  · simp only [boxTemplate, shownValue, present, text, if_true]
    exact ⟨rfl, rfl⟩
  · simp only [boxTemplate, shownValue, absent]
    exact ⟨rfl, rfl⟩

theorem shows_endpoint (method : Text) (r : Route) :
    Shows (endpoint method r) (endpointTemplate (routeShape r)) (shownRoute method r) := by
  have head : Shows [.fixed badgeOpening, .value method, .fixed "\">", .value method,
        .fixed "</span><span class=\"path\">", .value r.path, .fixed "</span></h3>\n"]
      [some badgeOpening, none, some "\">", none, some "</span><span class=\"path\">", none,
        some "</span></h3>\n"] [method, method, r.path] := ⟨rfl, rfl⟩
  have middleware := shows_names "<div><b>Middleware:</b> " r.middleware
  have last : Shows [.fixed "</div>\n"] [some "</div>\n"] [] := ⟨rfl, rfl⟩
  have block {description : List Markup} {f : Template} {ts : List Text}
      (shown : Shows description f ts) :=
    ((head.append shown).append middleware).append last
  simp only [List.append_nil] at block
  obtain ⟨path, _, router, source, names, description⟩ := r
  cases description with
  | none => exact block ⟨rfl, rfl⟩
  | some d =>
      cases d with
      | nil => exact block ⟨rfl, rfl⟩
      | cons c rest =>
          have shown : Shows [.fixed "<p class=\"desc\">", .value (c :: rest), .fixed "</p>\n"]
              [some "<p class=\"desc\">", none, some "</p>\n"] [c :: rest] := ⟨rfl, rfl⟩
          exact block shown

theorem shows_column (method : Text) (routes : List Route) :
    Shows (column method routes) (columnTemplate (routes.map routeShape))
      (shownColumn method routes) := by
  have head : Shows [.fixed "<div class=\"column\"><h2>", .value method, .fixed "</h2>\n"]
      [some "<div class=\"column\"><h2>", none, some "</h2>\n"] [method] := ⟨rfl, rfl⟩
  have last : Shows [.fixed "</div>\n"] [some "</div>\n"] [] := ⟨rfl, rfl⟩
  have blocks := Shows.flatMap (shows_endpoint method) routes
  have whole := (head.append blocks).append last
  rw [List.append_nil] at whole
  rw [columnTemplate, List.flatMap_map]
  exact whole

/-- The parts of a page, with a box for each detail. -/
theorem exists_of_parts {d : Document} {ps : List Markup} (h : parts d = .ok ps) :
    ∃ port host backlog,
      box "Port" d.server.portNumber (if d.server.isPortEnv.isPresent then " (env)" else "") =
          .ok port ∧
        box "Host" d.server.host "" = .ok host ∧ box "Backlog" d.server.backlog "" = .ok backlog ∧
        ps = [.fixed opening, .fixed (columnRule (decide (2 < (groupByMethod d.routes).length))),
            .fixed styles]
          ++ port ++ host ++ backlog
          ++ (if d.globals.isEmpty then []
            else .fixed "<div class=\"server-box\"><b>Global Middleware:</b> " :: tags d.globals
              ++ [.fixed "</div>\n"])
          ++ .fixed "</div>\n<div class=\"columns\">\n" ::
            (groupByMethod d.routes).flatMap (fun g => column g.1 g.2)
          ++ [.fixed "</div>\n</body>\n</html>"] := by
  simp only [parts, bind, Except.bind, pure, Except.pure] at h
  cases port : box "Port" d.server.portNumber
      (if d.server.isPortEnv.isPresent then " (env)" else "") with
  | error e =>
      rw [port] at h
      cases h
  | ok portBox =>
  cases host : box "Host" d.server.host "" with
  | error e =>
      rw [port, host] at h
      cases h
  | ok hostBox =>
  cases backlog : box "Backlog" d.server.backlog "" with
  | error e =>
      rw [port, host, backlog] at h
      cases h
  | ok backlogBox =>
      rw [port, host, backlog] at h
      exact ⟨portBox, hostBox, backlogBox, rfl, rfl, rfl, (Except.ok.inj h).symm⟩

/-- A page is made of the template for its shape and of the values that it shows. -/
theorem shows_parts {d : Document} {ps : List Markup} (h : parts d = .ok ps) :
    Shows ps (template d.shape) d.shown := by
  have head : Shows
      [.fixed opening, .fixed (columnRule (decide (2 < (groupByMethod d.routes).length))),
        .fixed styles]
      [some opening, some (columnRule (decide (2 < (groupByMethod d.routes).length))), some styles]
      [] := ⟨rfl, rfl⟩
  have globals := shows_names "<div class=\"server-box\"><b>Global Middleware:</b> " d.globals
  have bar : Shows [.fixed "</div>\n<div class=\"columns\">\n"]
      [some "</div>\n<div class=\"columns\">\n"] [] := ⟨rfl, rfl⟩
  have columns := Shows.flatMap (fun g => shows_column g.1 g.2) (groupByMethod d.routes)
  have last : Shows [.fixed "</div>\n</body>\n</html>"] [some "</div>\n</body>\n</html>"] [] :=
    ⟨rfl, rfl⟩
  obtain ⟨port, host, backlog, hasPort, hasHost, hasBacklog, rfl⟩ := exists_of_parts h
  have boxes := ((head.append (shows_box hasPort)).append (shows_box hasHost)).append
    (shows_box hasBacklog)
  have whole := ((boxes.append globals).append (bar.append columns)).append last
  rw [List.append_nil] at whole
  simp only [template, Document.shape, List.length_map, List.flatMap_map]
  exact whole

end Parts

section Tags

/-- The tag of a method's badge. -/
def badge (method : Text) : Text :=
  Text.ofString "<span class=\"method " ++ escape method ++ Text.ofString "\">"

/-- Two tags are the same, but for the method if they are badges. -/
def SameTag (a b : Text) : Prop := a = b ∨ ∃ m n, a = badge m ∧ b = badge n

/-- Two texts that both end outside of tags have the same tags, but for methods. -/
structure SameTags (s t : Text) : Prop where
  left : IsClosed s
  right : IsClosed t
  tags : List.Forall₂ SameTag (tagsIn s) (tagsIn t)

theorem SameTags.append {s t u v : Text} (h : SameTags s t) (k : SameTags u v) :
    SameTags (s ++ u) (t ++ v) where
  left := h.left.append k.left
  right := h.right.append k.right
  tags := by
    rw [tagsIn_append h.left, tagsIn_append h.right]
    exact List.rel_append h.tags k.tags

theorem SameTags.of_isClosed {s : Text} (closed : IsClosed s) : SameTags s s where
  left := closed
  right := closed
  tags := List.forall₂_same.mpr fun _ _ => .inl rfl

theorem SameTags.escape (t u : Text) : SameTags (escape t) (escape u) := by
  have none (t : Text) := Place.scan_between (plain_escape t)
  refine ⟨congrArg Prod.fst (none t), congrArg Prod.fst (none u), ?_⟩
  rw [tagsIn, tagsIn, none t, none u]
  exact .nil

/-- The block of a route begins with a badge for whatever method. -/
theorem scan_badge (method : Text) :
    Place.between.scan
        (Text.ofString badgeOpening ++ (Markup.escape method ++ Text.ofString "\">")) =
      (.between,
        [Text.ofString "<div class=\"endpoint\">", Text.ofString "<h3>", badge method]) := by
  have opening : Place.between.scan (Text.ofString badgeOpening) =
      (.quoted (Text.ofString "<span class=\"method ") '"',
        [Text.ofString "<div class=\"endpoint\">", Text.ofString "<h3>"]) := rfl
  have value (sofar : Text) : (Place.quoted sofar '"').scan (Markup.escape method) =
      (.quoted (sofar ++ Markup.escape method) '"', []) :=
    Place.scan_quoted (by decide) (plain_escape method) sofar
  have closing (sofar : Text) : (Place.quoted sofar '"').scan (Text.ofString "\">") =
      (.between, [sofar ++ Text.ofString "\">"]) := by
    have marks : (Place.quoted sofar '"').scan (Text.ofString "\">") =
        (.between, [sofar ++ Text.ofString "\"" ++ Text.ofString ">"]) := rfl
    rw [marks, List.append_assoc]
    rfl
  rw [Place.scan_append, opening, Place.scan_append, value, closing]
  rfl

theorem SameTags.badge (m n : Text) :
    SameTags (Text.ofString badgeOpening ++ (Markup.escape m ++ Text.ofString "\">"))
      (Text.ofString badgeOpening ++ (Markup.escape n ++ Text.ofString "\">")) := by
  refine ⟨congrArg Prod.fst (scan_badge m), congrArg Prod.fst (scan_badge n), ?_⟩
  rw [tagsIn, tagsIn, scan_badge, scan_badge]
  exact .cons (.inl rfl) (.cons (.inl rfl) (.cons (.inr ⟨m, n, rfl, rfl⟩) .nil))

/-- The fixed pieces of a template hold whole tags, but for the badges of methods. -/
inductive WellFramed : Template → Prop
  | nil : WellFramed []
  | fixed {s f} (closed : IsClosed (Text.ofString s)) (rest : WellFramed f) :
    WellFramed (some s :: f)
  | hole {f} (rest : WellFramed f) : WellFramed (none :: f)
  | badge {f} (rest : WellFramed f) :
    WellFramed (some badgeOpening :: none :: some "\">" :: f)

theorem WellFramed.append {f g : Template} (hf : WellFramed f) (hg : WellFramed g) :
    WellFramed (f ++ g) := by
  induction hf with
  | nil => exact hg
  | fixed closed _ ih => exact .fixed closed ih
  | hole _ ih => exact .hole ih
  | badge _ ih => exact .badge ih

theorem WellFramed.flatMap {α : Type} {f : α → Template} (h : ∀ x, WellFramed (f x))
    (xs : List α) : WellFramed (xs.flatMap f) := by
  induction xs with
  | nil => exact .nil
  | cons x rest ih => exact (h x).append ih

/-- Filled with whatever values, a template has the same tags. -/
theorem WellFramed.sameTags_fill {f : Template} (h : WellFramed f) (ts us : List Text) :
    SameTags (fill f (ts.map Markup.escape)) (fill f (us.map Markup.escape)) := by
  have first (ts : List Text) :
      (ts.map Markup.escape).headD [] = Markup.escape (ts.headD []) := by
    cases ts <;> rfl
  induction h generalizing ts us with
  | nil => exact .of_isClosed rfl
  | fixed closed _ ih => exact (SameTags.of_isClosed closed).append (ih ts us)
  | hole _ ih =>
      simp only [fill, first, ← List.map_tail]
      exact (SameTags.escape _ _).append (ih ts.tail us.tail)
  | badge _ ih =>
      simp only [fill, first, ← List.map_tail]
      have whole := (SameTags.badge (ts.headD []) (us.headD [])).append (ih ts.tail us.tail)
      simpa only [List.append_assoc] using whole

theorem wellFramed_tags (n : Nat) : WellFramed (tagsTemplate n) := by
  induction n with
  | zero => exact .nil
  | succ n ih => exact .fixed rfl (.hole (.fixed rfl ih))

theorem wellFramed_names {opening : String} (closed : IsClosed (Text.ofString opening)) (n : Nat) :
    WellFramed (namesTemplate opening n) := by
  unfold namesTemplate
  split
  · exact .nil
  · exact .fixed closed ((wellFramed_tags n).append (.fixed rfl .nil))

theorem wellFramed_endpoint (s : RouteShape) : WellFramed (endpointTemplate s) := by
  have description : WellFramed
      (if s.hasDescription then [some "<p class=\"desc\">", none, some "</p>\n"] else []) := by
    split
    · exact .fixed rfl (.hole (.fixed rfl .nil))
    · exact .nil
  have head : WellFramed [some badgeOpening, none, some "\">", none,
      some "</span><span class=\"path\">", none, some "</span></h3>\n"] :=
    .badge (.hole (.fixed rfl (.hole (.fixed rfl .nil))))
  have closed : IsClosed (Text.ofString "<div><b>Middleware:</b> ") := rfl
  have middleware := wellFramed_names closed s.middleware
  exact ((head.append description).append middleware).append (.fixed rfl .nil)

theorem wellFramed_column (routes : List RouteShape) : WellFramed (columnTemplate routes) := by
  have head : WellFramed [some "<div class=\"column\"><h2>", none, some "</h2>\n"] :=
    .fixed rfl (.hole (.fixed rfl .nil))
  exact (head.append (.flatMap wellFramed_endpoint routes)).append (.fixed rfl .nil)

set_option maxRecDepth 4000 in
theorem isClosed_opening : IsClosed (Text.ofString opening) :=
  isClosed_ofString_append (isClosed_ofString rfl (by decide +kernel))
    (isClosed_ofString rfl (by decide +kernel))

set_option maxRecDepth 4000 in
theorem isClosed_styles : IsClosed (Text.ofString styles) :=
  isClosed_ofString_append
    (isClosed_ofString_append (isClosed_ofString rfl (by decide +kernel))
      (isClosed_ofString rfl (by decide +kernel)))
    (isClosed_ofString rfl (by decide +kernel))

theorem isClosed_columnRule (sideBySide : Bool) :
    IsClosed (Text.ofString (columnRule sideBySide)) := by
  cases sideBySide <;> rfl

theorem wellFramed_box {title note : String}
    (head : IsClosed (Text.ofString ("<div class=\"server-box\"><b>" ++ title ++ ":</b> ")))
    (last : IsClosed (Text.ofString (note ++ "</div>\n"))) (isPresent : Bool) :
    WellFramed (boxTemplate title note isPresent) := by
  unfold boxTemplate
  split
  · exact .fixed head (.hole (.fixed last .nil))
  · exact .nil

theorem wellFramed_template (s : Shape) : WellFramed (template s) := by
  have head : WellFramed
      [some opening, some (columnRule (decide (2 < s.columns.length))), some styles] :=
    .fixed isClosed_opening (.fixed (isClosed_columnRule _) (.fixed isClosed_styles .nil))
  have port : WellFramed (boxTemplate "Port" (if s.isPortEnv then " (env)" else "") s.hasPort) := by
    apply wellFramed_box
    · rfl
    · cases s.isPortEnv <;> rfl
  have host : WellFramed (boxTemplate "Host" "" s.hasHost) := by
    apply wellFramed_box <;> rfl
  have backlog : WellFramed (boxTemplate "Backlog" "" s.hasBacklog) := by
    apply wellFramed_box <;> rfl
  have closed : IsClosed
    (Text.ofString "<div class=\"server-box\"><b>Global Middleware:</b> ") := rfl
  have globals := wellFramed_names closed s.globals
  have columns : WellFramed
      (some "</div>\n<div class=\"columns\">\n" :: s.columns.flatMap columnTemplate) :=
    .fixed rfl (.flatMap wellFramed_column s.columns)
  have last : WellFramed [some "</div>\n</body>\n</html>"] := .fixed rfl .nil
  exact (((((head.append port).append host).append backlog).append globals).append columns).append
    last

end Tags

end Page

open Markup Page in
/-- A page is the template for the shape of its document, with the escaped values of the document in
the holes, one in each. No escaped value is markup in any part, and each can be read back. So pages
of one shape have the same tags, but for the methods in their badges. -/
theorem Document.page_eq_fill (d : Document) {page : Text} (h : d.page = .ok page) :
    page = fill (template d.shape) (d.shown.map escape) ∧
      (template d.shape).count none = d.shown.length ∧
      (∀ t ∈ d.shown, IsInert (escape t) ∧ unescape (escape t) = t) ∧
      ∀ (e : Document) (other : Text), e.page = .ok other → e.shape = d.shape →
        List.Forall₂ SameTag (tagsIn page) (tagsIn other) := by
  have filled {d : Document} {page : Text} (h : d.page = .ok page) :
      page = fill (template d.shape) (d.shown.map escape) ∧
        (template d.shape).count none = d.shown.length := by
    unfold Document.page at h
    cases made : parts d with
    | error e =>
        rw [made] at h
        cases h
    | ok ps =>
        rw [made] at h
        obtain rfl := Except.ok.inj h
        have shows := shows_parts made
        exact ⟨shows.render, shows.count_none⟩
  obtain ⟨eq, holes⟩ := filled h
  refine ⟨eq, holes, fun t _ => ⟨isInert_escape t, unescape_escape t⟩, ?_⟩
  intro e other otherPage sameShape
  rw [eq, (filled otherPage).1, sameShape]
  exact ((wellFramed_template d.shape).sameTags_fill d.shown e.shown).tags

/-- A document whose texts try to be markup. -/
def hostileDocument : Document where
  server := ⟨.text "80</div><script>", .bool true, .null, .null⟩
  routes := [⟨"/<b>", "get\" onclick=\"", none, "/p/app.js", ["<i>", "'&amp;"], some "</p>&#34;"⟩]
  globals := ["</span><!--"]
  locals := []

/-- A document of the same shape. -/
def plainDocument : Document where
  server := ⟨.int 80, .bool true, .null, .null⟩
  routes := [⟨"/list", "get", some "users", "/p/users.js", ["auth", "log"], some "All users"⟩]
  globals := ["cors"]
  locals := []

open Markup Page in
theorem Document.page_hostileDocument :
    plainDocument.shape = hostileDocument.shape ∧
      ∃ page other, hostileDocument.page = .ok page ∧ plainDocument.page = .ok other ∧
        page = fill (template hostileDocument.shape) (hostileDocument.shown.map escape) ∧
        (∀ t ∈ hostileDocument.shown, IsInert (escape t) ∧ unescape (escape t) = t) ∧
        List.Forall₂ SameTag (tagsIn page) (tagsIn other) := by
  have sameShape : plainDocument.shape = hostileDocument.shape := by decide +kernel
  obtain ⟨page, made⟩ : ∃ page, hostileDocument.page = .ok page := ⟨_, rfl⟩
  obtain ⟨other, otherMade⟩ : ∃ other, plainDocument.page = .ok other := ⟨_, rfl⟩
  obtain ⟨eq, -, values, tags⟩ := Document.page_eq_fill hostileDocument made
  exact ⟨sameShape, page, other, made, otherMade, eq, values, tags _ _ otherMade sameShape⟩

end RouteAtlas
