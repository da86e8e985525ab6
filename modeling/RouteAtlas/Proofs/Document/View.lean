import RouteAtlas.Proofs.Document.Publishable
import RouteAtlas.Proofs.Markup.Element

/-!
# What is read off a page

A reader who knows nothing of documents takes a page apart: the columns, the blocks in each column,
and the paths, descriptions and names in each block. What it finds are the groups of the routes,
with one block for each route, so that the page loses no route and shows none twice.
-/

namespace RouteAtlas

namespace Page

open Markup

/-- What stands in the block of a route. -/
structure BlockView where
  paths : List Text
  descriptions : List Text
  names : List Text
deriving DecidableEq

/-- What stands in a column. -/
structure ColumnView where
  titles : List Text
  blocks : List BlockView
deriving DecidableEq

def BlockView.empty : BlockView := ⟨[], [], []⟩

def ColumnView.empty : ColumnView := ⟨[], []⟩

/-- The tags that a reader of a page looks for. -/
inductive Landmark
  | column
  | title
  | block
  | path
  | description
  | name
deriving DecidableEq

/-- What a tag begins, if a reader looks for it. -/
def Landmark.ofTag? (tag : Text) : Option Landmark :=
  if tag = "div class=\"column\"" then some .column
  else if tag = "h2" then some .title
  else if tag = "div class=\"endpoint\"" then some .block
  else if tag = "span class=\"path\"" then some .path
  else if tag = "p class=\"desc\"" then some .description
  else if tag = "span class=\"tag\"" then some .name
  else none

/-- What has been read of a page from its end up to some element: columns, and what belongs to the
column and to the block whose own tags are still to come. -/
structure View where
  columns : List ColumnView
  column : ColumnView
  block : BlockView

/-- Reads one more element, the one in front of those read before. -/
def View.add (e : Element) (v : View) : View :=
  match Landmark.ofTag? e.tag with
  | some .column => ⟨v.column :: v.columns, .empty, .empty⟩
  | some .title => { v with column := { v.column with titles := e.content :: v.column.titles } }
  | some .block =>
    { v with column := { v.column with blocks := v.block :: v.column.blocks }, block := .empty }
  | some .path => { v with block := { v.block with paths := e.content :: v.block.paths } }
  | some .description =>
    { v with block := { v.block with descriptions := e.content :: v.block.descriptions } }
  | some .name => { v with block := { v.block with names := e.content :: v.block.names } }
  | none => v

/-- The columns of a page. -/
def columnsOf (page : Text) : List ColumnView :=
  ((elements page).foldr View.add ⟨[], .empty, .empty⟩).columns

/-- The style sheet of a page puts its columns side by side. -/
def isSideBySide (page : Text) : Bool :=
  ((elements page).find? (·.tag = Text.ofString "style")).any fun e =>
    Text.hasPart ".columns\x7bdisplay:flex;" e.content

/-- What the block of a route is to show. -/
def BlockView.ofRoute (r : Route) : BlockView where
  paths := [escape r.path]
  descriptions := (description? r).toList.map escape
  names := r.middleware.map escape

/-- What the column of a method is to show. -/
def ColumnView.ofGroup (method : Text) (routes : List Route) : ColumnView where
  titles := [escape method]
  blocks := routes.map BlockView.ofRoute

/-! ## The elements of a page -/

/-- The tag of a badge, without its brackets. -/
def badgeTag (method : Text) : Text :=
  Text.ofString "span class=\"method " ++ escape method ++ Text.ofString "\""

def tagElements (names : List Text) : List Element :=
  names.flatMap fun name => [⟨"span class=\"tag\"", escape name⟩, ⟨"/span", []⟩]

/-- Names as tags behind a heading, if there are any. -/
def namesElements (heading : List Element) (names : List Text) : List Element :=
  if names.isEmpty then [] else heading ++ tagElements names ++ [⟨"/div", "\n"⟩]

def blockElements (method : Text) (r : Route) : List Element :=
  [⟨"div class=\"endpoint\"", "\n"⟩, ⟨"h3", []⟩, ⟨badgeTag method, escape method⟩, ⟨"/span", []⟩,
    ⟨"span class=\"path\"", escape r.path⟩, ⟨"/span", []⟩, ⟨"/h3", "\n"⟩]
    ++ ((description? r).toList.flatMap fun d => [⟨"p class=\"desc\"", escape d⟩, ⟨"/p", "\n"⟩])
    ++ namesElements [⟨"div", []⟩, ⟨"b", "Middleware:"⟩, ⟨"/b", " "⟩] r.middleware
    ++ [⟨"/div", "\n"⟩]

def columnElements (method : Text) (routes : List Route) : List Element :=
  [⟨"div class=\"column\"", []⟩, ⟨"h2", escape method⟩, ⟨"/h2", "\n"⟩]
    ++ routes.flatMap (blockElements method) ++ [⟨"/div", "\n"⟩]

/-- Parts of a page are written as elements that can be read back. -/
structure Writes (parts : List Markup) (es : List Element) : Prop where
  text : render parts = es.flatMap Element.toText
  plain : ∀ e ∈ es, e.IsPlain

namespace Writes

theorem nil : Writes [] [] := ⟨rfl, nofun⟩

theorem append {ps qs : List Markup} {es fs : List Element} (hp : Writes ps es)
    (hq : Writes qs fs) : Writes (ps ++ qs) (es ++ fs) where
  text := by
    rw [List.flatMap_append, ← hp.text, ← hq.text]
    exact List.flatMap_append
  plain := List.forall_mem_append.mpr ⟨hp.plain, hq.plain⟩

theorem flatMap {α : Type} {p : α → List Markup} {f : α → List Element}
    (h : ∀ x, Writes (p x) (f x)) (xs : List α) : Writes (xs.flatMap p) (xs.flatMap f) := by
  induction xs with
  | nil => exact nil
  | cons x rest ih => exact (h x).append ih

/-- Fixed pieces can be checked one by one. -/
theorem fixed {s : String} {es : List Element}
    (text : Text.ofString s = es.flatMap Element.toText) (plain : ∀ e ∈ es, e.IsPlain) :
    Writes [.fixed s] es := by
  refine ⟨?_, plain⟩
  rw [← text]
  exact List.append_nil _

/-- A part behind an element continues its text, and may begin others. -/
theorem continued {ps : List Markup} {es fs : List Element} {tag content more : Text}
    {part : Markup} (h : Writes ps (es ++ [⟨tag, content⟩]))
    (text : part.toText = more ++ fs.flatMap Element.toText) (inText : ∀ c ∈ more, c ≠ '<')
    (plain : ∀ e ∈ fs, e.IsPlain) :
    Writes (ps ++ [part]) (es ++ [⟨tag, content ++ more⟩] ++ fs) where
  text := by
    have before := h.text
    simp only [render, List.flatMap_append, List.flatMap_singleton, Element.toText,
      Element.piece] at before text ⊢
    rw [before, text]
    simp
  plain := by
    obtain ⟨earlier, last⟩ := List.forall_mem_append.mp h.plain
    obtain ⟨inTag, inContent⟩ := last _ (List.mem_singleton_self _)
    have whole : Element.IsPlain ⟨tag, content ++ more⟩ :=
      ⟨inTag, List.forall_mem_append.mpr ⟨inContent, inText⟩⟩
    exact List.forall_mem_append.mpr
      ⟨List.forall_mem_append.mpr ⟨earlier, List.forall_mem_singleton.mpr whole⟩, plain⟩

theorem value {ps : List Markup} {es : List Element} {tag content : Text}
    (h : Writes ps (es ++ [⟨tag, content⟩])) (t : Text) :
    Writes (ps ++ [.value t]) (es ++ [⟨tag, content ++ escape t⟩]) := by
  have text : (Markup.value t).toText = escape t ++ ([] : List Element).flatMap Element.toText :=
    (List.append_nil _).symm
  have whole := h.continued text (fun c mem => (ne_of_mem_escape mem).1) (List.forall_mem_nil _)
  rw [List.append_nil] at whole
  exact whole

end Writes

/-- The end of a block, a box or a column. -/
theorem writes_end : Writes [.fixed "</div>\n"] [⟨"/div", "\n"⟩] :=
  .fixed (by decide +kernel) (by decide +kernel)

theorem writes_tags (names : List Text) : Writes (tags names) (tagElements names) := by
  apply Writes.flatMap
  intro name
  have opening : Writes [.fixed "<span class=\"tag\">"] ([] ++ [⟨"span class=\"tag\"", []⟩]) :=
    .fixed (by decide +kernel) (by decide +kernel)
  have closing : Writes [.fixed "</span>"] [⟨"/span", []⟩] :=
    .fixed (by decide +kernel) (by decide +kernel)
  exact (opening.value name).append closing

theorem writes_names {opening : String} {heading : List Element}
    (head : Writes [.fixed opening] heading) (names : List Text) :
    Writes (if names.isEmpty then [] else .fixed opening :: tags names ++ [.fixed "</div>\n"])
      (namesElements heading names) := by
  unfold namesElements
  split
  · exact .nil
  · exact (head.append (writes_tags names)).append writes_end

/-- The badge of a method holds the method in its tag too, where no other value stands. -/
theorem writes_badge (method : Text) :
    Writes [.fixed badgeOpening, .value method, .fixed "\">", .value method]
      [⟨"div class=\"endpoint\"", "\n"⟩, ⟨"h3", []⟩, ⟨badgeTag method, escape method⟩] where
  text := by
    have opening : Text.ofString badgeOpening =
        Element.toText ⟨"div class=\"endpoint\"", "\n"⟩ ++ Element.toText ⟨"h3", []⟩ ++
          CodePoint.ofChar '<' :: Text.ofString "span class=\"method " := by decide +kernel
    have closing : Text.ofString "\">" = Text.ofString "\"" ++ [CodePoint.ofChar '>'] := by
      decide +kernel
    simp [render, Markup.toText, badgeTag, Element.toText, Element.piece, opening, closing]
  plain := by
    have front : Element.IsPlain ⟨"span class=\"method ", []⟩ := by decide +kernel
    have back : Element.IsPlain ⟨"\"", []⟩ := by decide +kernel
    have badge : Element.IsPlain ⟨badgeTag method, escape method⟩ := by
      refine ⟨?_, fun c mem => (ne_of_mem_escape mem).1⟩
      exact List.forall_mem_append.mpr ⟨List.forall_mem_append.mpr
        ⟨front.tag, fun c mem => ne_of_mem_escape mem⟩, back.tag⟩
    have block : Element.IsPlain ⟨"div class=\"endpoint\"", "\n"⟩ := by decide +kernel
    have heading : Element.IsPlain ⟨"h3", []⟩ := by decide +kernel
    simp [block, heading, badge]

theorem writes_block (method : Text) (r : Route) :
    Writes (endpoint method r) (blockElements method r) := by
  have path : Writes [.fixed "</span><span class=\"path\">"]
      ([⟨"/span", []⟩] ++ [⟨"span class=\"path\"", []⟩]) :=
    .fixed (by decide +kernel) (by decide +kernel)
  have heading : Writes [.fixed "</span></h3>\n"] [⟨"/span", []⟩, ⟨"/h3", "\n"⟩] :=
    .fixed (by decide +kernel) (by decide +kernel)
  have describes : Writes [.fixed "<p class=\"desc\">"] ([] ++ [⟨"p class=\"desc\"", []⟩]) :=
    .fixed (by decide +kernel) (by decide +kernel)
  have described : Writes [.fixed "</p>\n"] [⟨"/p", "\n"⟩] :=
    .fixed (by decide +kernel) (by decide +kernel)
  have middleware : Writes [.fixed "<div><b>Middleware:</b> "]
      [⟨"div", []⟩, ⟨"b", "Middleware:"⟩, ⟨"/b", " "⟩] :=
    .fixed (by decide +kernel) (by decide +kernel)
  have head := ((writes_badge method).append (path.value r.path)).append heading
  have block {description : List Markup} {es : List Element} (h : Writes description es) :=
    ((head.append h).append (writes_names middleware r.middleware)).append writes_end
  obtain ⟨p, _, router, source, names, description⟩ := r
  cases description with
  | none => exact block .nil
  | some d =>
      cases d with
      | nil => exact block .nil
      | cons c rest => exact block ((describes.value (c :: rest)).append described)

theorem writes_column (method : Text) (routes : List Route) :
    Writes (column method routes) (columnElements method routes) := by
  have opening : Writes [.fixed "<div class=\"column\"><h2>"]
      ([⟨"div class=\"column\"", []⟩] ++ [⟨"h2", []⟩]) :=
    .fixed (by decide +kernel) (by decide +kernel)
  have heading : Writes [.fixed "</h2>\n"] [⟨"/h2", "\n"⟩] :=
    .fixed (by decide +kernel) (by decide +kernel)
  have blocks := Writes.flatMap (writes_block method) routes
  exact (((opening.value method).append heading).append blocks).append writes_end

/-! ## Reading the elements -/

section Read

/-- Elements of other tags go unnoticed. -/
theorem foldr_add_of_none {es : List Element} (h : ∀ e ∈ es, Landmark.ofTag? e.tag = none)
    (v : View) : es.foldr View.add v = v := by
  induction es with
  | nil => rfl
  | cons e rest ih =>
      obtain ⟨first, rest⟩ := List.forall_mem_cons.mp h
      rw [List.foldr_cons, ih rest, View.add, first]

/-- What a reader takes the tags for that it looks for. -/
theorem ofTag?_landmarks :
    Landmark.ofTag? "div class=\"column\"" = some .column ∧ Landmark.ofTag? "h2" = some .title ∧
      Landmark.ofTag? "div class=\"endpoint\"" = some .block ∧
      Landmark.ofTag? "span class=\"path\"" = some .path ∧
      Landmark.ofTag? "p class=\"desc\"" = some .description ∧
      Landmark.ofTag? "span class=\"tag\"" = some .name := by
  decide +kernel

/-- The other tags behind the preamble of a page, badges aside. -/
def otherTags : List Text :=
  ["div class=\"server-box\"", "div class=\"columns\"", "div", "/div", "b", "/b", "/h2", "h3",
    "/h3", "/span", "/p", "/body", "/html"]

theorem ofTag?_otherTags : ∀ tag ∈ otherTags, Landmark.ofTag? tag = none := by decide +kernel

/-- No method makes a badge look like another tag. -/
theorem ofTag?_badgeTag (method : Text) : Landmark.ofTag? (badgeTag method) = none := by
  have front : Text.ofString "span class=\"method " =
      Text.ofString "span class=\"m" ++ Text.ofString "ethod " := by decide +kernel
  have length : (Text.ofString "span class=\"m").length = 13 := by decide +kernel
  have start : (badgeTag method).take 13 = Text.ofString "span class=\"m" := by
    rw [badgeTag, front, List.append_assoc, List.append_assoc, ← length, List.take_left]
  unfold Landmark.ofTag?
  split_ifs with same same same same same same
  case neg => rfl
  all_goals
    rw [same] at start
    exact absurd start (by decide +kernel)

theorem read_tags (names : List Text) (v : View) :
    (tagElements names).foldr View.add v =
      { v with block := { v.block with names := names.map escape ++ v.block.names } } := by
  obtain ⟨-, -, -, -, -, name⟩ := ofTag?_landmarks
  have closing : Landmark.ofTag? "/span" = none := ofTag?_otherTags _ (by simp [otherTags])
  induction names with
  | nil => rfl
  | cons first rest ih =>
      have split : tagElements (first :: rest) =
          ⟨"span class=\"tag\"", escape first⟩ :: ⟨"/span", []⟩ :: tagElements rest := rfl
      simp only [split, List.foldr_cons, ih, View.add, name, closing, List.map_cons,
        List.cons_append]

theorem read_names {heading : List Element} (h : ∀ e ∈ heading, Landmark.ofTag? e.tag = none)
    (names : List Text) (v : View) :
    (namesElements heading names).foldr View.add v =
      { v with block := { v.block with names := names.map escape ++ v.block.names } } := by
  have last : Landmark.ofTag? "/div" = none := ofTag?_otherTags _ (by simp [otherTags])
  unfold namesElements
  split
  · next none =>
      obtain rfl := List.isEmpty_iff.mp none
      rfl
  · simp only [List.foldr_append, List.foldr_cons, List.foldr_nil, View.add, last, read_tags,
      foldr_add_of_none h]

variable (columns : List ColumnView)

theorem read_block (method : Text) (r : Route) (column : ColumnView) :
    (blockElements method r).foldr View.add ⟨columns, column, .empty⟩ =
      ⟨columns, { column with blocks := .ofRoute r :: column.blocks }, .empty⟩ := by
  obtain ⟨-, -, block, path, description, -⟩ := ofTag?_landmarks
  have noHeading : ∀ e ∈ ([⟨"div", []⟩, ⟨"b", "Middleware:"⟩, ⟨"/b", " "⟩] : List Element),
      Landmark.ofTag? e.tag = none := by
    intro e mem
    apply ofTag?_otherTags
    revert e
    simp [otherTags]
  have noDiv : Landmark.ofTag? "/div" = none := ofTag?_otherTags _ (by simp [otherTags])
  have noParagraph : Landmark.ofTag? "/p" = none := ofTag?_otherTags _ (by simp [otherTags])
  have noSpan : Landmark.ofTag? "/span" = none := ofTag?_otherTags _ (by simp [otherTags])
  have noTitle : Landmark.ofTag? "h3" = none ∧ Landmark.ofTag? "/h3" = none :=
    ⟨ofTag?_otherTags _ (by simp [otherTags]), ofTag?_otherTags _ (by simp [otherTags])⟩
  have describe (v : View) :
      ((description? r).toList.flatMap fun d =>
          ([⟨"p class=\"desc\"", escape d⟩, ⟨"/p", "\n"⟩] : List Element)).foldr View.add v =
        { v with block := { v.block with
            descriptions := (description? r).toList.map escape ++ v.block.descriptions } } := by
    cases description? r with
    | none => rfl
    | some d => simp [View.add, description, noParagraph]
  simp [blockElements, List.foldr_append, View.add, read_names noHeading, describe,
    ofTag?_badgeTag, block, path, noDiv, noTitle, noSpan, BlockView.ofRoute,
    BlockView.empty]

theorem read_blocks (method : Text) (routes : List Route) (column : ColumnView) :
    (routes.flatMap (blockElements method)).foldr View.add ⟨columns, column, .empty⟩ =
      ⟨columns, { column with blocks := routes.map .ofRoute ++ column.blocks }, .empty⟩ := by
  induction routes with
  | nil => rfl
  | cons r rest ih =>
      rw [List.flatMap_cons, List.foldr_append, ih, read_block]
      rfl

theorem read_column (method : Text) (routes : List Route) :
    (columnElements method routes).foldr View.add ⟨columns, .empty, .empty⟩ =
      ⟨.ofGroup method routes :: columns, .empty, .empty⟩ := by
  obtain ⟨column, title, -⟩ := ofTag?_landmarks
  have noTitle : Landmark.ofTag? "/h2" = none := ofTag?_otherTags _ (by simp [otherTags])
  have noDiv : Landmark.ofTag? "/div" = none := ofTag?_otherTags _ (by simp [otherTags])
  simp [columnElements, List.foldr_append, View.add, read_blocks, column, title, noTitle, noDiv,
    ColumnView.ofGroup, ColumnView.empty]

theorem read_columns (groups : List (Text × List Route)) :
    (groups.flatMap fun g => columnElements g.1 g.2).foldr View.add ⟨columns, .empty, .empty⟩ =
      ⟨(groups.map fun g => .ofGroup g.1 g.2) ++ columns, .empty, .empty⟩ := by
  induction groups with
  | nil => rfl
  | cons g rest ih =>
      rw [List.flatMap_cons, List.foldr_append, ih, read_column]
      rfl

end Read

/-! ## The whole page -/

/-- The tags beside the columns and in front of them. -/
def besideTags : List Text := "span class=\"tag\"" :: otherTags

theorem ofTag?_besideTags : ∀ tag ∈ besideTags, Landmark.ofTag? tag ≠ some .column := by
  obtain ⟨-, -, -, -, -, name⟩ := ofTag?_landmarks
  refine List.forall_mem_cons.mpr ⟨?_, fun tag mem => ?_⟩
  · rw [name]
    exact nofun
  · rw [ofTag?_otherTags tag mem]
    exact nofun

/-- Parts of a page that begin no column. -/
def HasNoColumn (parts : List Markup) : Prop :=
  ∃ es, Writes parts es ∧ ∀ e ∈ es, e.tag ∈ besideTags

theorem HasNoColumn.append {ps qs : List Markup} (hp : HasNoColumn ps) (hq : HasNoColumn qs) :
    HasNoColumn (ps ++ qs) := by
  obtain ⟨es, writes, none⟩ := hp
  obtain ⟨fs, writes', none'⟩ := hq
  exact ⟨es ++ fs, writes.append writes', List.forall_mem_append.mpr ⟨none, none'⟩⟩

/-- Only the tag of a column ends what belongs to the one before it. -/
theorem columns_foldr_add {es : List Element} (h : ∀ e ∈ es, Landmark.ofTag? e.tag ≠ some .column)
    (v : View) : (es.foldr View.add v).columns = v.columns := by
  induction es with
  | nil => rfl
  | cons e rest ih =>
      obtain ⟨first, rest⟩ := List.forall_mem_cons.mp h
      rw [List.foldr_cons, ← ih rest, View.add]
      split
      · next column => exact absurd column first
      all_goals rfl

theorem hasNoColumn_box {title note : String} {v : Value} {parts : List Markup}
    (h : box title v note = .ok parts)
    (head : Writes [.fixed ("<div class=\"server-box\"><b>" ++ title ++ ":</b> ")]
      ([⟨"div class=\"server-box\"", []⟩, ⟨"b", title ++ ":"⟩] ++ [⟨"/b", " "⟩]))
    (inNote : ∀ c ∈ Text.ofString note, c ≠ '<') : HasNoColumn parts := by
  obtain ⟨-, t, -, rfl⟩ | ⟨-, rfl⟩ := exists_of_box h
  · have ends : Markup.toText (.fixed (note ++ "</div>\n")) =
        Text.ofString note ++ ([⟨"/div", "\n"⟩] : List Element).flatMap Element.toText := by
      rw [← writes_end.text, Markup.toText, Text.ofString_append]
      simp [render, Markup.toText]
    have whole := (head.value t).continued ends inNote writes_end.plain
    exact ⟨_, whole, by simp [besideTags, otherTags]⟩
  · exact ⟨[], .nil, List.forall_mem_nil _⟩

theorem hasNoColumn_globals (names : List Text) :
    HasNoColumn (if names.isEmpty then []
      else .fixed "<div class=\"server-box\"><b>Global Middleware:</b> " :: tags names
        ++ [.fixed "</div>\n"]) := by
  have head : Writes [.fixed "<div class=\"server-box\"><b>Global Middleware:</b> "]
      [⟨"div class=\"server-box\"", []⟩, ⟨"b", "Global Middleware:"⟩, ⟨"/b", " "⟩] :=
    .fixed (by decide +kernel) (by decide +kernel)
  refine ⟨_, writes_names head names, ?_⟩
  unfold namesElements
  split
  · nofun
  · have inTags : ∀ e ∈ tagElements names, e.tag ∈ besideTags := by
      rw [tagElements, List.forall_mem_flatMap]
      intro name _
      simp [besideTags, otherTags]
    refine List.forall_mem_append.mpr ⟨List.forall_mem_append.mpr ⟨?_, inTags⟩, ?_⟩
    · simp [besideTags, otherTags]
    · simp [besideTags, otherTags]

theorem hasNoColumn_bar : HasNoColumn [.fixed "</div>\n<div class=\"columns\">\n"] := by
  have bar : Writes [.fixed "</div>\n<div class=\"columns\">\n"]
      [⟨"/div", "\n"⟩, ⟨"div class=\"columns\"", "\n"⟩] :=
    .fixed (by decide +kernel) (by decide +kernel)
  exact ⟨_, bar, by simp [besideTags, otherTags]⟩

/-- The text in front of the details: it begins no column, and its style sheet puts columns side by
side or not. -/
structure IsPreamble (sideBySide : Bool) (t : Text) : Prop where
  noColumn : ∀ e ∈ elements t, Landmark.ofTag? e.tag ≠ some .column
  style : ((elements t).find? (·.tag = Text.ofString "style")).map
    (fun e => Text.hasPart ".columns\x7bdisplay:flex;" e.content) = some sideBySide

instance (sideBySide : Bool) (t : Text) : Decidable (IsPreamble sideBySide t) :=
  decidable_of_iff (_ ∧ _) ⟨fun h => ⟨h.1, h.2⟩, fun h => ⟨h.1, h.2⟩⟩

theorem isPreamble_of_chars {sideBySide : Bool} {t : Text} {cs : List Char}
    (h : t = cs.map CodePoint.ofChar) (chars : IsPreamble sideBySide (cs.map CodePoint.ofChar)) :
    IsPreamble sideBySide t := h ▸ chars

set_option maxRecDepth 4000 in
theorem isPreamble_preamble (sideBySide : Bool) :
    IsPreamble sideBySide (Text.ofString opening ++ Text.ofString (columnRule sideBySide)
      ++ Text.ofString styles) := by
  cases sideBySide
  all_goals
    exact isPreamble_of_chars
      (Text.append_eq_map
        (Text.append_eq_map
          (Text.ofString_append_eq_map (Text.ofString_eq_map rfl) (Text.ofString_eq_map rfl))
          (Text.ofString_eq_map rfl))
        (Text.ofString_append_eq_map
          (Text.ofString_append_eq_map (Text.ofString_eq_map rfl) (Text.ofString_eq_map rfl))
          (Text.ofString_eq_map rfl)))
      (by decide +kernel)

/-- A page is its preamble, with elements behind it among which only those of its columns begin
any. -/
theorem render_parts {d : Document} {ps : List Markup} (h : parts d = .ok ps) :
    ∃ front : List Element, (∀ e ∈ front, Landmark.ofTag? e.tag ≠ some .column) ∧
      let es := front ++ (groupByMethod d.routes).flatMap (fun g => columnElements g.1 g.2)
        ++ [⟨"/div", "\n"⟩, ⟨"/body", "\n"⟩, ⟨"/html", []⟩]
      (∀ e ∈ es, e.IsPlain) ∧
        render ps = Text.ofString opening
          ++ Text.ofString (columnRule (decide (2 < (groupByMethod d.routes).length)))
          ++ Text.ofString styles ++ es.flatMap Element.toText := by
  have columns := Writes.flatMap (fun g => writes_column g.1 g.2) (groupByMethod d.routes)
  have last : Writes [.fixed "</div>\n</body>\n</html>"]
      [⟨"/div", "\n"⟩, ⟨"/body", "\n"⟩, ⟨"/html", []⟩] :=
    .fixed (by decide +kernel) (by decide +kernel)
  have inNote : ∀ c ∈ Text.ofString (if d.server.isPortEnv.isPresent then " (env)" else ""),
      c ≠ '<' := by
    cases d.server.isPortEnv.isPresent <;> decide +kernel
  obtain ⟨port, host, backlog, hasPort, hasHost, hasBacklog, rfl⟩ := exists_of_parts h
  have boxes : HasNoColumn (port ++ host ++ backlog) := by
    refine .append (.append ?_ ?_) ?_
    · exact hasNoColumn_box hasPort (.fixed (by decide +kernel) (by decide +kernel)) inNote
    · exact hasNoColumn_box hasHost (.fixed (by decide +kernel) (by decide +kernel)) nofun
    · exact hasNoColumn_box hasBacklog (.fixed (by decide +kernel) (by decide +kernel)) nofun
  obtain ⟨front, writes, noColumn⟩ :=
    (boxes.append (hasNoColumn_globals d.globals)).append hasNoColumn_bar
  have whole := (writes.append columns).append last
  refine ⟨front, fun e mem => ofTag?_besideTags _ (noColumn e mem), whole.plain, ?_⟩
  rw [← whole.text]
  simp [render, Markup.toText]

end Page

open Page in
/-- A page shows every route exactly once. The groups of the routes stand for the methods in upper
case, in order of first appearance, and each holds its routes in their order; together they hold all
routes. A page has one column for each group, with one block for each route of it, and puts its
columns side by side if there are more than two. There is a page unless a detail of the server
cannot be written; the routes are no obstacle. -/
theorem Document.columnsOf_page (d : Document) :
    (groupByMethod d.routes = (d.routes.map (·.method.upper)).eraseDups.map fun m =>
        (m, d.routes.filter (·.method.upper = m))) ∧
      ((groupByMethod d.routes).map Prod.fst).Nodup ∧
      ((groupByMethod d.routes).flatMap (·.2)).Perm d.routes ∧
      ((∃ page, d.page = .ok page) ↔
        d.server.portNumber.IsShort ∧ d.server.host.IsShort ∧ d.server.backlog.IsShort) ∧
      ∀ page, d.page = .ok page →
        columnsOf page = (groupByMethod d.routes).map (fun g => .ofGroup g.1 g.2) ∧
          isSideBySide page = decide (2 < (groupByMethod d.routes).length) := by
  refine ⟨groupByMethod_eq d.routes, nodup_methods d.routes, perm_groupByMethod d.routes, ?_, ?_⟩
  · rw [Document.page, exists_map_ok, exists_parts_iff]
  · intro page made
    unfold Document.page at made
    cases parts : parts d with
    | error e =>
        rw [parts] at made
        cases made
    | ok ps =>
        rw [parts] at made
        obtain rfl := Except.ok.inj made
        obtain ⟨front, noColumn, plain, text⟩ := render_parts parts
        have preamble := isPreamble_preamble (decide (2 < (groupByMethod d.routes).length))
        rw [columnsOf, isSideBySide, text, Markup.elements_append _ plain]
        constructor
        · have last :
              ∀ e ∈ ([⟨"/div", "\n"⟩, ⟨"/body", "\n"⟩, ⟨"/html", []⟩] : List Markup.Element),
                Landmark.ofTag? e.tag = none := by
            intro e mem
            apply ofTag?_otherTags
            revert e
            simp [otherTags]
          rw [List.foldr_append, columns_foldr_add preamble.noColumn, List.foldr_append,
            List.foldr_append, columns_foldr_add noColumn, foldr_add_of_none last, read_columns]
          exact List.append_nil _
        · obtain ⟨e, found, rule⟩ := Option.map_eq_some_iff.mp preamble.style
          rw [List.find?_append, found]
          exact rule

/-- Routes with one method written in two ways, and with more methods than two. -/
def mixedDocument : Document where
  server := ⟨.int 80, .bool false, .null, .null⟩
  routes := [⟨"/a", "get", none, "/p/app.js", ["auth", "<log>"], some ""⟩,
    ⟨"/b", "post", none, "/p/app.js", [], some "B & C"⟩, ⟨"/c", "GET", none, "/p/app.js", [], none⟩,
    ⟨"/a", "delete", none, "/p/app.js", [], none⟩]
  globals := ["cors"]
  locals := []

open Page in
theorem Document.columnsOf_page_mixedDocument :
    ∃ page, mixedDocument.page = .ok page ∧ isSideBySide page = true ∧
      columnsOf page =
        [⟨["GET"], [⟨["/a"], [], ["auth", "&lt;log&gt;"]⟩, ⟨["/c"], [], []⟩]⟩,
          ⟨["POST"], [⟨["/b"], ["B &amp; C"], []⟩]⟩, ⟨["DELETE"], [⟨["/a"], [], []⟩]⟩] := by
  obtain ⟨-, -, -, exists_iff, shows⟩ := Document.columnsOf_page mixedDocument
  obtain ⟨page, made⟩ := exists_iff.mpr (by decide +kernel)
  obtain ⟨columns, sideBySide⟩ := shows page made
  refine ⟨page, made, ?_, ?_⟩
  · rw [sideBySide]
    decide +kernel
  · rw [columns]
    decide +kernel

end RouteAtlas
