import RouteAtlas.Document
import RouteAtlas.Markup
import RouteAtlas.Text.Upper

/-!
# Documents as a page

The page shows the server's details that are present, the middlewares for every path, and one
column of routes for each method. More than two methods stand side by side.
-/

namespace RouteAtlas

/-- Routes by the upper case of their method, in the order of first appearance. -/
def groupByMethod (routes : List Route) : Assoc Text (List Route) :=
  routes.foldl (fun groups r => groups.extend (Text.upper r.method) [r]) []

namespace Page

/-- A detail cannot be shown: it is an integer beyond the digit limit. -/
inductive Failure
  | tooManyDigits
deriving DecidableEq

/-- The page up to the rule for columns. -/
def opening : String := "<!DOCTYPE html>
<html>
<head>
<meta charset=\"utf-8\">
<title>API Docs</title>
<style>
body\x7bfont-family:Segoe UI, Arial, sans-serif; background:#eef1f7; padding:30px; color:#333;\x7d
h1\x7bcolor:#2c3e50; text-align:center; margin-bottom:40px;\x7d
.server-row\x7bdisplay:flex;justify-content:center;gap:30px;margin-bottom:20px;flex-wrap:wrap;\x7d
.server-box\x7bbackground:#fff;padding:15px 25px;border-radius:10px;" ++
    "box-shadow:0 2px 6px rgba(0,0,0,0.1);\x7d
"

/-- The rule for columns, side by side or one below the other. -/
def columnRule (sideBySide : Bool) : String :=
  if sideBySide then
    ".columns\x7bdisplay:flex;gap:20px;align-items:flex-start;flex-wrap:wrap;\x7d\n"
  else ".columns\x7bdisplay:block;\x7d\n"

/-- The page from the rule for columns to the details. -/
def styles : String := ".column\x7bflex:1;min-width:250px;margin-bottom:20px;\x7d
.column h2\x7btext-align:center;background:#37353E;color:#fff;padding:10px;border-radius:8px;\x7d
.endpoint\x7bbackground:#fff;margin:15px 0;padding:15px;border-radius:10px;" ++
    "box-shadow:0 2px 6px rgba(0,0,0,0.1);\x7d
.endpoint h3\x7bmargin:0;font-size:16px;\x7d
.method\x7bfont-weight:bold;padding:3px 6px;border-radius:4px;color:#fff;\x7d
.GET\x7bbackground:#2ecc71;\x7d
.POST\x7bbackground:#3498db;\x7d
.PUT\x7bbackground:#f39c12;\x7d
.PATCH\x7bbackground:#9b59b6;\x7d
.DELETE\x7bbackground:#e74c3c;\x7d
.path\x7bfont-family:monospace;margin-left:8px;color:#555;\x7d
.desc\x7bmargin:8px 0;\x7d
.tag\x7bdisplay:inline-block;padding:3px 6px;font-size:12px;border-radius:5px;" ++
    "background:#ecf0f1;margin:2px;\x7d
</style>
</head>
<body>
<h1>API Documentation</h1>
<div class=\"server-row\">
"

/-- Names as tags. -/
def tags (names : List Text) : List Markup :=
  names.flatMap fun name => [.fixed "<span class=\"tag\">", .value name, .fixed "</span>"]

/-- The box of a detail that is present, with a note behind its value. -/
def box (title : String) (value : Value) (note : String) : Except Failure (List Markup) :=
  if value.isPresent then
    match value.toText? with
    | some t => .ok [.fixed ("<div class=\"server-box\"><b>" ++ title ++ ":</b> "), .value t,
        .fixed (note ++ "</div>\n")]
    | none => .error .tooManyDigits
  else .ok []

/-- The block of a route. -/
def endpoint (method : Text) (r : Route) : List Markup :=
  let description :=
    match r.description with
    | none => []
    | some [] => []
    | some d => [.fixed "<p class=\"desc\">", .value d, .fixed "</p>\n"]
  let middleware :=
    if r.middleware.isEmpty then []
    else .fixed "<div><b>Middleware:</b> " :: tags r.middleware ++ [.fixed "</div>\n"]
  [.fixed "<div class=\"endpoint\">\n<h3><span class=\"method ", .value method, .fixed "\">",
    .value method, .fixed "</span><span class=\"path\">", .value r.path, .fixed "</span></h3>\n"]
    ++ description ++ middleware ++ [.fixed "</div>\n"]

/-- The column of a method. -/
def column (method : Text) (routes : List Route) : List Markup :=
  [.fixed "<div class=\"column\"><h2>", .value method, .fixed "</h2>\n"]
    ++ routes.flatMap (endpoint method) ++ [.fixed "</div>\n"]

/-- The parts of a document's page. -/
def parts (d : Document) : Except Failure (List Markup) := do
  let groups := groupByMethod d.routes
  let port ← box "Port" d.server.portNumber (if d.server.isPortEnv.isPresent then " (env)" else "")
  let host ← box "Host" d.server.host ""
  let backlog ← box "Backlog" d.server.backlog ""
  let globals :=
    if d.globals.isEmpty then []
    else .fixed "<div class=\"server-box\"><b>Global Middleware:</b> " :: tags d.globals
      ++ [.fixed "</div>\n"]
  return [.fixed opening, .fixed (columnRule (decide (2 < groups.length))), .fixed styles]
    ++ port ++ host ++ backlog ++ globals
    ++ .fixed "</div>\n<div class=\"columns\">\n" :: groups.flatMap (fun g => column g.1 g.2)
    ++ [.fixed "</div>\n</body>\n</html>"]

end Page

/-- The page of a document. -/
def Document.page (d : Document) : Except Page.Failure Text := (Page.parts d).map Markup.render

end RouteAtlas
