import RouteAtlas.Document
import RouteAtlas.Json.Print

/-!
# Documents as JSON

The published form of a document. Its members have fixed names and a fixed order.
-/

namespace RouteAtlas

/-- A text, or null. -/
def Json.ofText? : Option Text → Json
  | some t => .text t
  | none => .null

/-- The JSON form of server details. -/
def ServerDetails.toJson (d : ServerDetails) : Json := .object [
  ("portNumber", .ofValue d.portNumber),
  ("isPortEnv", .ofValue d.isPortEnv),
  ("host", .ofValue d.host),
  ("backlog", .ofValue d.backlog)]

/-- The JSON form of a route. -/
def Route.toJson (r : Route) : Json := .object [
  ("path", .text r.path),
  ("method", .text r.method),
  ("router", .ofText? r.router),
  ("sourceFile", .text r.source),
  ("middleware", .array (r.middleware.map .text)),
  ("description", .ofText? r.description)]

/-- The JSON form of the middlewares of single paths, by name. -/
def Document.localsToJson (d : Document) : Json := .object <| d.locals.map fun (name, paths) =>
  (name, .array (paths.map fun path => .object [("path", .text path)]))

/-- The JSON form of a document. -/
def Document.toJson (d : Document) : Json := .object [
  ("apiDetails", d.server.toJson),
  ("routes", .array (d.routes.map Route.toJson)),
  ("middlewares", .object [
    ("global", .array (d.globals.map fun name => .object [("name", .text name)])),
    ("local", d.localsToJson)])]

/-- The JSON text of a document. -/
def Document.jsonText (d : Document) : Except Json.PrintError String := d.toJson.print

end RouteAtlas
