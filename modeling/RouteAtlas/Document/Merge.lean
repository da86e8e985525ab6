import RouteAtlas.Document
import RouteAtlas.Document.Mount

/-!
# Merging files

The facts of the files of a source tree, in order, make one document. Routes and middlewares for
every path add up. A server detail, and the paths of a middleware name, are those of the last file
that gives them.
-/

namespace RouteAtlas

/-- The server details after those of one more file. -/
def ServerDetails.merge (d : ServerDetails) (f : Facts) : ServerDetails :=
  f.details.foldl (fun d (detail, value) => d.set value detail) d

/-- The document of some files. -/
def Document.ofFacts (fs : List Facts) : Document where
  server := fs.foldl ServerDetails.merge .unknown
  routes := (MountPoints.ofFacts fs).apply (fs.flatMap (·.routes))
  globals := fs.flatMap (·.globals)
  locals := fs.foldl (fun locals f => locals.putAll f.locals) []

end RouteAtlas
