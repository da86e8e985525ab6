import RouteAtlas.Binding

/-!
# Settings

What a run is told: which files to read, which names to look for, and where to write.
-/

namespace RouteAtlas

/-- The names of the two output files. -/
structure OutputNames where
  json : Text
  html : Text
deriving DecidableEq

/-- The settings of a run. -/
structure Settings where
  excluded : List Text
  extensions : List Text
  framework : Framework
  marker : Text
  resolveMounts : Bool
  output : OutputNames

namespace Settings

/-- The settings where nothing else is said. -/
def standard : Settings where
  excluded := ["node_modules"]
  extensions := [".js", ".ts"]
  framework := ⟨"express", "Router"⟩
  marker := "--Docly--"
  resolveMounts := false
  output := ⟨"output.json", "apidoc.html"⟩

end Settings

end RouteAtlas
