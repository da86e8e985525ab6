import RouteAtlas.Text

/-!
# Dialects

The three dialects of script, told apart by the ending of a file's name in any case.
-/

namespace RouteAtlas

/-- A dialect of script. -/
inductive Dialect
  | javascript
  | typescript
  | tsx
deriving DecidableEq

namespace Dialect

/-- The endings that name a dialect. -/
def endings : List (String × Dialect) := [
  (".ts", typescript), (".mts", typescript), (".cts", typescript), (".tsx", tsx),
  (".js", javascript), (".jsx", javascript), (".mjs", javascript), (".cjs", javascript)]

/-- The dialect of a file; a file with another ending is read as TypeScript. -/
def ofPath (path : Text) : Dialect :=
  let path := Text.asciiLower path
  match endings.find? fun e => path.endsWith e.1 with
  | some (_, dialect) => dialect
  | none => typescript

/-- The name of a dialect. -/
def name : Dialect → String
  | javascript => "javascript"
  | typescript => "typescript"
  | tsx => "tsx"

end Dialect

end RouteAtlas
