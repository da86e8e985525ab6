import RouteAtlas.Json

/-!
# The values in JSON

What holds of every literal's value in a JSON value, however deep it stands. The keys of objects are
no such values.
-/

namespace RouteAtlas.Json

variable {P : Value → Prop}

/-- The property holds of every literal's value. -/
inductive All (P : Value → Prop) : Json → Prop
  | null (h : P .null) : All P .null
  | bool {b : Bool} (h : P (.bool b)) : All P (.bool b)
  | int {n : Int} (h : P (.int n)) : All P (.int n)
  | real {x : Binary64} (h : P (.real x)) : All P (.real x)
  | text {t : Text} (h : P (.text t)) : All P (.text t)
  | array {es : List Json} (h : ∀ e ∈ es, All P e) : All P (.array es)
  | object {ms : List (Text × Json)} (h : ∀ m ∈ ms, All P m.2) : All P (.object ms)

theorem all_array {es : List Json} : All P (.array es) ↔ ∀ e ∈ es, e.All P :=
  ⟨fun | .array h => h, .array⟩

theorem all_object {ms : List (Text × Json)} : All P (.object ms) ↔ ∀ m ∈ ms, m.2.All P :=
  ⟨fun | .object h => h, .object⟩

theorem all_ofValue {v : Value} : All P (.ofValue v) ↔ P v := by
  cases v with
  | null => exact ⟨fun | .null h => h, .null⟩
  | bool _ => exact ⟨fun | .bool h => h, .bool⟩
  | int _ => exact ⟨fun | .int h => h, .int⟩
  | real _ => exact ⟨fun | .real h => h, .real⟩
  | text _ => exact ⟨fun | .text h => h, .text⟩

end RouteAtlas.Json
