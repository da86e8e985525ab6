import RouteAtlas.Settings
import RouteAtlas.Settings.Data

/-!
# Settings from data

Every key of a settings file fills one field. A value that a field cannot use counts as absent, and
then the field keeps its standard value. Only an integer beyond the digit limit, where a text is
asked for, is refused.
-/

namespace RouteAtlas

/-- Why no settings can be made of data. -/
inductive FieldError
  | tooManyDigits
deriving DecidableEq

namespace Data

/-- The text of a value, which must have one. -/
def spell (v : Value) : Except FieldError Text :=
  match v.toText? with
  | some t => .ok t
  | none => .error .tooManyDigits

/-- The text of an item of a list: of a text, a number or a truth value. -/
def itemText : Data → Except FieldError (Option Text)
  | .value .null => .ok none
  | .value v => (spell v).map some
  | _ => .ok none

/-- A list of texts: one text stands for a list of one. -/
def texts : Data → Except FieldError (List Text)
  | .value (.text t) => .ok [t]
  | .list items => do return (← items.mapM itemText).filterMap id
  | .bytes bs => .ok (bs.map fun b => Text.ofNat b.toNat)
  | _ => .ok []

/-- A text that is not empty, as it is or as the text of a number. -/
def text : Data → Except FieldError (Option Text)
  | .value (.text t) => .ok (if t = [] then none else some t)
  | .value (.int n) => (spell (.int n)).map some
  | .value (.real x) => (spell (.real x)).map some
  | _ => .ok none

/-- The words for truth values. -/
def truthWords : List (Text × Bool) := [
  ("true", true), ("yes", true), ("1", true), ("false", false), ("no", false), ("0", false)]

/-- A truth value, as it is or by a word for it. -/
def truth : Data → Option Bool
  | .value (.bool b) => some b
  | .value (.text t) => (truthWords.find? (·.1 = Text.asciiLower t.strip)).map Prod.snd
  | _ => none

/-- The text behind a key, or a standard one. -/
def textAt (d : Data) (key standard : Text) : Except FieldError Text := do
  return (← text ((d.get? key).getD .null)).getD standard

end Data

namespace Settings

/-- An extension begins with a dot. -/
def dotted (extension : Text) : Text :=
  if extension.startsWith "." then extension else CodePoint.ofChar '.' :: extension

/-- The texts to leave out: the standard ones only if the key is absent. -/
def excludedOf (d : Data) : Except FieldError (List Text) :=
  match d.get? "excluded" with
  | some value => value.texts
  | none => .ok standard.excluded

/-- The extensions: the standard ones unless there are others. -/
def extensionsOf (d : Data) : Except FieldError (List Text) := do
  let found ← ((d.get? "extensions").getD .null).texts
  return if found = [] then standard.extensions else found.map dotted

/-- The names to look for. -/
def frameworkOf (d : Data) : Except FieldError Framework := do
  let inside := (d.get? "framework").getD .null
  return ⟨← inside.textAt "factory" standard.framework.factory,
    ← inside.textAt "router_factory" standard.framework.routerFactory⟩

/-- The names of the output files. -/
def outputOf (d : Data) : Except FieldError OutputNames := do
  let inside := (d.get? "output").getD .null
  return ⟨← inside.textAt "json" standard.output.json, ← inside.textAt "html" standard.output.html⟩

/-- Whether routes of mounted files get prefixes. -/
def resolveMountsOf (d : Data) : Bool :=
  ((d.get? "resolve_mounts").getD .null).truth.getD standard.resolveMounts

/-- The settings that data stand for. -/
def ofData (d : Data) : Except FieldError Settings := do
  return {
    excluded := ← excludedOf d
    extensions := ← extensionsOf d
    framework := ← frameworkOf d
    marker := ← d.textAt "description_marker" standard.marker
    resolveMounts := resolveMountsOf d
    output := ← outputOf d }

end Settings

end RouteAtlas
