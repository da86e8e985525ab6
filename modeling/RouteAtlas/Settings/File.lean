import RouteAtlas.Disk.Real
import RouteAtlas.Json.Read
import RouteAtlas.Settings.Fields
import RouteAtlas.Yaml.Content

/-!
# Settings files

A settings file holds a mapping, in JSON if its extension says so and in YAML otherwise. A file
without text holds an empty mapping. Where there is no file the settings are the standard ones.
-/

namespace RouteAtlas

namespace Settings

/-- The format of a settings file. -/
inductive Format
  | json
  | yaml
deriving DecidableEq

/-- What stands in the way of a settings file: it cannot be read, or the parser of its format
refuses its text. -/
inductive Obstacle
  | file (error : FileError)
  | text (format : Format) (text : Text)
deriving DecidableEq

/-- What stands in the way of a settings file with a name. -/
structure Refusal where
  name : Text
  obstacle : Obstacle
deriving DecidableEq

/-- What the file system and the parsers say of an obstacle. Nothing here depends on their words but
what is printed. -/
abbrev Words := Obstacle → Option Text

/-- Nothing is said of any obstacle. -/
def silence : Words := fun _ => none

/-- A refusal in words: whose settings they are, and what is said of the obstacle. -/
def Refusal.message (r : Refusal) (front : Text) (words : Words) : Text :=
  front ++ r.name ++
    match words r.obstacle with
    | some t => ": " ++ t
    | none => []

end Settings

/-- Why no settings could be read. The first three name the file. -/
inductive SettingsError
  | unreadable (refusal : Settings.Refusal)
  | unparsable (refusal : Settings.Refusal)
  | notMapping (name : Text)
  | badEncoding
  | badContent (error : Yaml.ContentError)
  | noCodePoint
  | codePointOutOfRange
  | tooManyDigits
  | badPath (error : FileError)
deriving DecidableEq

/-- The message of an error that has one. -/
def SettingsError.message? (e : SettingsError) (words : Settings.Words := Settings.silence) :
    Option Text :=
  match e with
  | .unreadable r => some (r.message "Failed to read " words)
  | .unparsable r => some (r.message "Failed to parse " words)
  | .notMapping name => some (name ++ " must contain a mapping at the root")
  | _ => none

namespace Settings

/-- The name of a settings file where none is given. -/
def fileName : Text := ".docly.yml"

/-- Settings and the file that they come from. -/
structure Found where
  settings : Settings
  source : Option Place

/-- The place of the settings file: in the current folder, in a folder that is given, or the given
path itself. -/
def place (d : Disk) (given : Option Text) : Except FileError Place :=
  let inside : Path := Path.ofText fileName
  match given with
  | none => d.realPlace inside
  | some t => do
    let p ← d.expandHome (Path.ofText t)
    let _ ← d.doesExist p.toText
    if d.isFolder p.toText then d.realPlace (p ++ inside) else d.realPlace p

/-- The data that a YAML text stands for; no document stands for an empty mapping. -/
def yamlData (name text : Text) : Except SettingsError Data :=
  match Yaml.Node.ofChars? (text.filterMap CodePoint.toChar?) with
  | .error .malformed => .error (.unparsable ⟨name, .text .yaml text⟩)
  | .error (.token .malformed) => .error (.unparsable ⟨name, .text .yaml text⟩)
  | .error (.token .noCodePoint) => .error .noCodePoint
  | .error (.token .codePointOutOfRange) => .error .codePointOutOfRange
  | .ok none => .ok (.mapping [])
  | .ok (some node) =>
    match node.content with
    | .error .malformed => .error (.unparsable ⟨name, .text .yaml text⟩)
    | .error e => .error (.badContent e)
    | .ok (.value .null) => .ok (.mapping [])
    | .ok data => .ok data

/-- The data that a JSON text stands for. -/
def jsonData (name text : Text) : Except SettingsError Data :=
  match Json.read text with
  | .error .malformed => .error (.unparsable ⟨name, .text .json text⟩)
  | .error .tooManyDigits => .error .tooManyDigits
  | .ok json => .ok (Data.ofJson json)

/-- The data of a file's bytes. -/
def data (name : Text) (bytes : ByteArray) : Except SettingsError Data :=
  match Utf8.decode? bytes with
  | none => .error .badEncoding
  | some t =>
    let text := Text.unifyLineEnds t
    if text.strip = [] then .ok (.mapping [])
    else if Text.asciiLower (Path.extensionOf name) = Text.ofString ".json" then jsonData name text
    else yamlData name text

/-- The settings of a file's bytes. -/
def ofBytes (name : Text) (bytes : ByteArray) : Except SettingsError Settings := do
  match ← data name bytes with
  | .mapping entries =>
    match ofData (.mapping entries) with
    | .ok s => .ok s
    | .error .tooManyDigits => .error .tooManyDigits
  | _ => .error (.notMapping name)

/-- The settings of the file that is given, or of the one in the current folder. -/
def load (d : Disk) (given : Option Text) : Except SettingsError Found :=
  match place d given with
  | .error e => .error (.badPath e)
  | .ok p =>
    match d.doesExist p.toText with
    | .error e => .error (.badPath e)
    | .ok false => .ok ⟨standard, none⟩
    | .ok true =>
      match d.read p.toText with
      | .error e => .error (.unreadable ⟨p.headD [], .file e⟩)
      | .ok bytes => (ofBytes (p.headD []) bytes).map fun s => ⟨s, some p⟩

end Settings

end RouteAtlas
