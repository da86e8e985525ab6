import RouteAtlas.Run

/-!
# The service

The service answers two requests: whether it is well, and for the document of a source tree. It
reads no settings file and writes nothing. A tree that is not there, or is no folder, is an error of
the request; any other failure is one of the service.
-/

namespace RouteAtlas.Service

/-- A request; its body is JSON, if there is one. -/
structure Request where
  method : Text
  path : Text
  body : Option Json

/-- A response. Only some of the bodies are part of the service's promise. -/
structure Response where
  status : Nat
  body : Option Json

/-- A demand for a document. -/
structure Demand where
  path : Text
  resolveMounts : Option Bool

/-- The words for truth values in a request. -/
def truthWords : List (Text × Bool) := [
  ("0", false), ("f", false), ("n", false), ("no", false), ("off", false), ("false", false),
  ("1", true), ("t", true), ("y", true), ("on", true), ("yes", true), ("true", true)]

/-- A truth value, also as a number or by a word. -/
def truth? : Json → Option Bool
  | .bool b => some b
  | .int 0 => some false
  | .int 1 => some true
  | .real x =>
    match x.toInt? with
    | some 0 => some false
    | some 1 => some true
    | _ => none
  | .text t => (truthWords.find? (·.1 = Text.asciiLower t)).map Prod.snd
  | _ => none

/-- The last member of a name. -/
def member? (name : Text) (members : List (Text × Json)) : Option Json :=
  (members.reverse.find? (·.1 = name)).map Prod.snd

/-- What a body asks for, if it has the right form. -/
def Demand.ofBody? : Json → Option Demand
  | .object members =>
    match member? "path" members with
    | some (.text path) =>
      match member? "resolve_mounts" members with
      | none => some ⟨path, none⟩
      | some .null => some ⟨path, none⟩
      | some value => (truth? value).map fun b => ⟨path, some b⟩
    | _ => none
  | _ => none

/-- A number that JSON cannot write becomes null in an answer. -/
def answerValue : Value → Value
  | .real x =>
    match x with
    | .finite .. => .real x
    | _ => .null
  | v => v

/-- The texts of a document, where surrogates could stand. -/
def textsOf (d : Document) : List Text :=
  let values := [d.server.portNumber, d.server.host, d.server.backlog].filterMap fun v =>
    match v with
    | .text t => some t
    | _ => none
  let routes := d.routes.flatMap fun r =>
    r.path :: r.method :: r.source :: r.router.toList ++ r.middleware ++ r.description.toList
  values ++ routes ++ d.globals ++ d.locals.flatMap fun l => l.1 :: l.2

/-- The document as the service sends it, if it can be sent. -/
def answer? (d : Document) : Option Document :=
  let s := d.server
  let sent : Document := { d with server := ⟨answerValue s.portNumber, answerValue s.isPortEnv,
    answerValue s.host, answerValue s.backlog⟩ }
  if (textsOf sent).all (fun t => (Utf8.encode? t).isSome) then
    match sent.jsonText with
    | .ok _ => some sent
    | .error _ => none
  else none

/-- A response that says what is wrong. -/
def refusal (status : Nat) (detail : Text) : Response :=
  ⟨status, some (.object [("detail", .text detail)])⟩

/-- A response without a promised body. -/
def bare (status : Nat) : Response := ⟨status, none⟩

/-- The response to a demand that failed. -/
def ofError : RunError → Response
  | .scan (.noFolder path) => refusal 404 ("Folder not found: " ++ path)
  | .scan (.notAFolder path) => refusal 400 ("Source path is not a directory: " ++ path)
  | _ => bare 500

/-- The response to a demand for a document. -/
def extract (d : Disk) (demand : Demand) : Response :=
  let start : Workspace := .ofDisk d []
  let (result, _) := (Run.build .standard demand.resolveMounts demand.path).run start
  match result with
  | .error e => ofError e
  | .ok document =>
    match answer? document with
    | some sent => ⟨200, some sent.toJson⟩
    | none => bare 500

/-- The path of a request without a query and without slashes at its end. -/
def route (path : Text) : Text :=
  let whole := path.takeWhile fun c => c ≠ CodePoint.ofChar '?' ∧ c ≠ CodePoint.ofChar '#'
  (whole.reverse.dropWhile (· = slash)).reverse

/-- Answers a request. -/
def respond (d : Disk) (r : Request) : Response :=
  let path := route r.path
  if path = Text.ofString "/health" then
    if r.method = Text.ofString "GET" then ⟨200, some (.object [("status", .text "ok")])⟩
    else refusal 405 "Method Not Allowed"
  else if path = Text.ofString "/extract" then
    if r.method = Text.ofString "POST" then
      match r.body.bind Demand.ofBody? with
      | some demand => extract d demand
      | none => bare 422
    else refusal 405 "Method Not Allowed"
  else refusal 404 "Not Found"

end RouteAtlas.Service
