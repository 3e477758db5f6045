import BearerGate.Gate.History
import BearerGate.Http.Cors
import BearerGate.Http.Route
import BearerGate.Settings

namespace BearerGate

def version : Text := Text.ofString "1.0.0"

structure Service where
  settings : Settings

inductive ServiceFault where
  | gate (f : Fault)
  | unwritableIdentity
  | unwritableText
  deriving DecidableEq

structure Reply where
  response : Response
  claims : Option Claims
  fault : Option ServiceFault
  requests : List Text
  journal : Journal
  deriving DecidableEq

namespace Service

def note (level : Level) (text : Text) : Entry := ⟨level, .service, text⟩

def start? (s : Settings) : Option Service := if s.projectName.isEmpty then none else some ⟨s⟩

def gate (s : Service) : Gate := s.settings.gate

def startNotes (s : Service) : Journal :=
  [note .info (Text.ofString "Starting " ++ s.settings.projectName),
    note .info (Text.ofString "Token issuer: " ++ s.settings.issuer.url),
    note .info (Text.ofString "Token audience: " ++ s.settings.audience)] ++
  (if 0 < s.settings.lifetime then
    [note .info
      (Text.ofString "JWKS cache TTL: " ++ Text.ofInt s.settings.lifetime ++ Text.ofString "s")]
  else [])

def stopNotes (s : Service) : Journal :=
  [note .info (Text.ofString "Shutting down " ++ s.settings.projectName)]

def object (members : List (String × Text)) : Json :=
  .obj (members.map fun (k, v) => (Text.ofString k, .str v))

abbrev Routed := Except ServiceFault Response

def written (status : Int) (body : Json) (headers : List (Text × Text)) : Routed :=
  match Response.json? status body headers with
  | some r => .ok r
  | none => .error .unwritableText

def about (s : Service) : Routed :=
  written 200 (object [("name", s.settings.projectName), ("version", version),
    ("docs", Text.ofString "/docs")]) []

def healthy : Routed := written 200 (object [("status", Text.ofString "ok")]) []

/-- The generated pages are answered without their text. -/
def documentationPage : Routed := .ok ⟨200, [], []⟩

def notFound : Routed := written 404 (object [("detail", Text.ofString "Not Found")]) []

def methodNotAllowed : Routed :=
  written 405 (object [("detail", Text.ofString "Method Not Allowed")])
    [Response.header "allow" "GET"]

def redirected (r : Request) (path : Text) : Routed :=
  .ok ⟨307, [(Text.ofString "location", Route.location r path)], []⟩

def identity (c : Claims) : Routed :=
  match Response.json? 200 (object [("id", c.subject)]) [] with
  | some r => .ok r
  | none => .error .unwritableIdentity

def ofGate : Except Failure Claims → Routed
  | .ok c => identity c
  | .error (.rejected r) =>
    match Response.ofProblem? r.problem with
    | some response => .ok response
    | none => .error .unwritableText
  | .error (.faulted f) => .error (.gate f)

def internalError : Response :=
  ⟨500, [Response.header "content-type" "application/json"],
    Json.write (object [("error", Text.ofString "internal_error"),
      ("message", Text.ofString "An unexpected error occurred")])⟩

/-- The record goes on with a colon and the text of the fault, which is left out here. -/
def unexpectedNote : Entry := note .error (Text.ofString "Unexpected error")

def isGuarded (r : Request) : Bool :=
  !Cors.isPreflight r && r.method == Text.ofString "GET" && Route.ofPath? r.path == some .me

def unguarded (s : Service) (r : Request) : Routed :=
  match Route.ofPath? r.path with
  | none =>
    match Route.redirect? r.path with
    | some path => redirected r path
    | none => notFound
  | some route =>
    if r.method ≠ Text.ofString "GET" then methodNotAllowed
    else match route with
      | .root => s.about
      | .health => healthy
      | .documentation => documentationPage
      | .me => methodNotAllowed

def reply (s : Service) (r : Request) (routed : Routed) (claims : Option Claims)
    (requests : List Text) (journal : Journal) : Reply :=
  match routed with
  | .ok response =>
    ⟨Cors.decorate s.settings.allowedOrigins r response, claims, none, requests, journal⟩
  | .error f => ⟨internalError, claims, some f, requests, journal ++ [unexpectedNote]⟩

def respond (s : Service) (w : World) (r : Request) : World × Reply :=
  if Cors.isPreflight r then
    (w, ⟨Cors.preflight s.settings.allowedOrigins r, none, none, [], []⟩)
  else if isGuarded r then
    let run := s.gate.authenticate w.clock w.keyServer (r.header? "authorization") w.cache
    ({ w with cache := run.cache },
      s.reply r (ofGate run.result) run.result.toOption run.requests run.journal)
  else (w, s.reply r (s.unguarded r) none [] [])

end Service

end BearerGate
