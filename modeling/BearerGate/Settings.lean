import BearerGate.Gate
import BearerGate.Settings.Domain
import BearerGate.Settings.EnvFile
import BearerGate.Settings.Origins

namespace BearerGate

structure Settings where
  projectName : Text
  debug : Bool
  audience : Text
  domain : Text
  timeout : Binary64
  lifetime : Int
  allowedOrigins : List Text
  logLevel : Text
  deriving DecidableEq

inductive SettingsError where
  | invalid (errors : List FieldError)
  /-- The list of origins is a document that nests too deep. -/
  | tooDeep
  deriving DecidableEq

namespace Settings

def issuer (s : Settings) : Issuer := ⟨s.audience, s.domain⟩

def gate (s : Settings) : Gate := ⟨s.issuer, some (.real s.timeout), s.lifetime⟩

structure Sources where
  given : Table Json
  environment : Table Text
  file : Option Text

/-- Names in small letters. Of names that differ in case alone the last counts. -/
def ignoringCase {α : Type} (t : Table α) : Table α :=
  Table.ofPairs (t.map fun (k, v) => (Text.lower k, v))

def Sources.value? (s : Sources) (name : Text) : Option Json :=
  let small := Text.lower name
  let given := (Table.get? name s.given).orElse fun _ => Table.get? small (ignoringCase s.given)
  let fromEnvironment := (Table.get? small (ignoringCase s.environment)).map Json.str
  let fromFile := match s.file with
    | none => none
    | some text =>
      let names := ignoringCase (EnvFile.read s.environment text)
      (Table.get? small names).join.map Json.str
  given.orElse fun _ => fromEnvironment.orElse fun _ => fromFile

def withDefault {α : Type} (s : Sources) (name : String) (default : α) (read : Json → Checked α) :
    Checked α :=
  match s.value? (Text.ofString name) with
  | none => .ok default
  | some v => Field.inside (.name (Text.ofString name)) (read v)

def withoutDefault {α : Type} (s : Sources) (name : String) (read : Json → Checked α) : Checked α :=
  Field.inside (.name (Text.ofString name))
    (match s.value? (Text.ofString name) with
    | none => Field.fail .missing
    | some v => read v)

def origins (s : Sources) : Except Json.ReadError (Checked (List Text)) :=
  let name := Text.ofString "ALLOWED_ORIGINS"
  match s.value? name with
  | none => .ok (.ok [])
  | some v => (Origins.ofJson v).map (Field.inside (.name name))

/-- All fields, or the errors of all in their order. -/
def assemble (s : Sources) (origins : Checked (List Text)) : Checked Settings :=
  let projectName := withDefault s "PROJECT_NAME" (Text.ofString "Bookshelf API") Field.text
  let debug := withDefault s "DEBUG" false Field.truth
  let audience := withoutDefault s "AUTH0_AUDIENCE" Field.text
  let domain := withoutDefault s "AUTH0_DOMAIN" fun v => (Field.text v).map Domain.bare
  let timeout := withDefault s "JWKS_TIMEOUT_SECONDS" (Binary64.ofInt 5) Field.real
  let lifetime := withDefault s "JWKS_CACHE_TTL" 0 Field.whole
  let logLevel := withDefault s "LOG_LEVEL" (Text.ofString "INFO") Field.text
  let all := Checked.both projectName <| Checked.both debug <| Checked.both audience <|
    Checked.both domain <| Checked.both timeout <| Checked.both lifetime <|
    Checked.both origins logLevel
  all.map fun (projectName, debug, audience, domain, timeout, lifetime, allowedOrigins, logLevel) =>
    { projectName := projectName
      debug := debug
      audience := audience
      domain := domain
      timeout := timeout
      lifetime := lifetime
      allowedOrigins := allowedOrigins
      logLevel := logLevel }

def load (s : Sources) : Except SettingsError Settings :=
  match origins s with
  | .error _ => .error .tooDeep
  | .ok found => (assemble s found).mapError .invalid

/-- What a process holds: the first settings that could be loaded, for good. -/
def current (held : Option Settings) (s : Sources) :
    Except SettingsError Settings × Option Settings :=
  match held with
  | some settings => (.ok settings, held)
  | none =>
    match load s with
    | .ok settings => (.ok settings, some settings)
    | .error e => (.error e, none)

end Settings

end BearerGate
