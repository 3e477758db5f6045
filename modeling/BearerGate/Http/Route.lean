import BearerGate.Http.Message
import BearerGate.Url.Percent

namespace BearerGate

inductive Route where
  | root
  | health
  | me
  | documentation
  deriving DecidableEq

namespace Route

def table : List (Text × Route) :=
  [("/openapi.json", documentation), ("/docs", documentation),
    ("/docs/oauth2-redirect", documentation), ("/redoc", documentation), ("/health", health),
    ("/me", me), ("/", root)].map fun (path, route) =>
    (Text.ofString path, route)

def ofPath? (path : Text) : Option Route :=
  (table.find? fun (own, _) => path = own ∨ path = own ++ Text.ofString "\n").map (·.2)

/-- The path that a path without a route is redirected to. -/
def redirect? (path : Text) : Option Text :=
  if path = Text.ofString "/" then none
  else
    let other : Text :=
      if path.getLast? = some ('/' : CodePoint) then Text.trimEnd (fun c => c == '/') path
      else path ++ Text.ofString "/"
    if (ofPath? other).isSome then some other else none

def isLocationMark : CodePoint → Bool := Percent.isOneOf ":/%#?=@[]!$&'()*+,;"

def location (r : Request) (path : Text) : Text :=
  let query : Text := if r.query.isEmpty then [] else '?' :: r.query
  Percent.encode isLocationMark
    (Text.ofString "http://" ++ (r.header? "host").getD [] ++ path ++ query)

end Route

end BearerGate
