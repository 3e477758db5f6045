import BearerGate.Http.Message
import BearerGate.Text.Blank

namespace BearerGate.Cors

def anyOrigin : Text := Text.ofString "*"

def allowsAll (allowed : List Text) : Bool := allowed.contains anyOrigin

/-- Whether an origin may read answers; origins are compared as they stand. -/
def allows (allowed : List Text) (origin : Text) : Bool :=
  allowsAll allowed || allowed.contains origin

def named (allowed : List Text) (origin : Text) : Text :=
  if allowsAll allowed then anyOrigin else origin

def methods : List Text := ["GET", "POST"].map Text.ofString

def requestHeaders : List Text :=
  ["accept", "accept-language", "authorization", "content-language", "content-type"].map
    Text.ofString

def allowsHeaders (list : Text) : Bool :=
  ((Text.lower list).splitOn (',' : CodePoint)).all fun h =>
    requestHeaders.contains (Text.strip h)

/-- Whether a request asks in advance: OPTIONS from an origin, for a method. -/
def isPreflight (r : Request) : Bool :=
  r.method == Text.ofString "OPTIONS" && (r.header? "origin").isSome &&
    (r.header? "access-control-request-method").isSome

def failures (allowed : List Text) (r : Request) : List String :=
  let has (name : String) (ok : Text → Bool) : Bool := ((r.header? name).map ok).getD true
  (if has "origin" (allows allowed) then [] else ["origin"]) ++
    (if has "access-control-request-method" methods.contains then [] else ["method"]) ++
    (if has "access-control-request-headers" allowsHeaders then [] else ["headers"]) ++
    (if has "access-control-request-private-network" (fun _ => false) then []
      else ["private-network"])

def preflightHeaders : List (Text × Text) :=
  [Response.header "vary" ("Origin, Access-Control-Request-Method, Access-Control-Request-Headers, "
      ++ "Access-Control-Request-Private-Network"),
    Response.header "access-control-allow-methods" "GET, POST",
    Response.header "access-control-max-age" "600",
    Response.header "access-control-allow-headers"
      "Accept, Accept-Language, Authorization, Content-Language, Content-Type",
    Response.header "content-type" "text/plain; charset=utf-8"]

def allowOrigin (allowed : List Text) (r : Request) : List (Text × Text) :=
  match r.header? "origin" with
  | none => []
  | some origin =>
    if allows allowed origin then
      [(Text.ofString "access-control-allow-origin", named allowed origin)]
    else []

def preflight (allowed : List Text) (r : Request) : Response :=
  let headers := preflightHeaders ++ allowOrigin allowed r
  match failures allowed r with
  | [] => ⟨200, headers, Text.ofString "OK"⟩
  | found =>
    ⟨400, headers, Text.ofString "Disallowed CORS " ++
      (Text.ofString ", ").intercalate (found.map Text.ofString)⟩

def decorate (allowed : List Text) (r : Request) (response : Response) : Response :=
  { response with
    headers := response.headers ++ Response.header "vary" "Origin" :: allowOrigin allowed r }

end BearerGate.Cors
