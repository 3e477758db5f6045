import BearerGate.Json

namespace BearerGate

structure Problem where
  message : Text
  status : Int
  error : Option Text
  description : Option Text
  headers : Option (List (Text × Text))
  deriving DecidableEq

namespace Problem

/-- Status 401 and a challenge for a bearer token. -/
def unauthenticated (message : Text) (error description : Option Text) : Problem where
  message := message
  status := 401
  error := error
  description := description
  headers := some [(Text.ofString "WWW-Authenticate", Text.ofString "Bearer")]

def badCredentials : Text := Text.ofString "Bad credentials"

def invalidToken : Text := Text.ofString "invalid_token"

def members (p : Problem) : List (Text × Text) :=
  (p.error.map fun e => (Text.ofString "error", e)).toList ++
    (p.description.map fun d => (Text.ofString "error_description", d)).toList ++
    [(Text.ofString "message", p.message)]

def body (p : Problem) : Json := .obj (p.members.map fun (k, v) => (k, .str v))

end Problem

inductive ProblemClass where
  | general
  | authentication
  | missingCredentials
  | malformedToken
  | unknownKey
  | unsupportedAlgorithm
  | unverified
  | keysUnavailable
  deriving DecidableEq

structure Parameter where
  name : Text
  default : Option Json

namespace ProblemClass

def name : ProblemClass → Text
  | general => Text.ofString "BookshelfAPIException"
  | authentication => Text.ofString "AuthenticationException"
  | missingCredentials => Text.ofString "MissingCredentials"
  | malformedToken => Text.ofString "MalformedToken"
  | unknownKey => Text.ofString "UnknownKey"
  | unsupportedAlgorithm => Text.ofString "UnsupportedAlgorithm"
  | unverified => Text.ofString "InvalidSignatureOrClaims"
  | keysUnavailable => Text.ofString "UpstreamUnavailable"

def all : List ProblemClass :=
  [general, authentication, missingCredentials, malformedToken, unknownKey, unsupportedAlgorithm,
    unverified, keysUnavailable]

def ofName? (t : Text) : Option ProblemClass := all.find? (·.name = t)

/-- A class and those above it, the nearest first. -/
def lineage : ProblemClass → List ProblemClass
  | general => [general]
  | authentication => [authentication, general]
  | c => [c, authentication, general]

def bases (c : ProblemClass) : List Text :=
  c.lineage.map name ++ [Text.ofString "Exception", Text.ofString "BaseException"]

def parameters : ProblemClass → List Parameter
  | general =>
    [⟨Text.ofString "message", none⟩, ⟨Text.ofString "status_code", some (.num (.whole 500))⟩,
      ⟨Text.ofString "error", some .null⟩, ⟨Text.ofString "error_description", some .null⟩,
      ⟨Text.ofString "headers", some .null⟩]
  | authentication =>
    [⟨Text.ofString "message", some (.str Problem.badCredentials)⟩,
      ⟨Text.ofString "error", some (.str Problem.invalidToken)⟩,
      ⟨Text.ofString "error_description", some .null⟩]
  | unknownKey => [⟨Text.ofString "description", none⟩]
  | unsupportedAlgorithm => [⟨Text.ofString "algorithm", none⟩]
  | missingCredentials | malformedToken | unverified | keysUnavailable => []

/-- The first arguments are given in order, the others by name or by default, and none is left over.
-/
def arguments? (c : ProblemClass) (given : List Json) (named : Members) : Option (List Json) :=
  let rest := c.parameters.drop given.length
  if c.parameters.length < given.length ∨ named.any fun (k, _) => !rest.any (·.name = k) then none
  else (rest.mapM fun p => (Table.get? p.name named).or p.default).map (given ++ ·)

end ProblemClass

end BearerGate
