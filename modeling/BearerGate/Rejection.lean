import BearerGate.Problem

namespace BearerGate

inductive Rejection where
  | missingCredentials
  /-- The token is not three decodable segments with an object for a header. -/
  | malformedToken
  | noKeyNamed
  | keyNotPublished
  /-- The key is of another family than RSA. -/
  | unsupportedAlgorithm (algorithm : Text)
  | unverified
  | keysUnavailable
  deriving DecidableEq

namespace Rejection

def problemClass : Rejection → ProblemClass
  | missingCredentials => .missingCredentials
  | malformedToken => .malformedToken
  | noKeyNamed | keyNotPublished => .unknownKey
  | unsupportedAlgorithm _ => .unsupportedAlgorithm
  | unverified => .unverified
  | keysUnavailable => .keysUnavailable

def name (r : Rejection) : Text := r.problemClass.name

/-- What the caller is told besides the message. -/
def description? : Rejection → Option Text
  | missingCredentials => none
  | malformedToken =>
    some (Text.ofString "Authorization header value must follow this format: Bearer access-token")
  | noKeyNamed => some (Text.ofString "kid not found in token header")
  | keyNotPublished => some (Text.ofString "No JWK found for kid")
  | unsupportedAlgorithm a =>
    some (Text.ofString "Unsupported encryption algorithm expected RSA got " ++ a)
  | unverified => some (Text.ofString "Token signature or claims could not be verified")
  | keysUnavailable => some (Text.ofString "Unable to retrieve signing keys")

def problem : Rejection → Problem
  | missingCredentials =>
    Problem.unauthenticated (Text.ofString "Requires authentication") none none
  | r => Problem.unauthenticated Problem.badCredentials (some Problem.invalidToken) r.description?

/-- What the log says: the description, or the message where that says nothing. -/
def cause (r : Rejection) : Text :=
  match r.description? with
  | some (c :: rest) => c :: rest
  | _ => r.problem.message

end Rejection

namespace ProblemClass

/-- A text, or null for none. -/
def textOrNull? : Json → Option (Option Text)
  | .null => some none
  | .str t => some (some t)
  | _ => none

def headersOrNull? : Json → Option (Option (List (Text × Text)))
  | .null => some none
  | .obj ms => (ms.mapM fun m : Text × Json => m.2.str?.map fun t => (m.1, t)).map some
  | _ => none

/-- The problem that these arguments make, if they have the types that the class announces. -/
def made? : ProblemClass → List Json → Option Problem
  | general, [.str message, .num (.whole status), error, description, headers] => do
    let error ← textOrNull? error
    let description ← textOrNull? description
    let headers ← headersOrNull? headers
    return ⟨message, status, error, description, headers⟩
  | authentication, [.str message, error, description] => do
    let error ← textOrNull? error
    let description ← textOrNull? description
    return Problem.unauthenticated message error description
  | missingCredentials, [] => some Rejection.missingCredentials.problem
  | malformedToken, [] => some Rejection.malformedToken.problem
  | unknownKey, [.str description] =>
    some (Problem.unauthenticated Problem.badCredentials (some Problem.invalidToken)
      (some description))
  | unsupportedAlgorithm, [.str a] => some (Rejection.unsupportedAlgorithm a).problem
  | unverified, [] => some Rejection.unverified.problem
  | keysUnavailable, [] => some Rejection.keysUnavailable.problem
  | _, _ => none

def algorithm? : ProblemClass → List Json → Option Text
  | unsupportedAlgorithm, [.str a] => some a
  | _, _ => none

end ProblemClass

/-- Ends of a request that are no rejection. -/
inductive Fault where
  | tooDeep
  /-- A time claim is infinite. -/
  | infiniteInstant
  | noSubject
  | subjectNotText
  /-- The key set has an address that no request can be sent to. -/
  | invalidUrl
  | cancelled
  /-- Nothing answers and nothing limits the wait. -/
  | unanswered
  /-- The key server failed in a way that nobody provides for. -/
  | unforeseen (kind : Text)
  deriving DecidableEq

inductive Failure where
  | rejected (r : Rejection)
  | faulted (f : Fault)
  deriving DecidableEq

instance Failure.decideOutcome {ε α : Type} [DecidableEq ε] [DecidableEq α] :
    DecidableEq (Except ε α)
  | .ok a, .ok b => decidable_of_iff (a = b) (by simp)
  | .error a, .error b => decidable_of_iff (a = b) (by simp)
  | .ok _, .error _ => isFalse (by simp)
  | .error _, .ok _ => isFalse (by simp)

end BearerGate
