import BearerGate.Rejection
import BearerGate.Token.Verification

namespace BearerGate

/-- A set of texts as the list of its elements in order. -/
abbrev TextSet := List Text

namespace TextSet

def insert (t : Text) : TextSet → TextSet
  | [] => [t]
  | u :: rest =>
    if t = u then u :: rest
    else if Text.lt t u then t :: u :: rest
    else u :: insert t rest

def ofList (ts : List Text) : TextSet := ts.foldl (fun s t => insert t s) []

end TextSet

structure Claims where
  subject : Text
  permissions : Option TextSet
  deriving DecidableEq

namespace Claims

/-- The elements of a permission list that are texts; anything else grants nothing. -/
def permissionsOf (p : Payload) : Option TextSet :=
  match p.claim? "permissions" with
  | some (.arr items) => some (TextSet.ofList (items.filterMap Json.str?))
  | _ => none

def ofPayload (p : Payload) : Except Fault Claims :=
  match p.claim? "sub" with
  | none => .error .noSubject
  | some (.str subject) => .ok ⟨subject, permissionsOf p⟩
  | some _ => .error .subjectNotText

end Claims

end BearerGate
