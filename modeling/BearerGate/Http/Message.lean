import BearerGate.Claims
import BearerGate.Json.Writer
import BearerGate.Problem
import BearerGate.Text.Case
import BearerGate.Text.Encoding

namespace BearerGate

structure Request where
  method : Text
  path : Text
  query : Text
  headers : List (Text × Text)
  deriving DecidableEq

namespace Request

/-- The first header of this name, which is given in small letters. -/
def header? (r : Request) (name : String) : Option Text :=
  (r.headers.find? fun (k, _) => Text.lower k = Text.ofString name).map (·.2)

end Request

structure Response where
  status : Int
  headers : List (Text × Text)
  body : Text
  deriving DecidableEq

namespace Response

def header (name value : String) : Text × Text := (Text.ofString name, Text.ofString value)

def isLatin1 (t : Text) : Bool := t.all (·.val < 0x100)

/-- Headers given with an answer come first; a content type among them stands. There is no answer if
a text cannot be written. -/
def json? (status : Int) (body : Json) (headers : List (Text × Text)) : Option Response :=
  let text := Json.write body
  let given := headers.map fun (k, v) => (Text.lower k, v)
  if text.hasSurrogate || !given.all (fun (k, v) => isLatin1 k && isLatin1 v) then none
  else
    let typed := given.any fun (k, _) => k = Text.ofString "content-type"
    let all := if typed then given else given ++ [header "content-type" "application/json"]
    some ⟨status, all, text⟩

def ofProblem? (p : Problem) : Option Response := json? p.status p.body (p.headers.getD [])

end Response

end BearerGate
