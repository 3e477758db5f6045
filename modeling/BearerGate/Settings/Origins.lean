import BearerGate.Field
import BearerGate.Json.Reader
import BearerGate.Text.Blank

namespace BearerGate.Origins

def ofCommas (t : Text) : List Text :=
  ((t.splitOn (',' : CodePoint)).map Text.strip).filter (· ≠ [])

/-- Whatever begins with a bracket has to be JSON. -/
def ofText (t : Text) : Except Json.ReadError (Checked (List Text)) :=
  let t := Text.strip t
  if t.head? = some ('[' : CodePoint) then
    match Json.read t with
    | .ok v => .ok (Field.textList v)
    | .error .malformed => .ok (Field.fail .refused)
    | .error .tooDeep => .error .tooDeep
  else .ok (.ok (ofCommas t))

/-- A document that nests too deep is no defect of the field. -/
def ofJson : Json → Except Json.ReadError (Checked (List Text))
  | .str t => ofText t
  | v => .ok (Field.textList v)

end BearerGate.Origins
