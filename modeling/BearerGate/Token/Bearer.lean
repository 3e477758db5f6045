import BearerGate.Text.Blank
import BearerGate.Text.Case

namespace BearerGate.Bearer

def scheme : Text := Text.ofString "bearer"

def token? (authorization : Option Text) : Option Text :=
  match authorization with
  | none => none
  | some value =>
    match Text.cut? (' ' : CodePoint) value with
    | none => none
    | some (first, rest) =>
      let token := Text.strip rest
      if Text.lower first = scheme ∧ token ≠ [] then some token else none

end BearerGate.Bearer
