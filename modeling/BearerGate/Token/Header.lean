import BearerGate.Rejection
import BearerGate.Token.Compact

namespace BearerGate

structure TokenHeader where
  algorithm : Option Text
  kid : Text
  deriving DecidableEq

namespace TokenHeader

/-- A token that names no key is told apart from one that is none. -/
def ofToken (token : Text) : Except Rejection TokenHeader :=
  let segments := token.splitOn ('.' : CodePoint)
  if segments.length ≠ 3 ∨ [] ∈ segments then .error .malformedToken
  else
    match Compact.read token with
    | .error _ => .error .malformedToken
    | .ok c =>
      match Table.get? (Text.ofString "kid") c.header with
      | none | some .null => .error .noKeyNamed
      | some (.str kid) =>
        .ok ⟨(Table.get? (Text.ofString "alg") c.header).bind Json.str?, kid⟩
      | some _ => .error .malformedToken

end TokenHeader

end BearerGate
