import BearerGate.Json

namespace BearerGate

/-- Only RSA keys are of use; of others it is kept what they are. -/
inductive KeyParameters where
  | rsa (modulus exponent : Text)
  | other (keyType : Text) (curve : Option Text)
  deriving DecidableEq

namespace KeyParameters

def describe (keyType : Text) (curve : Option Text) : Text :=
  match curve with
  | some (c :: rest) => keyType ++ Text.ofString " (" ++ (c :: rest) ++ Text.ofString ")"
  | _ => keyType

end KeyParameters

structure PublishedKey where
  kid : Option Text
  parameters : KeyParameters
  deriving DecidableEq

inductive KeySetError where
  | entryNotObject
  | rsaWithoutComponents
  | noKeyList
  deriving DecidableEq

namespace KeySetError

def message : KeySetError → String
  | entryNotObject => "JWK entry must be an object"
  | rsaWithoutComponents => "RSA JWK requires string 'n' and 'e'"
  | noKeyList => "JWKS document must be an object with a 'keys' list"

end KeySetError

namespace PublishedKey

def text? (name : String) (ms : Members) : Option Text :=
  (Table.get? (Text.ofString name) ms).bind Json.str?

def parametersOf (ms : Members) : Except KeySetError KeyParameters :=
  if text? "kty" ms = some (Text.ofString "RSA") then
    match text? "n" ms, text? "e" ms with
    | some n, some e => .ok (.rsa n e)
    | _, _ => .error .rsaWithoutComponents
  else .ok (.other ((text? "kty" ms).getD (Text.ofString "unknown")) (text? "crv" ms))

def ofJson : Json → Except KeySetError PublishedKey
  | .obj ms => (parametersOf ms).map fun p => ⟨text? "kid" ms, p⟩
  | _ => .error .entryNotObject

end PublishedKey

abbrev KeySet := List PublishedKey

namespace KeySet

/-- Reads the entries in order and stops at the first that is no key. -/
def ofEntries : List Json → Except KeySetError KeySet
  | [] => .ok []
  | v :: vs =>
    match PublishedKey.ofJson v with
    | .error e => .error e
    | .ok k => (ofEntries vs).map (k :: ·)

def ofJson : Json → Except KeySetError KeySet
  | .obj ms =>
    match Table.get? (Text.ofString "keys") ms with
    | some (.arr entries) => ofEntries entries
    | _ => .error .noKeyList
  | _ => .error .noKeyList

/-- The first key with this identifier. -/
def find? (kid : Text) (keys : KeySet) : Option PublishedKey :=
  List.find? (fun k : PublishedKey => decide (k.kid = some kid)) keys

end KeySet

end BearerGate
