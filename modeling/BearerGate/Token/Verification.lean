import BearerGate.Crypto.Rsa
import BearerGate.Issuer
import BearerGate.KeySet
import BearerGate.Rejection
import BearerGate.Token.Compact

namespace BearerGate

abbrev Payload := Members

namespace Payload

def claim? (name : String) (p : Payload) : Option Json := Table.get? (Text.ofString name) p

end Payload

inductive InstantError where
  | notATime
  | infinite
  deriving DecidableEq

/-- Fractions are cut off; truth values and texts that write a whole number count. -/
def instant : Json → Except InstantError Int
  | .bool b => .ok (if b then 1 else 0)
  | .num (.whole n) => .ok n
  | .num (.real (.finite negative m e)) => .ok (Binary64.truncate negative m e)
  | .num (.real (.infinite _)) => .error .infinite
  | .str t => match Text.toInt? t with
    | some n => .ok n
    | none => .error .notATime
  | _ => .error .notATime

namespace Verification

/-- How many seconds the clocks of issuer and gate may be apart. -/
def leeway : Int := 60

/-- The only algorithm that is accepted, whatever a header announces. -/
def algorithm : Text := Text.ofString "RS256"

inductive Refusal where
  | unverified
  | infiniteInstant
  deriving DecidableEq

abbrev Check := Except Refusal Unit

def require (holds : Bool) : Check := if holds then .ok () else .error .unverified

def ifPresent (p : Payload) (name : String) (check : Json → Check) : Check :=
  match p.claim? name with
  | none => .ok ()
  | some v => check v

def timed (holds : Int → Bool) (v : Json) : Check :=
  match instant v with
  | .ok n => require (holds n)
  | .error .notATime => .error .unverified
  | .error .infinite => .error .infiniteInstant

def required : List String := ["aud", "iss", "exp", "sub"]

def hasRequired (p : Payload) : Bool := required.all fun name => (p.claim? name).isSome

def audienceMatches (audience : Text) : Json → Bool
  | .str t => t == audience
  | .arr items => items.all (fun v => v.str?.isSome) && items.any (fun v => v.str? == some audience)
  | _ => false

/-- Presence, times, audience, issuer, subject and identifier, in this order. A token with an access
token hash cannot be checked against any. -/
def checkClaims (issuer : Issuer) (now : Int) (p : Payload) : Check := do
  require (hasRequired p)
  ifPresent p "iat" (timed fun _ => true)
  ifPresent p "nbf" (timed fun n => n ≤ now + leeway)
  ifPresent p "exp" (timed fun n => now - leeway ≤ n)
  ifPresent p "aud" fun v => require (audienceMatches issuer.audience v)
  require ((p.claim? "iss").bind Json.str? == some issuer.url)
  ifPresent p "sub" fun v => require v.str?.isSome
  ifPresent p "jti" fun v => require v.str?.isSome
  ifPresent p "at_hash" fun _ => .error .unverified

def publicKey? (modulus exponent : Text) : Option Rsa.PublicKey :=
  match Base64.decodeNumber? exponent, Base64.decodeNumber? modulus with
  | some e, some n => Rsa.PublicKey.ofComponents? n e
  | _, _ => none

def signatureHolds (key : Rsa.PublicKey) (c : Compact) : Bool :=
  (Table.get? (Text.ofString "alg") c.header).bind Json.str? == some algorithm &&
    Rsa.verifies key c.signed c.signature

def ofReadError : Json.ReadError → Failure
  | .malformed => .rejected .unverified
  | .tooDeep => .faulted .tooDeep

def ofRefusal : Refusal → Failure
  | .unverified => .rejected .unverified
  | .infiniteInstant => .faulted .infiniteInstant

def verifyRsa (token modulus exponent : Text) (issuer : Issuer) (now : Int) :
    Except Failure Payload :=
  match publicKey? modulus exponent with
  | none => .error (.rejected .unverified)
  | some key =>
    match Compact.read token with
    | .error e => .error (ofReadError e)
    | .ok c =>
      if signatureHolds key c then
        match Compact.readObject c.payload with
        | .error e => .error (ofReadError e)
        | .ok p =>
          match checkClaims issuer now p with
          | .error e => .error (ofRefusal e)
          | .ok () => .ok p
      else .error (.rejected .unverified)

def verify (token : Text) (key : PublishedKey) (issuer : Issuer) (now : Int) :
    Except Failure Payload :=
  match key.parameters with
  | .other keyType curve =>
    .error (.rejected (.unsupportedAlgorithm (KeyParameters.describe keyType curve)))
  | .rsa modulus exponent => verifyRsa token modulus exponent issuer now

end Verification

end BearerGate
