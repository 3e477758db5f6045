import BearerGate.Base64
import BearerGate.Json.Reader

namespace BearerGate

structure Compact where
  header : Members
  payload : Bytes
  signature : Bytes
  signed : Bytes
  deriving DecidableEq

namespace Compact

def dot : UInt8 := 0x2E

/-- Cuts a token at its last dot, and what comes before it at the first. -/
def segments? (bytes : Bytes) : Option (Bytes × Bytes × Bytes × Bytes) :=
  match Text.cutLast? dot bytes with
  | none => none
  | some (signed, signature) =>
    match Text.cut? dot signed with
    | none => none
    | some (header, payload) => some (signed, header, payload, signature)

def readObject (bytes : Bytes) : Except Json.ReadError Members :=
  match Utf8.decode? .refused bytes with
  | none => .error .malformed
  | some text =>
    match Json.read text with
    | .error e => .error e
    | .ok (.obj ms) => .ok ms
    | .ok _ => .error .malformed

/-- The header is read before the other segments are decoded. -/
def read (token : Text) : Except Json.ReadError Compact :=
  match (Utf8.encode? token).bind segments? with
  | none => .error .malformed
  | some (signed, header, payload, signature) =>
    match Base64.decodeSegment? header with
    | none => .error .malformed
    | some bytes =>
      match readObject bytes with
      | .error e => .error e
      | .ok ms =>
        match Base64.decodeSegment? payload, Base64.decodeSegment? signature with
        | some p, some s => .ok ⟨ms, p, s, signed⟩
        | _, _ => .error .malformed

end Compact

end BearerGate
