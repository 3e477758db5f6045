import BearerGate.Claims
import BearerGate.Field
import BearerGate.Issuer
import BearerGate.Problem

namespace BearerGate

inductive FieldKind where
  | text
  | optionalText
  | optionalTextSet
  deriving DecidableEq

structure FieldSpec where
  name : Text
  kind : FieldKind
  required : Bool

structure Schema where
  fields : List FieldSpec
  frozen : Bool

abbrev Record := Table Json

namespace FieldKind

/-- A set comes out as the list of its elements in order. -/
def read : FieldKind → Json → Checked Json
  | text, v => (Field.text v).map .str
  | optionalText, v => (Field.optional Field.text v).map fun o => (o.map Json.str).getD .null
  | optionalTextSet, .null => .ok .null
  | optionalTextSet, .arr vs =>
    (Field.items Field.text 0 vs).map fun ts => .arr ((TextSet.ofList ts).map .str)
  | optionalTextSet, _ => Field.fail .setExpected

end FieldKind

namespace Schema

def field (name : String) (kind : FieldKind) (required : Bool) : FieldSpec :=
  ⟨Text.ofString name, kind, required⟩

def authConfig : Schema := ⟨[field "audience" .text true, field "issuer_domain" .text true], true⟩

def tokenHeader : Schema := ⟨[field "algorithm" .optionalText true, field "kid" .text true], true⟩

def rsaParameters : Schema := ⟨[field "modulus" .text true, field "exponent" .text true], true⟩

def otherParameters : Schema :=
  ⟨[field "key_type" .text true, field "curve" .optionalText false], true⟩

def claims : Schema :=
  ⟨[field "subject" .text true, field "permissions" .optionalTextSet false], true⟩

def problemBody : Schema :=
  ⟨[field "error" .optionalText false, field "error_description" .optionalText false,
    field "message" .text true], false⟩

def identityBody : Schema := ⟨[field "id" .text true], false⟩

/-- An optional field without a value is null. -/
def readField (given : Table Json) (f : FieldSpec) : Checked Json :=
  Field.inside (.name f.name)
    (match Table.get? f.name given with
    | some v => f.kind.read v
    | none => if f.required then Field.fail .missing else .ok .null)

def readFields (given : Table Json) : List FieldSpec → Checked Record
  | [] => .ok []
  | f :: fs =>
    (Checked.both (readField given f) (readFields given fs)).map fun (v, r) => (f.name, v) :: r

def build (s : Schema) (given : Table Json) : Checked Record := readFields given s.fields

inductive AssignmentError where
  | frozen (name : Text)
  | unknown (name : Text)
  deriving DecidableEq

def assign (s : Schema) (r : Record) (name : Text) (v : Json) : Except AssignmentError Record :=
  if s.frozen then .error (.frozen name)
  else if s.fields.any (fun f => f.name = name) then .ok (Table.put name v r)
  else .error (.unknown name)

def assignAll (s : Schema) : Record → List (Text × Json) → Except AssignmentError Record
  | r, [] => .ok r
  | r, (name, v) :: rest =>
    match assign s r name v with
    | .ok r => assignAll s r rest
    | .error e => .error e

end Schema

namespace Record

def text (name : String) (r : Record) : Text :=
  ((Table.get? (Text.ofString name) r).bind Json.str?).getD []

end Record

def Issuer.ofFields (given : Table Json) : Checked Issuer :=
  (Schema.authConfig.build given).map fun r => ⟨r.text "audience", r.text "issuer_domain"⟩

end BearerGate
