import BearerGate.Text.Encoding

namespace BearerGate.Percent

def isUnreserved (c : CodePoint) : Bool :=
  (0x41 ≤ c.val && c.val ≤ 0x5A) || (0x61 ≤ c.val && c.val ≤ 0x7A) || c.isAsciiDigit ||
  c == '-' || c == '.' || c == '_' || c == '~'

def hexDigit (n : Nat) : CodePoint := CodePoint.ofNat (if n < 10 then 0x30 + n else 0x37 + n)

def encodeByte (b : UInt8) : Text := [0x25, hexDigit (b.toNat / 16), hexDigit (b.toNat % 16)]

def encodePoint (c : CodePoint) : Text := ((Utf8.encodePoint c).getD []).flatMap encodeByte

def encode (safe : CodePoint → Bool) (t : Text) : Text :=
  t.flatMap fun c => if isUnreserved c || safe c then [c] else encodePoint c

/-- As `encode`, but what is encoded already is left alone. -/
def encodeAround (safe : CodePoint → Bool) : Text → Text
  | [] => []
  | [c] => encode safe [c]
  | [c, d] => encode safe [c, d]
  | c :: a :: b :: rest =>
    if c = '%' ∧ a.hexDigit?.isSome ∧ b.hexDigit?.isSome then
      c :: a :: b :: encodeAround safe rest
    else encode safe [c] ++ encodeAround safe (a :: b :: rest)

def isOneOf (set : String) (c : CodePoint) : Bool := (Text.ofString set).contains c

end BearerGate.Percent
