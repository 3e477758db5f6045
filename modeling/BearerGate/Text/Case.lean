import BearerGate.Text

namespace BearerGate.CodePoint

/-- The small form wherever it lies in Latin-1. Other code points are left alone: their small forms
equal no name and enter no header. -/
def lower (c : CodePoint) : CodePoint :=
  if 0x41 ≤ c.val ∧ c.val ≤ 0x5A then CodePoint.ofNat (c.val + 0x20)
  else if 0xC0 ≤ c.val ∧ c.val ≤ 0xDE ∧ c.val ≠ 0xD7 then CodePoint.ofNat (c.val + 0x20)
  else if c.val = 0x178 then .ofNat 0xFF
  else if c.val = 0x1E9E then .ofNat 0xDF
  else if c.val = 0x212A then 'k'
  else if c.val = 0x212B then .ofNat 0xE5
  else c

/-- The capital form wherever it is in ASCII. Other code points keep a form that is no name. -/
def upper (c : CodePoint) : Text :=
  if 0x61 ≤ c.val ∧ c.val ≤ 0x7A then [CodePoint.ofNat (c.val - 0x20)]
  else match c.val with
    | 0xDF => Text.ofString "SS"
    | 0x131 => Text.ofString "I"
    | 0x17F => Text.ofString "S"
    | 0xFB00 => Text.ofString "FF"
    | 0xFB01 => Text.ofString "FI"
    | 0xFB02 => Text.ofString "FL"
    | 0xFB03 => Text.ofString "FFI"
    | 0xFB04 => Text.ofString "FFL"
    | 0xFB05 => Text.ofString "ST"
    | 0xFB06 => Text.ofString "ST"
    | _ => [c]

end BearerGate.CodePoint

namespace BearerGate.Text

def lower (t : Text) : Text := t.map CodePoint.lower

def upper (t : Text) : Text := t.flatMap CodePoint.upper

def equalsIgnoringAsciiCase (a b : Text) : Bool :=
  let fold (c : CodePoint) : CodePoint :=
    if 0x41 ≤ c.val ∧ c.val ≤ 0x5A then CodePoint.ofNat (c.val + 0x20) else c
  a.map fold == b.map fold

end BearerGate.Text
