import BearerGate.Text

namespace BearerGate.CodePoint

/-- White space without the information separators of ASCII. -/
def isSpace (c : CodePoint) : Bool :=
  (0x09 ≤ c.val && c.val ≤ 0x0D) || c.val == 0x20 || c.val == 0x85 || c.val == 0xA0 ||
  c.val == 0x1680 || (0x2000 ≤ c.val && c.val ≤ 0x200A) || c.val == 0x2028 || c.val == 0x2029 ||
  c.val == 0x202F || c.val == 0x205F || c.val == 0x3000

/-- White space and the information separators of ASCII. -/
def isBlank (c : CodePoint) : Bool :=
  c.isSpace || (0x1C ≤ c.val && c.val ≤ 0x1F)

theorem isBlank_of_isSpace {c : CodePoint} (h : c.isSpace = true) : c.isBlank = true := by
  simp [isBlank, h]

end BearerGate.CodePoint

namespace BearerGate.Text

def strip (t : Text) : Text := trim CodePoint.isBlank t

end BearerGate.Text
