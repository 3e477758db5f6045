import BearerGate.Number.Shortest

namespace BearerGate

inductive Number where
  | whole (n : Int)
  | real (x : Binary64)
  deriving DecidableEq

namespace Number

/-- Whole numbers in plain digits, others in the shortest digits that read back. -/
def text : Number → Text
  | .whole n => Text.ofInt n
  | .real x => Text.ofString x.text

def atMostZero : Number → Bool
  | .whole n => n ≤ 0
  | .real x => x.atMostZero

def toRat? : Number → Option Rat
  | .whole n => some n
  | .real x => x.toRat?

end Number

end BearerGate
