import BearerGate.Number.Binary64
import BearerGate.Text

namespace BearerGate.Binary64

def log10Ratio (num den : Nat) : Int :=
  let guess : Int := (log2Ratio num den * 30103) / 100000
  let atLeast (k : Int) : Bool :=
    if 0 ≤ k then decide (den * Nat.pow 10 k.toNat ≤ num)
    else decide (den ≤ num * Nat.pow 10 (-k).toNat)
  if atLeast (guess + 1) then guess + 1 else if atLeast guess then guess else guess - 1

/-- The decimal of `count` digits that reads back and is nearest, with the exponent of its last
digit. -/
def onGrid (m : Nat) (e : Int) (count : Nat) : Option (Nat × Int) :=
  let (num, den) := ratio m e
  let last : Int := log10Ratio num den + 1 - count
  let (n, d) :=
    if 0 ≤ last then (num, den * Nat.pow 10 last.toNat)
    else (num * Nat.pow 10 (-last).toNat, den)
  let low := n / d
  let readsBack (k : Nat) : Bool := decide (ofDecimal false k last = .finite false m e)
  let nearest := roundDiv n d
  let other := if nearest = low then low + 1 else low
  if readsBack nearest then some (nearest, last)
  else if readsBack other then some (other, last)
  else none

/-- The shortest digits that read back; seventeen always do. -/
def shortestDigits (m : Nat) (e : Int) : Nat × Int :=
  ((List.range' 1 17).findSome? (onGrid m e)).getD (m, e)

def dropZeros : Nat → Nat → Int → Nat × Int
  | 0, n, e => (n, e)
  | fuel + 1, n, e => if n ≠ 0 ∧ n % 10 = 0 then dropZeros fuel (n / 10) (e + 1) else (n, e)

/-- Where positional notation begins and ends: from 10⁻⁴ up to, but not including, 10¹⁶. -/
def positionalFrom : Int := -4
def positionalTo : Int := 16

/-- The digits `ds`, positional or with an exponent; `last` is that of the last digit. -/
def layout (ds : List Char) (last : Int) : String :=
  let lead : Int := last + ds.length - 1
  if positionalFrom ≤ lead ∧ lead < positionalTo then
    if 0 ≤ last then String.ofList (ds ++ List.replicate last.toNat '0') ++ ".0"
    else if 0 ≤ lead then
      String.ofList (ds.take (lead + 1).toNat) ++ "." ++ String.ofList (ds.drop (lead + 1).toNat)
    else "0." ++ String.ofList (List.replicate (-lead - 1).toNat '0' ++ ds)
  else
    let fraction := match ds with
      | [] => ""
      | [c] => String.ofList [c]
      | c :: rest => String.ofList (c :: '.' :: rest)
    let size := Nat.repr lead.natAbs
    let sign := if lead < 0 then "-" else "+"
    fraction ++ "e" ++ sign ++ (if lead.natAbs < 10 then "0" ++ size else size)

def text : Binary64 → String
  | .nan => "nan"
  | .infinite negative => if negative then "-inf" else "inf"
  | .finite negative m e =>
    let mark := if negative then "-" else ""
    if m = 0 then mark ++ "0.0"
    else
      let (n, last) := shortestDigits m e
      let (n, last) := dropZeros 20 n last
      mark ++ layout (Nat.repr n).toList last

end BearerGate.Binary64
