import BearerGate.Text.Encoding

namespace BearerGate.Base64

/-- The six bits that a byte of either alphabet stands for. -/
def sextet? (b : UInt8) : Option Nat :=
  let n := b.toNat
  if 0x41 ≤ n ∧ n ≤ 0x5A then some (n - 0x41)
  else if 0x61 ≤ n ∧ n ≤ 0x7A then some (n - 0x61 + 26)
  else if 0x30 ≤ n ∧ n ≤ 0x39 then some (n - 0x30 + 52)
  else if n = 0x2B ∨ n = 0x2D then some 62
  else if n = 0x2F ∨ n = 0x5F then some 63
  else none

def pad : UInt8 := 0x3D

/-- The sextets up to the padding that ends the text, or up to its end if no group is left open
there. `position` counts the sextets of the group, `pads` the pads in a row. -/
def sextets? (position pads : Nat) : Bytes → Option (List Nat)
  | [] => if position = 0 then some [] else none
  | b :: rest =>
    if b = pad then
      if 2 ≤ position then
        if 4 ≤ position + (pads + 1) then some [] else sextets? position (pads + 1) rest
      else sextets? position pads rest
    else match sextet? b with
      | none => sextets? position pads rest
      | some v => (sextets? ((position + 1) % 4) 0 rest).map (v :: ·)

/-- The bytes that sextets make; bits that fill no byte are dropped. -/
def bytes : List Nat → Bytes
  | a :: b :: c :: d :: rest =>
    UInt8.ofNat (a * 4 + b / 16) :: UInt8.ofNat (b % 16 * 16 + c / 4) ::
      UInt8.ofNat (c % 4 * 64 + d) :: bytes rest
  | [a, b, c] => [UInt8.ofNat (a * 4 + b / 16), UInt8.ofNat (b % 16 * 16 + c / 4)]
  | [a, b] => [UInt8.ofNat (a * 4 + b / 16)]
  | _ => []

def decode? (s : Bytes) : Option Bytes := (sextets? 0 0 s).map bytes

/-- Pads a text to whole groups by its length. -/
def padded (s : Bytes) : Bytes := s ++ List.replicate ((4 - s.length % 4) % 4) pad

def decodeSegment? (s : Bytes) : Option Bytes := decode? (padded s)

/-- The number that a key component stands for, most significant byte first. -/
def decodeNumber? (t : Text) : Option Nat :=
  if t.all (·.val < 0x80) then
    match decode? (t.map (fun c => UInt8.ofNat c.val) ++ [pad, pad]) with
    | some (b :: bs) => some ((b :: bs).foldl (fun n x => n * 256 + x.toNat) 0)
    | _ => none
  else none

end BearerGate.Base64
