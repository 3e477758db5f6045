import BearerGate.Crypto.Sha256

namespace BearerGate.Rsa

structure PublicKey where
  modulus : Nat
  exponent : Nat
  deriving DecidableEq

namespace PublicKey

def ofComponents? (modulus exponent : Nat) : Option PublicKey :=
  if 3 ≤ exponent ∧ exponent < modulus ∧ exponent % 2 = 1 then some ⟨modulus, exponent⟩ else none

def bitLength (n : Nat) : Nat := if n = 0 then 0 else n.log2 + 1

def size (key : PublicKey) : Nat := (bitLength key.modulus + 7) / 8

/-- Keys whose powers are computed at all. -/
def usable (key : PublicKey) : Bool :=
  key.modulus % 2 == 1 && bitLength key.modulus ≤ 16384 &&
    (bitLength key.modulus ≤ 3072 || bitLength key.exponent ≤ 64)

end PublicKey

/-- `base ^ exponent` modulo `modulus`; the fuel is the bit length of the exponent. -/
def powMod (modulus : Nat) : (fuel base exponent : Nat) → Nat
  | 0, _, _ => 1 % modulus
  | fuel + 1, base, exponent =>
    let rest := powMod modulus fuel (base * base % modulus) (exponent / 2)
    if exponent % 2 = 1 then base * rest % modulus else rest

def ofBytes (bytes : Bytes) : Nat := bytes.foldl (fun n b => n * 256 + b.toNat) 0

/-- The marker of SHA-256 with explicit null parameters, nineteen bytes. -/
def digestMarker : Nat := 0x3031300d060960864801650304020105000420

/-- The hash padded to `size` bytes: 00 01, at least eight of FF, 00, the marker and the hash. -/
def paddedDigest? (size : Nat) (message : Bytes) : Option Nat :=
  if 62 ≤ size then
    let run := size - 54
    some (((1 <<< (8 * run + 1)) - 1) <<< (8 * 52) +
      ((digestMarker <<< 256) + Sha256.digest message))
  else none

def verifies (key : PublicKey) (message signature : Bytes) : Bool :=
  let s := ofBytes signature
  key.usable && signature.length == key.size && s < key.modulus &&
    paddedDigest? key.size message ==
      some (powMod key.modulus (PublicKey.bitLength key.exponent) s key.exponent)

end BearerGate.Rsa
