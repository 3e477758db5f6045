namespace BearerGate

/-- A number of the format; `finite s m e` is `m · 2 ^ e`, negative if `s`. -/
inductive Binary64 where
  | nan
  | infinite (negative : Bool)
  | finite (negative : Bool) (mantissa : Nat) (exponent : Int)
  deriving DecidableEq

namespace Binary64

/-- The quotient rounded to the nearest natural number, a half to the even one. -/
def roundDiv (num den : Nat) : Nat :=
  let q := num / den
  let r := num % den
  if 2 * r > den ∨ (2 * r = den ∧ q % 2 = 1) then q + 1 else q

/-- The whole part of the binary logarithm of a positive quotient. -/
def log2Ratio (num den : Nat) : Int :=
  let l : Int := (num.log2 : Int) - (den.log2 : Int)
  let below := if 0 ≤ l then decide (num < den <<< l.toNat) else decide (num <<< (-l).toNat < den)
  if below then l - 1 else l

/-- The number nearest to a quotient, infinite from halfway beyond the largest on. -/
def ofRatio (negative : Bool) (num den : Nat) : Binary64 :=
  if num = 0 ∨ den = 0 then .finite negative 0 (-1074)
  else
    let e : Int := max (log2Ratio num den - 52) (-1074)
    let m := if 0 ≤ e then roundDiv num (den <<< e.toNat) else roundDiv (num <<< (-e).toNat) den
    let (m, e) := if m = 1 <<< 53 then (1 <<< 52, e + 1) else (m, e)
    if e > 971 then .infinite negative else .finite negative m e

def ofInt (n : Int) : Binary64 := ofRatio (n < 0) n.natAbs 1

/-- Exponents beyond reach of the format are settled before any power is taken. -/
def ofDecimal (negative : Bool) (digits : Nat) (exponent : Int) : Binary64 :=
  if digits = 0 then .finite negative 0 (-1074)
  else if exponent > 310 then .infinite negative
  else if exponent + (digits.log2 : Int) < -1100 then .finite negative 0 (-1074)
  else if 0 ≤ exponent then ofRatio negative (digits * Nat.pow 10 exponent.toNat) 1
  else ofRatio negative digits (Nat.pow 10 (-exponent).toNat)

def bits : Binary64 → Nat
  | .nan => 0x7FF8000000000000
  | .infinite negative => (if negative then 1 <<< 63 else 0) + 0x7FF0000000000000
  | .finite negative m e =>
    (if negative then 1 <<< 63 else 0) +
      (if m < 1 <<< 52 then m else ((e + 1075).toNat <<< 52) + (m - (1 <<< 52)))

/-- Whether the number is at most zero; nothing is said of `nan`. -/
def atMostZero : Binary64 → Bool
  | .nan => false
  | .infinite negative => negative
  | .finite negative m _ => negative || m == 0

def toRat? : Binary64 → Option Rat
  | .finite negative m e =>
    let n : Int := if negative then -m else m
    some (if 0 ≤ e then mkRat (n <<< e.toNat) 1 else mkRat n (1 <<< (-e).toNat))
  | _ => none

def ratio (m : Nat) (e : Int) : Nat × Nat :=
  if 0 ≤ e then (m <<< e.toNat, 1) else (m, 1 <<< (-e).toNat)

def isWhole (m : Nat) (e : Int) : Bool :=
  let (num, den) := ratio m e
  num % den == 0

def truncate (negative : Bool) (m : Nat) (e : Int) : Int :=
  let (num, den) := ratio m e
  if negative then -((num / den : Nat) : Int) else (num / den : Nat)

end Binary64

end BearerGate
