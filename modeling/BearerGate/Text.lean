namespace BearerGate

/-- A Unicode code point, surrogates included. -/
abbrev CodePoint := Fin 0x110000

abbrev Text := List CodePoint

namespace CodePoint

def ofChar (c : Char) : CodePoint :=
  ⟨c.toNat, by
    have h := c.valid
    simp only [UInt32.isValidChar, Nat.isValidChar] at h
    change c.val.toNat < 0x110000
    omega⟩

instance : Coe Char CodePoint := ⟨ofChar⟩

def ofNat? (n : Nat) : Option CodePoint :=
  if h : n < 0x110000 then some ⟨n, h⟩ else none

/-- Numbers of no code point count from zero again. -/
def ofNat (n : Nat) : CodePoint := ⟨n % 0x110000, Nat.mod_lt n (by decide)⟩

def quote : CodePoint := ofNat 0x22

def apostrophe : CodePoint := ofNat 0x27

def backslash : CodePoint := ofNat 0x5C

def isSurrogate (c : CodePoint) : Bool := 0xD800 ≤ c.val && c.val < 0xE000

def isAsciiDigit (c : CodePoint) : Bool := 0x30 ≤ c.val && c.val ≤ 0x39

def hexDigit? (c : CodePoint) : Option Nat :=
  if 0x30 ≤ c.val ∧ c.val ≤ 0x39 then some (c.val - 0x30)
  else if 0x41 ≤ c.val ∧ c.val ≤ 0x46 then some (c.val - 0x37)
  else if 0x61 ≤ c.val ∧ c.val ≤ 0x66 then some (c.val - 0x57)
  else none

end CodePoint

namespace Text

def ofString (s : String) : Text := s.toList.map CodePoint.ofChar

def toString? (t : Text) : Option String :=
  (t.mapM fun c : CodePoint =>
    if h : c.val.isValidChar then some (Char.ofNatAux c.val h) else none).map String.ofList

def hasSurrogate (t : Text) : Bool := t.any CodePoint.isSurrogate

def ofNat (n : Nat) : Text := ofString (Nat.repr n)

def ofInt : Int → Text
  | .ofNat n => ofNat n
  | .negSucc n => ofString "-" ++ ofNat (n + 1)

/-- What stands before the first `c` and what stands after it. -/
def cut? {α : Type} [DecidableEq α] (c : α) : List α → Option (List α × List α)
  | [] => none
  | x :: rest =>
    if x = c then some ([], rest) else (cut? c rest).map fun (a, b) => (x :: a, b)

/-- What stands before the last `c` and what stands after it. -/
def cutLast? {α : Type} [DecidableEq α] (c : α) : List α → Option (List α × List α)
  | [] => none
  | x :: rest =>
    match cutLast? c rest with
    | some (a, b) => some (x :: a, b)
    | none => if x = c then some ([], rest) else none

/-- `List.rdropWhile` for modules without Mathlib. -/
def trimEnd {α : Type} (p : α → Bool) (xs : List α) : List α :=
  (xs.reverse.dropWhile p).reverse

def trim {α : Type} (p : α → Bool) (xs : List α) : List α :=
  trimEnd p (xs.dropWhile p)

/-- The rest after `head`, or the whole where it does not begin with it. -/
def dropHead (head t : Text) : Text := (head.isPrefixOf? t).getD t

def lt : Text → Text → Bool
  | _, [] => false
  | [], _ :: _ => true
  | a :: as, b :: bs => a.val < b.val || (a.val == b.val && lt as bs)

end Text

end BearerGate
