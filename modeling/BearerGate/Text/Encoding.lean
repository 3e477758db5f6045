import BearerGate.Text

namespace BearerGate

abbrev Bytes := List UInt8

namespace Utf8

def byte (n : Nat) : UInt8 := UInt8.ofNat n

def encodePoint (c : CodePoint) : Option Bytes :=
  if c.val < 0x80 then some [byte c.val]
  else if c.val < 0x800 then some [byte (0xC0 + c.val / 64), byte (0x80 + c.val % 64)]
  else if c.isSurrogate then none
  else if c.val < 0x10000 then
    some [byte (0xE0 + c.val / 4096), byte (0x80 + c.val / 64 % 64), byte (0x80 + c.val % 64)]
  else
    some [byte (0xF0 + c.val / 262144), byte (0x80 + c.val / 4096 % 64),
      byte (0x80 + c.val / 64 % 64), byte (0x80 + c.val % 64)]

def encode? : Text → Option Bytes
  | [] => some []
  | c :: rest =>
    match encodePoint c, encode? rest with
    | some b, some bs => some (b ++ bs)
    | _, _ => none

def tail? (b : UInt8) : Option Nat :=
  if 0x80 ≤ b.toNat ∧ b.toNat < 0xC0 then some (b.toNat - 0x80) else none

/-- What a reader lets through besides the scalar values. -/
inductive Surrogates where
  | refused
  | allowed
  deriving DecidableEq

/-- The code point of a sequence that is neither too long, nor too large, nor a surrogate to be
refused. -/
def point? (mode : Surrogates) (least n : Nat) : Option CodePoint :=
  match CodePoint.ofNat? n with
  | some c => if n < least ∨ (c.isSurrogate ∧ mode = .refused) then none else some c
  | none => none

def decode? (mode : Surrogates) : Bytes → Option Text
  | [] => some []
  | a :: r₁ =>
    if a.toNat < 0x80 then
      match point? mode 0 a.toNat, decode? mode r₁ with
      | some c, some t => some (c :: t)
      | _, _ => none
    else match r₁ with
      | [] => none
      | b :: r₂ =>
        if 0xC0 ≤ a.toNat ∧ a.toNat < 0xE0 then
          match tail? b with
          | some y =>
            match point? mode 0x80 ((a.toNat - 0xC0) * 64 + y), decode? mode r₂ with
            | some c, some t => some (c :: t)
            | _, _ => none
          | none => none
        else match r₂ with
          | [] => none
          | d :: r₃ =>
            if 0xE0 ≤ a.toNat ∧ a.toNat < 0xF0 then
              match tail? b, tail? d with
              | some y, some z =>
                match point? mode 0x800 ((a.toNat - 0xE0) * 4096 + y * 64 + z), decode? mode r₃ with
                | some c, some t => some (c :: t)
                | _, _ => none
              | _, _ => none
            else match r₃ with
              | [] => none
              | e :: r₄ =>
                if 0xF0 ≤ a.toNat ∧ a.toNat < 0xF8 then
                  match tail? b, tail? d, tail? e with
                  | some y, some z, some w =>
                    match point? mode 0x10000
                        ((a.toNat - 0xF0) * 262144 + y * 4096 + z * 64 + w), decode? mode r₄ with
                    | some c, some t => some (c :: t)
                    | _, _ => none
                  | _, _, _ => none
                else none

end Utf8

inductive ByteOrder where
  | big
  | little
  deriving DecidableEq

namespace Utf16

def unit (order : ByteOrder) (a b : UInt8) : Nat :=
  match order with
  | .big => a.toNat * 256 + b.toNat
  | .little => b.toNat * 256 + a.toNat

def units? (order : ByteOrder) : Bytes → Option (List Nat)
  | [] => some []
  | [_] => none
  | a :: b :: rest => (units? order rest).map (unit order a b :: ·)

/-- Joins each high surrogate with a low one right after it. -/
def points : List Nat → Text
  | [] => []
  | [u] => [CodePoint.ofNat u]
  | u :: v :: rest =>
    if 0xD800 ≤ u ∧ u < 0xDC00 ∧ 0xDC00 ≤ v ∧ v < 0xE000 then
      CodePoint.ofNat (0x10000 + (u - 0xD800) * 1024 + (v - 0xDC00)) :: points rest
    else CodePoint.ofNat u :: points (v :: rest)

def decode? (order : ByteOrder) (bytes : Bytes) : Option Text :=
  (units? order bytes).map points

end Utf16

namespace Utf32

def decode? (order : ByteOrder) : Bytes → Option Text
  | [] => some []
  | a :: b :: c :: d :: rest =>
    let n := match order with
      | .big => ((a.toNat * 256 + b.toNat) * 256 + c.toNat) * 256 + d.toNat
      | .little => ((d.toNat * 256 + c.toNat) * 256 + b.toNat) * 256 + a.toNat
    match CodePoint.ofNat? n, decode? order rest with
    | some p, some t => some (p :: t)
    | _, _ => none
  | _ => none

end Utf32

inductive Encoding where
  | utf8
  | utf16 (order : ByteOrder)
  | utf32 (order : ByteOrder)
  deriving DecidableEq

namespace Encoding

/-- A byte order mark decides, else the zero bytes among the first four: a document begins in ASCII.
-/
def detect (bytes : Bytes) : Encoding × Bytes :=
  match bytes with
  | 0x00 :: 0x00 :: 0xFE :: 0xFF :: rest => (.utf32 .big, rest)
  | 0xFF :: 0xFE :: 0x00 :: 0x00 :: rest => (.utf32 .little, rest)
  | 0xFE :: 0xFF :: rest => (.utf16 .big, rest)
  | 0xFF :: 0xFE :: rest => (.utf16 .little, rest)
  | 0xEF :: 0xBB :: 0xBF :: rest => (.utf8, rest)
  | a :: b :: c :: d :: _ =>
    if a = 0 then (if b = 0 then .utf32 .big else .utf16 .big, bytes)
    else if b = 0 then (if c = 0 ∧ d = 0 then .utf32 .little else .utf16 .little, bytes)
    else (.utf8, bytes)
  | [a, b] =>
    if a = 0 then (.utf16 .big, bytes)
    else if b = 0 then (.utf16 .little, bytes)
    else (.utf8, bytes)
  | _ => (.utf8, bytes)

def read? (bytes : Bytes) : Option Text :=
  match detect bytes with
  | (.utf8, rest) => Utf8.decode? .allowed rest
  | (.utf16 order, rest) => Utf16.decode? order rest
  | (.utf32 order, rest) => Utf32.decode? order rest

end Encoding

end BearerGate
