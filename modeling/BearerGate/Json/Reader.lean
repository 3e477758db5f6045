import BearerGate.Json
import BearerGate.Text.Digits

namespace BearerGate.Json

inductive ReadError where
  | malformed
  | tooDeep
  deriving DecidableEq

/-- How many lists and objects may stand inside each other. The bound stands for the recursion limit
of the running service less the stack of the caller, which varies: 993 are read at module level, 942
from fifty frames deeper. -/
def nestingLimit : Nat := 990

def isGap (c : CodePoint) : Bool := c == ' ' || c == '\t' || c == '\n' || c == '\r'

def skipGaps (s : Text) : Text := s.dropWhile isGap

abbrev Reading := Except ReadError (Json × Text)

def hex4? : Text → Option (Nat × Text)
  | a :: b :: c :: d :: rest =>
    match a.hexDigit?, b.hexDigit?, c.hexDigit?, d.hexDigit? with
    | some a, some b, some c, some d => some (((a * 16 + b) * 16 + c) * 16 + d, rest)
    | _, _, _, _ => none
  | _ => none

def lowSurrogate? : Text → Option (Nat × Text)
  | a :: b :: rest =>
    if a = .backslash ∧ b = 'u' then
      match hex4? rest with
      | some (n, rest') => if 0xDC00 ≤ n ∧ n < 0xE000 then some (n, rest') else none
      | none => none
    else none
  | _ => none

/-- What an escape writes. A high surrogate takes the low one right after it along. -/
def escaped? : Text → Option (CodePoint × Text)
  | [] => none
  | c :: rest =>
    match c.val with
    | 0x22 | 0x5C | 0x2F => some (c, rest)
    | 0x62 => some (.ofNat 0x08, rest)
    | 0x66 => some (.ofNat 0x0C, rest)
    | 0x6E => some (.ofNat 0x0A, rest)
    | 0x72 => some (.ofNat 0x0D, rest)
    | 0x74 => some (.ofNat 0x09, rest)
    | 0x75 =>
      match hex4? rest with
      | none => none
      | some (n, rest') =>
        if 0xD800 ≤ n ∧ n < 0xDC00 then
          match lowSurrogate? rest' with
          | some (l, rest'') =>
            some (CodePoint.ofNat (0x10000 + (n - 0xD800) * 1024 + (l - 0xDC00)), rest'')
          | none => some (CodePoint.ofNat n, rest')
        else some (CodePoint.ofNat n, rest')
    | _ => none

/-- The rest of a string. The fuel is the length of the text. -/
def readChars : Nat → Text → Except ReadError (Text × Text)
  | 0, _ => .error .malformed
  | _ + 1, [] => .error .malformed
  | fuel + 1, c :: rest =>
    if c = .quote then .ok ([], rest)
    else if c = .backslash then
      match escaped? rest with
      | none => .error .malformed
      | some (p, rest') =>
        match readChars fuel rest' with
        | .ok (t, rest'') => .ok (p :: t, rest'')
        | .error e => .error e
    else if c.val < 0x20 then .error .malformed
    else
      match readChars fuel rest with
      | .ok (t, rest') => .ok (c :: t, rest')
      | .error e => .error e

def readString : Text → Except ReadError (Text × Text)
  | [] => .error .malformed
  | c :: rest => if c = .quote then readChars (rest.length + 1) rest else .error .malformed

def takeDigits (s : Text) : List Nat × Text :=
  ((s.takeWhile CodePoint.isAsciiDigit).map (·.val - 0x30), s.dropWhile CodePoint.isAsciiDigit)

def takeFraction (s : Text) : List Nat × Text :=
  match s with
  | [] => ([], s)
  | c :: rest =>
    if c = '.' then
      match takeDigits rest with
      | ([], _) => ([], s)
      | found => found
    else ([], s)

def takeExponent (s : Text) : Option Int × Text :=
  match s with
  | [] => (none, s)
  | c :: rest =>
    if c = 'e' ∨ c = 'E' then
      let (negative, digits) := Text.sign rest
      match takeDigits digits with
      | ([], _) => (none, s)
      | (ds, rest') => (some (Text.signed negative (Text.valueOfDigits ds)), rest')
    else (none, s)

/-- Without fraction and exponent a number is whole. -/
def readUnsigned (negative : Bool) (s : Text) : Reading :=
  let whole : Option (List Nat × Text) := match s with
    | [] => none
    | c :: rest =>
      if c = '0' then some ([0], rest)
      else if c.isAsciiDigit then some (takeDigits (c :: rest))
      else none
  match whole with
  | none => .error .malformed
  | some (ds, rest) =>
    let (fs, rest) := takeFraction rest
    let (ex, rest) := takeExponent rest
    if fs.isEmpty && ex.isNone then
      if ds.length ≤ Text.digitLimit then
        .ok (.num (.whole (Text.signed negative (Text.valueOfDigits ds))), rest)
      else .error .malformed
    else
      let digits := Text.valueOfDigits (ds ++ fs)
      let value := Binary64.ofDecimal negative digits (ex.getD 0 - fs.length)
      .ok (.num (.real value), rest)

def words : List (Text × Json) :=
  [(Text.ofString "null", .null), (Text.ofString "true", .bool true),
    (Text.ofString "false", .bool false), (Text.ofString "NaN", .num (.real .nan)),
    (Text.ofString "Infinity", .num (.real (.infinite false))),
    (Text.ofString "-Infinity", .num (.real (.infinite true)))]

def readWordOrNumber (s : Text) : Reading :=
  match words.findSome? fun (w, v) => (w.isPrefixOf? s).map fun rest => (v, rest) with
  | some found => .ok found
  | none =>
    match s with
    | [] => .error .malformed
    | c :: rest => if c = '-' then readUnsigned true rest else readUnsigned false (c :: rest)

/-- The fuel is the length of the text. -/
def readItems (item : Text → Reading) : Nat → Text → Except ReadError (List Json × Text)
  | 0, _ => .error .malformed
  | fuel + 1, s =>
    match item s with
    | .error e => .error e
    | .ok (v, rest) =>
      match skipGaps rest with
      | [] => .error .malformed
      | c :: rest =>
        if c = ']' then .ok ([v], rest)
        else if c = ',' then
          match readItems item fuel (skipGaps rest) with
          | .ok (vs, rest) => .ok (v :: vs, rest)
          | .error e => .error e
        else .error .malformed

def readMembers (item : Text → Reading) : Nat → Text → Except ReadError (Members × Text)
  | 0, _ => .error .malformed
  | fuel + 1, s =>
    match readString s with
    | .error e => .error e
    | .ok (name, rest) =>
      match skipGaps rest with
      | [] => .error .malformed
      | c :: rest =>
        if c = ':' then
          match item (skipGaps rest) with
          | .error e => .error e
          | .ok (v, rest) =>
            match skipGaps rest with
            | [] => .error .malformed
            | c :: rest =>
              if c = '}' then .ok ([(name, v)], rest)
              else if c = ',' then
                match readMembers item fuel (skipGaps rest) with
                | .ok (ms, rest) => .ok ((name, v) :: ms, rest)
                | .error e => .error e
              else .error .malformed
        else .error .malformed

def readList (item : Text → Reading) (s : Text) : Reading :=
  match skipGaps s with
  | [] => .error .malformed
  | c :: rest =>
    if c = ']' then .ok (.arr [], rest)
    else (readItems item (rest.length + 1) (c :: rest)).map fun (vs, rest) => (.arr vs, rest)

def readObject (item : Text → Reading) (s : Text) : Reading :=
  match skipGaps s with
  | [] => .error .malformed
  | c :: rest =>
    if c = '}' then .ok (.obj [], rest)
    else (readMembers item (rest.length + 1) (c :: rest)).map fun (ms, rest) =>
      (.obj (Table.ofPairs ms), rest)

/-- A value with at most `depth` lists and objects inside each other. -/
def readValue : (depth : Nat) → Text → Reading
  | 0, s =>
    match s with
    | [] => .error .malformed
    | c :: rest =>
      if c = '[' ∨ c = '{' then .error .tooDeep
      else if c = .quote then (readString (c :: rest)).map fun (t, rest) => (.str t, rest)
      else readWordOrNumber (c :: rest)
  | depth + 1, s =>
    match s with
    | [] => .error .malformed
    | c :: rest =>
      if c = '[' then readList (readValue depth) rest
      else if c = '{' then readObject (readValue depth) rest
      else if c = .quote then (readString (c :: rest)).map fun (t, rest) => (.str t, rest)
      else readWordOrNumber (c :: rest)

/-- A document. Beyond the standard it may hold `NaN`, infinities and lone surrogates in escapes. -/
def read (s : Text) : Except ReadError Json :=
  match readValue nestingLimit (skipGaps s) with
  | .error e => .error e
  | .ok (v, rest) => if (skipGaps rest).isEmpty then .ok v else .error .malformed

end BearerGate.Json
