import BearerGate.Json

namespace BearerGate.Json

def hexDigit (n : Nat) : CodePoint := CodePoint.ofNat (if n < 10 then 0x30 + n else 0x57 + n)

def escape (c : CodePoint) : Text :=
  match c.val with
  | 0x22 | 0x5C => [.backslash, c]
  | 0x08 => [.backslash, 'b']
  | 0x0C => [.backslash, 'f']
  | 0x0A => [.backslash, 'n']
  | 0x0D => [.backslash, 'r']
  | 0x09 => [.backslash, 't']
  | n =>
    if n < 0x20 then [.backslash, 'u', '0', '0', hexDigit (n / 16), hexDigit (n % 16)] else [c]

def writeString (t : Text) : Text := .quote :: t.flatMap escape ++ [.quote]

def writeNumber : Number → Text
  | .real .nan => Text.ofString "NaN"
  | .real (.infinite false) => Text.ofString "Infinity"
  | .real (.infinite true) => Text.ofString "-Infinity"
  | n => n.text

mutual

def write : Json → Text
  | .null => Text.ofString "null"
  | .bool b => Text.ofString (if b then "true" else "false")
  | .num n => writeNumber n
  | .str t => writeString t
  | .arr items => Text.ofString "[" ++ writeItems items ++ Text.ofString "]"
  | .obj members => Text.ofString "\x7b" ++ writeMembers members ++ Text.ofString "\x7d"

def writeItems : List Json → Text
  | [] => []
  | [v] => write v
  | v :: w :: rest => write v ++ Text.ofString "," ++ writeItems (w :: rest)

def writeMembers : List (Text × Json) → Text
  | [] => []
  | [(k, v)] => writeString k ++ Text.ofString ":" ++ write v
  | (k, v) :: m :: rest =>
    writeString k ++ Text.ofString ":" ++ write v ++ Text.ofString "," ++ writeMembers (m :: rest)

end

end BearerGate.Json
