import BearerGate.Table
import BearerGate.Text.Blank

namespace BearerGate.EnvFile

def isNewline (c : CodePoint) : Bool := c == '\n'

/-- A blank that ends no line. -/
def isLineBlank (c : CodePoint) : Bool := c.isBlank && !isNewline c

def skipBlanks (s : Text) : Text := s.dropWhile isLineBlank

def normalizeLines : Text → Text
  | [] => []
  | [c] => if c = '\r' then Text.ofString "\n" else [c]
  | c :: d :: rest =>
    if c = '\r' then
      if d = '\n' then '\n' :: normalizeLines rest else '\n' :: normalizeLines (d :: rest)
    else c :: normalizeLines (d :: rest)

def nextLine (s : Text) : Text := (s.dropWhile (!isNewline ·)).drop 1

def skipExport (s : Text) : Text :=
  match (Text.ofString "export").isPrefixOf? s with
  | some (c :: rest) => if isLineBlank c then skipBlanks (c :: rest) else s
  | _ => s

/-- A name, quoted or bare, and the text after it. A line may also hold a comment alone; what is no
name is given back. -/
def readName (s : Text) : Except Text (Option Text × Text) :=
  match s with
  | [] => .error s
  | c :: rest =>
    if c = '#' then .ok (none, s)
    else if c = .apostrophe then
      match Text.cut? CodePoint.apostrophe rest with
      | some (d :: ds, rest') => .ok (some (d :: ds), rest')
      | _ => .error s
    else
      let stops (c : CodePoint) : Bool := c == '=' || c == '#' || c.isBlank
      match s.takeWhile (!stops ·) with
      | [] => .error s
      | name => .ok (some name, s.dropWhile (!stops ·))

/-- The index of the first quote that no backslash stands before. -/
def firstBareQuote (quote : CodePoint) : (escaped : Bool) → (index : Nat) → Text → Option Nat
  | _, _, [] => none
  | escaped, i, c :: rest =>
    if c = quote ∧ escaped = false then some i
    else firstBareQuote quote (c == .backslash) (i + 1) rest

def lastQuote (quote : CodePoint) (s : Text) : Option Nat :=
  (Text.cutLast? quote s).map fun (before, _) => before.length

/-- What a backslash and this code point stand for in a quoted value. -/
def escape? (quote c : CodePoint) : Option CodePoint :=
  if c = .backslash ∨ c = .apostrophe then some c
  else if quote = .apostrophe then none
  else match c.val with
    | 0x22 => some c
    | 0x61 => some (.ofNat 0x07)
    | 0x62 => some (.ofNat 0x08)
    | 0x66 => some (.ofNat 0x0C)
    | 0x6E => some (.ofNat 0x0A)
    | 0x72 => some (.ofNat 0x0D)
    | 0x74 => some (.ofNat 0x09)
    | 0x76 => some (.ofNat 0x0B)
    | _ => none

def unescape (quote : CodePoint) : Text → Text
  | [] => []
  | [c] => [c]
  | c :: d :: rest =>
    if c = .backslash then
      match escape? quote d with
      | some e => e :: unescape quote rest
      | none => c :: unescape quote (d :: rest)
    else c :: unescape quote (d :: rest)

/-- A quoted value ends at the first bare quote, or where there is none at the last quote of all. -/
def readQuoted (quote : CodePoint) (whole s : Text) : Except Text (Text × Text) :=
  match (firstBareQuote quote false 0 s).orElse fun _ => lastQuote quote s with
  | none => .error whole
  | some i => .ok (unescape quote (s.take i), s.drop (i + 1))

def dropComment : Text → Text
  | [] => []
  | c :: rest =>
    if c.isBlank && (rest.dropWhile CodePoint.isBlank).head? == some ('#' : CodePoint) then []
    else c :: dropComment rest

def readValue (s : Text) : Except Text (Text × Text) :=
  match s with
  | [] => .ok ([], [])
  | c :: rest =>
    if c = .apostrophe ∨ c = .quote then readQuoted c s rest
    else
      let line := s.takeWhile (!isNewline ·)
      .ok (Text.trimEnd CodePoint.isBlank (dropComment line), s.dropWhile (!isNewline ·))

def readLineEnd (s : Text) : Except Text Text :=
  let rest := skipBlanks s
  let rest := match rest with
    | c :: _ => if c = '#' then rest.dropWhile (!isNewline ·) else s
    | [] => s
  match skipBlanks rest with
  | [] => .ok []
  | c :: after => if isNewline c then .ok after else .error rest

/-- The value is missing if no equals sign follows the name. -/
def readSetting (s : Text) : Except Text (Option (Text × Option Text) × Text) := do
  let (name, rest) ← readName (skipExport s)
  let rest := skipBlanks rest
  let (value, rest) ← match rest with
    | c :: after =>
      if c = '=' then (readValue (skipBlanks after)).map fun (v, r) => (some v, r)
      else .ok (none, rest)
    | [] => .ok (none, rest)
  let rest ← readLineEnd rest
  return (name.map fun n => (n, value), rest)

/-- The fuel is the length of the text. -/
def readSettings : Nat → Text → List (Text × Option Text)
  | 0, _ => []
  | fuel + 1, s =>
    match s.dropWhile CodePoint.isBlank with
    | [] => []
    | c :: rest =>
      match readSetting (c :: rest) with
      | .ok (some found, rest) => found :: readSettings fuel rest
      | .ok (none, rest) => readSettings fuel rest
      | .error rest => readSettings fuel (nextLine rest)

/-- A name, and a value to use where the name has none. -/
def reference? (s : Text) : Option (Text × Text × Text) :=
  let stops (c : CodePoint) : Bool := c == '}' || c == ':'
  let name := s.takeWhile (!stops ·)
  match s.dropWhile (!stops ·) with
  | [] => none
  | [c] => if c = '}' then some (name, [], []) else none
  | c :: d :: rest =>
    if c = '}' then some (name, [], d :: rest)
    else if d = '-' then
      (Text.cut? ('}' : CodePoint) rest).map fun (value, rest) => (name, value, rest)
    else none

/-- The fuel is the length of the value. -/
def expand (lookup : Text → Option (Option Text)) : Nat → Text → Text
  | 0, s => s
  | _ + 1, [] => []
  | fuel + 1, c :: rest =>
    let plain := c :: expand lookup fuel rest
    match rest with
    | d :: after =>
      if c = '$' ∧ d = '{' then
        match reference? after with
        | some (name, value, rest) =>
          ((lookup name).getD (some value)).getD [] ++ expand lookup fuel rest
        | none => plain
      else plain
    | [] => plain

/-- References are filled in from the settings before and from the environment. -/
def resolve (environment : Table Text) (settings : List (Text × Option Text)) :
    Table (Option Text) :=
  settings.foldl (fun done (name, value) =>
    let lookup (n : Text) : Option (Option Text) :=
      (Table.get? n done).orElse fun _ => (Table.get? n environment).map some
    Table.put name (value.map fun v => expand lookup (v.length + 1) v) done) []

def read (environment : Table Text) (file : Text) : Table (Option Text) :=
  let s := normalizeLines file
  resolve environment (readSettings (s.length + 1) s)

end BearerGate.EnvFile
