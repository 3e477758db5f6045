import BearerGate.Url.Host

namespace BearerGate

/-- No answer to a reference without a host is accepted. -/
structure Target where
  text : Text
  hasHost : Bool
  deriving DecidableEq

namespace Target

def lengthLimit : Nat := 65536

def isControl (c : CodePoint) : Bool := c.val < 0x20 || c.val == 0x7F

def isPathMark : CodePoint → Bool := Percent.isOneOf "!$%&'()*+,/:;=@[\\]^|"
def isQueryMark : CodePoint → Bool := Percent.isOneOf "!$%&'()*+,/:;=?@[\\]^`\x7b|\x7d"
def isFragmentMark : CodePoint → Bool := Percent.isOneOf "!#$%&'()*+,/:;=?@[\\]^\x7b|\x7d"
def isUserMark : CodePoint → Bool := Percent.isOneOf "!$%&'()*+,:"

def resolveDots (path : Text) : Text :=
  let step (out : List Text) (segment : Text) : List Text :=
    if segment = Text.ofString "." then out
    else if segment = Text.ofString ".." then (if out = [[]] then out else out.dropLast)
    else out ++ [segment]
  (Text.ofString "/").intercalate ((path.splitOn ('/' : CodePoint)).foldl step [])

def upTo (stop : CodePoint → Bool) (t : Text) : Text × Text :=
  (t.takeWhile (!stop ·), t.dropWhile (!stop ·))

def behind (mark : CodePoint) (t : Text) : Option Text :=
  match t with
  | [] => none
  | c :: rest => if c = mark then some rest else none

def bracketed? (t : Text) : Option (Text × Text) :=
  if t.head? = some ('[' : CodePoint) then
    (Text.cutLast? (']' : CodePoint) t).map fun (a, b) => (a ++ Text.ofString "]", b)
  else none

/-- The number given behind a host; the usual one, 443, counts as none. -/
def hostNumber? (t : Text) : Option (Option Int) :=
  let digits := (behind ':' t).getD t
  if digits.isEmpty then some none
  else match Text.toInt? digits with
    | none => none
    | some n => some (if n = 443 then none else some n)

def ofText? (url : Text) : Option Target :=
  if lengthLimit < url.length ∨ url.any isControl then none
  else
    let rest := Text.dropHead (Text.ofString "https://") url
    let (authority, rest) := upTo (Percent.isOneOf "/?#") rest
    let (path, rest) := upTo (Percent.isOneOf "?#") rest
    let query := behind '?' (upTo (Percent.isOneOf "#") rest).1
    let fragment := behind '#' (upTo (Percent.isOneOf "#") rest).2
    let (user, place) := (Text.cutLast? ('@' : CodePoint) authority).getD ([], authority)
    let (host, rest) := (bracketed? place).getD (upTo (Percent.isOneOf ":@") place)
    match Host.normalize? host, hostNumber? rest with
    | some host, some number =>
      let path := Percent.encodeAround isPathMark (resolveDots path)
      let query := match query with
        | none => []
        | some q => '?' :: Percent.encodeAround isQueryMark q
      if host.isEmpty then
        some ⟨'/' :: (path ++ query).dropWhile (· = '/'), false⟩
      else
        let user :=
          if user.isEmpty then [] else Percent.encodeAround isUserMark user ++ Text.ofString "@"
        let host :=
          if host.contains ':' then Text.ofString "[" ++ host ++ Text.ofString "]" else host
        let number := match number with
          | none => []
          | some n => ':' :: Text.ofInt n
        let fragment := match fragment with
          | none => []
          | some f => '#' :: Percent.encodeAround isFragmentMark f
        some ⟨Text.ofString "https://" ++ user ++ host ++ number ++ path ++ query ++ fragment, true⟩
    | _, _ => none

end Target

end BearerGate
