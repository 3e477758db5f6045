import BearerGate.Json
import BearerGate.Text.Case
import BearerGate.Text.Digits

namespace BearerGate

inductive Defect where
  | missing
  | frozen
  | textExpected
  | truthUnreadable
  | truthExpected
  | wholeUnreadable
  | wholeTooLong
  | wholeExpected
  | wholeFractional
  | realUnreadable
  | realExpected
  | notFinite
  | listExpected
  | setExpected
  | refused
  deriving DecidableEq

inductive Place where
  | name (t : Text)
  | index (n : Nat)
  deriving DecidableEq

structure FieldError where
  place : List Place
  defect : Defect
  deriving DecidableEq

/-- A value, or everything that is wrong with it. -/
abbrev Checked (α : Type) := Except (List FieldError) α

namespace Checked

/-- Both values, or the errors of both. -/
def both {α β : Type} : Checked α → Checked β → Checked (α × β)
  | .ok a, .ok b => .ok (a, b)
  | .error e, .ok _ => .error e
  | .ok _, .error e => .error e
  | .error e, .error e' => .error (e ++ e')

end Checked

namespace Field

def fail {α : Type} (d : Defect) : Checked α := .error [⟨[], d⟩]

def inside {α : Type} (p : Place) (v : Checked α) : Checked α :=
  v.mapError (List.map fun e => { e with place := p :: e.place })

def text : Json → Checked Text
  | .str t => .ok t
  | _ => fail .textExpected

def optional {α : Type} (read : Json → Checked α) : Json → Checked (Option α)
  | .null => .ok none
  | v => (read v).map some

/-- The items from an index on, or the errors of all of them. -/
def items {α : Type} (read : Json → Checked α) : Nat → List Json → Checked (List α)
  | _, [] => .ok []
  | i, v :: vs =>
    (Checked.both (inside (.index i) (read v)) (items read (i + 1) vs)).map fun (a, as) => a :: as

def textList : Json → Checked (List Text)
  | .arr vs => items text 0 vs
  | _ => fail .listExpected

def falseWords : List Text := ["0", "f", "n", "no", "off", "false"].map Text.ofString

def trueWords : List Text := ["1", "t", "y", "yes", "on", "true"].map Text.ofString

/-- The truth value that a word tells, in any case of its letters. -/
def truthOfText (t : Text) : Checked Bool :=
  if falseWords.any (Text.equalsIgnoringAsciiCase t) then .ok false
  else if trueWords.any (Text.equalsIgnoringAsciiCase t) then .ok true
  else fail .truthUnreadable

def truthOfWhole (n : Int) : Checked Bool :=
  if n = 0 then .ok false else if n = 1 then .ok true else fail .truthUnreadable

def truth : Json → Checked Bool
  | .bool b => .ok b
  | .str t => truthOfText t
  | .num (.whole n) => truthOfWhole n
  | .num (.real (.finite negative m e)) =>
    if Binary64.isWhole m e then truthOfWhole (Binary64.truncate negative m e)
    else fail .truthExpected
  | _ => fail .truthExpected

def dropZeroFraction (t : Text) : Text :=
  match Text.cut? ('.' : CodePoint) t with
  | some (front, zeros) => if zeros.all (· == '0') then front else t
  | none => t

/-- A whole number in ASCII digits, with a sign, single underscores and a fraction of zeros if it
likes. -/
def wholeOfText (t : Text) : Checked Int :=
  let (negative, digits) := Text.sign (dropZeroFraction (Text.trim CodePoint.isSpace t))
  match Text.digitRun? CodePoint.asciiDigit? digits with
  | none => fail .wholeUnreadable
  | some ds =>
    if ds.length ≤ Text.digitLimit then .ok (Text.signed negative (Text.valueOfDigits ds))
    else fail .wholeTooLong

def whole : Json → Checked Int
  | .bool b => .ok (if b then 1 else 0)
  | .str t => wholeOfText t
  | .num (.whole n) => .ok n
  | .num (.real (.finite negative m e)) =>
    if Binary64.isWhole m e then .ok (Binary64.truncate negative m e) else fail .wholeFractional
  | .num (.real _) => fail .notFinite
  | _ => fail .wholeExpected

def realWord? (t : Text) : Option Binary64 :=
  let (negative, word) := Text.sign t
  let isWord (w : String) : Bool := Text.equalsIgnoringAsciiCase word (Text.ofString w)
  if isWord "inf" || isWord "infinity" then some (.infinite negative)
  else if isWord "nan" then some .nan
  else none

def digitsOrNone? (t : Text) : Option (List Nat) :=
  if t.isEmpty then some [] else Text.digitRun? CodePoint.asciiDigit? t

def decimal? (t : Text) : Option Binary64 :=
  let (negative, t) := Text.sign t
  let inNumber (c : CodePoint) : Bool := c != 'e' && c != 'E'
  let (number, ex) := (t.takeWhile inNumber, t.dropWhile inNumber)
  let ex : Option Int := match ex with
    | [] => some 0
    | _ :: rest =>
      let (negative, digits) := Text.sign rest
      (Text.digitRun? CodePoint.asciiDigit? digits).map fun ds =>
        Text.signed negative (Text.valueOfDigits ds)
  let (front, back) := (Text.cut? ('.' : CodePoint) number).getD (number, [])
  match digitsOrNone? front, digitsOrNone? back, ex with
  | some fs, some bs, some ex =>
    if fs.isEmpty && bs.isEmpty then none
    else some (Binary64.ofDecimal negative (Text.valueOfDigits (fs ++ bs)) (ex - bs.length))
  | _, _, _ => none

def realOfText (t : Text) : Checked Binary64 :=
  let t := Text.trim CodePoint.isBlank t
  match realWord? t with
  | some x => .ok x
  | none => match decimal? t with
    | some x => .ok x
    | none => fail .realUnreadable

/-- A whole number beyond the range of the format is refused. -/
def real : Json → Checked Binary64
  | .bool b => .ok (Binary64.ofInt (if b then 1 else 0))
  | .str t => realOfText t
  | .num (.whole n) => match Binary64.ofInt n with
    | .infinite _ => fail .realExpected
    | x => .ok x
  | .num (.real x) => .ok x
  | _ => fail .realExpected

end Field

end BearerGate
