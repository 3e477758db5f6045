import BearerGate.Text.Case
import BearerGate.Text.Digits
import BearerGate.Url.Percent
import BearerGate.Url.Punycode

namespace BearerGate.Host

def digitRuns (t : Text) : List Nat :=
  (t.splitOnP (fun c => !c.isAsciiDigit)).map List.length

/-- Whether a name looks like four numbers with any code point between them, a digit among others.
-/
def looksLikeIpv4 (t : Text) : Bool :=
  let runs := digitRuns t
  runs.length ≤ 4 && runs.all (0 < ·) && 4 ≤ runs.foldl (fun k n => k + 1 + (n - 1) / 2) 0

def isOctet (t : Text) : Bool :=
  !t.isEmpty && t.length ≤ 3 && t.all CodePoint.isAsciiDigit &&
    (t.length == 1 || t.head? != some ('0' : CodePoint)) &&
    Text.valueOfDigits (t.map (·.val - 0x30)) ≤ 255

def isIpv4 (t : Text) : Bool :=
  let octets := t.splitOn ('.' : CodePoint)
  octets.length == 4 && octets.all isOctet

def isHextet (t : Text) : Bool :=
  !t.isEmpty && t.length ≤ 4 && t.all (·.hexDigit?.isSome)

/-- The last two groups may be written as an address of four numbers, and one run left out. -/
def isIpv6 (t : Text) : Bool :=
  let unzoned := match Text.cut? ('%' : CodePoint) t with
    | none => some t
    | some (address, zone) => if zone.isEmpty || zone.contains '%' then none else some address
  match unzoned with
  | none => false
  | some address =>
    let zero := Text.ofString "0"
    let groups := address.splitOn (':' : CodePoint)
    let last := groups.getLastD []
    let dotted := last.contains '.'
    let groups := if dotted then groups.dropLast ++ [zero, zero] else groups
    let inner := (groups.drop 1).dropLast
    let gaps := (inner.filter List.isEmpty).length
    let atFront := (groups.headD []).isEmpty
    let atEnd := (groups.getLastD []).isEmpty
    let full := (groups.filter (!·.isEmpty)).length
    (!dotted || isIpv4 last) && 3 ≤ groups.length && groups.length ≤ 9 && gaps ≤ 1 &&
      (groups.filter (!·.isEmpty)).all isHextet &&
      (if gaps == 1 then
        (!atFront || (inner.headD zero).isEmpty) && (!atEnd || (inner.getLastD zero).isEmpty) &&
          full ≤ 7
      else groups.length == 8 && !atFront && !atEnd)

/-- The small form of a capital of the scripts in `isLabelPoint`. Capital sigma, whose form depends
on its place, and dotted I, whose form is two code points, stay as they are. -/
def small (c : CodePoint) : CodePoint :=
  let v := c.val
  let beforeEven := (0x139 ≤ v && v < 0x149) || (0x179 ≤ v && v < 0x17F)
  let beforeOdd :=
    (0x100 ≤ v && v < 0x130) || (0x132 ≤ v && v < 0x138) || (0x14A ≤ v && v < 0x178)
  if (beforeEven && v % 2 == 1) || (beforeOdd && v % 2 == 0) then .ofNat (v + 1)
  else if v == 0x386 then .ofNat 0x3AC
  else if 0x388 ≤ v && v ≤ 0x38A then .ofNat (v + 0x25)
  else if v == 0x38C then .ofNat 0x3CC
  else if v == 0x38E || v == 0x38F then .ofNat (v + 0x3F)
  else if (0x391 ≤ v && v ≤ 0x3A1) || (0x3A4 ≤ v && v ≤ 0x3AB) then .ofNat (v + 0x20)
  else if v == 0x2126 then .ofNat 0x3C9
  else if 0x400 ≤ v && v ≤ 0x40F then .ofNat (v + 0x50)
  else if 0x410 ≤ v && v ≤ 0x42F then .ofNat (v + 0x20)
  else c.lower

/-- What a label may hold, wherever it stands: hyphens, ASCII digits, small letters of five blocks,
kana, Han and Hangul. -/
def isLabelPoint (c : CodePoint) : Bool :=
  let v := c.val
  let latin := (0xDF ≤ v && v < 0x17F) && !([0xF7, 0x130, 0x133, 0x140, 0x149].contains v)
  let greek := v == 0x390 || (0x3AC ≤ v && v ≤ 0x3CE)
  let cyrillic := 0x430 ≤ v && v ≤ 0x45F
  let kana := (0x3041 ≤ v && v ≤ 0x3096) || (0x30A1 ≤ v && v ≤ 0x30FA) || v == 0x30FC
  let han := v == 0x3005 || (0x3400 ≤ v && v < 0x4DC0) || (0x4E00 ≤ v && v < 0xA000)
  let hangul := 0xAC00 ≤ v && v ≤ 0xD7A3
  c.isAsciiDigit || (0x61 ≤ v && v ≤ 0x7A) || c == '-' ||
    latin || greek || cyrillic || kana || han || hangul

/-- No hyphen ends a label or stands in both its third and fourth place. -/
def label? (label : Text) : Option Text :=
  let hyphen : CodePoint := '-'
  if label.isEmpty || label.head? == some hyphen || label.getLast? == some hyphen ||
      (label.drop 2).take 2 == [hyphen, hyphen] || !label.all isLabelPoint then none
  else
    let ascii :=
      if label.all (·.val < 0x80) then label else Text.ofString "xn--" ++ Punycode.encode label
    if ascii.length ≤ 63 then some ascii else none

/-- The ASCII form of a name in small letters. Besides the forbidden names it refuses those that
only the tables of Unicode tell from them: with letters that `isLabelPoint` lacks, or labels encoded
already. -/
def international? (t : Text) : Option Text :=
  let isDot (c : CodePoint) : Bool :=
    c == '.' || c.val == 0x3002 || c.val == 0xFF0E || c.val == 0xFF61
  let labels := t.splitOnP isDot
  let (labels, trailing) :=
    if 1 < labels.length && (labels.getLastD []).isEmpty then (labels.dropLast, true)
    else (labels, false)
  match labels.mapM label? with
  | none => none
  | some ls =>
    let name := (Text.ofString ".").intercalate ls ++ (if trailing then Text.ofString "." else [])
    if name.length ≤ 253 + (if trailing then 1 else 0) then some name else none

def isNameMark : CodePoint → Bool := Percent.isOneOf "!$&'()*+,;=\"`\x7b\x7d%|\\"

def normalize? (host : Text) : Option Text :=
  let bracketed :=
    host.head? == some ('[' : CodePoint) && host.getLast? == some (']' : CodePoint) &&
      2 ≤ host.length
  if host.isEmpty then some []
  else if looksLikeIpv4 host then (if isIpv4 host then some host else none)
  else if bracketed then
    let address := (host.drop 1).dropLast
    if isIpv6 address then some address else none
  else if host.all (·.val < 0x80) then some (Percent.encodeAround isNameMark (Text.lower host))
  else international? (host.map small)

end BearerGate.Host
