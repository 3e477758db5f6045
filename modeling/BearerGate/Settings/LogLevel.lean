import BearerGate.Text.Case

namespace BearerGate.LogLevel

def thresholds : List (Text × Nat) :=
  [("CRITICAL", 50), ("FATAL", 50), ("ERROR", 40), ("WARNING", 30), ("WARN", 30), ("INFO", 20),
    ("DEBUG", 10), ("NOTSET", 0)].map fun (name, n) => (Text.ofString name, n)

inductive NameError where
  | unknown
  | layout
  | styles
  deriving DecidableEq

def threshold (name : Text) : Except NameError Nat :=
  let name := Text.upper name
  match thresholds.find? fun (known, _) => known == name with
  | some (_, n) => .ok n
  | none =>
    if name = Text.ofString "BASIC_FORMAT" then .error .layout
    else if name = Text.ofString "_STYLES" then .error .styles
    else .error .unknown

end BearerGate.LogLevel
