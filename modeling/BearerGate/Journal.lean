import BearerGate.Text

namespace BearerGate

inductive Level where
  | debug
  | info
  | warning
  | error
  deriving DecidableEq

namespace Level

def name : Level → String
  | debug => "DEBUG"
  | info => "INFO"
  | warning => "WARNING"
  | error => "ERROR"

end Level

inductive Component where
  | keySet
  | gate
  | service
  deriving DecidableEq

structure Entry where
  level : Level
  component : Component
  text : Text
  deriving DecidableEq

abbrev Journal := List Entry

end BearerGate
