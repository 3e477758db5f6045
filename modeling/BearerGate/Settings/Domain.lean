import BearerGate.Text.Blank

namespace BearerGate.Domain

/-- Blanks, one scheme of each kind and slashes are taken off, in this order and once. -/
def bare (value : Text) : Text :=
  let t := Text.dropHead (Text.ofString "https://") (Text.strip value)
  let t := Text.dropHead (Text.ofString "http://") t
  Text.trimEnd (fun c => c == '/') t

end BearerGate.Domain
