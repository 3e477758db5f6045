import BearerGate.Text

namespace BearerGate

structure Issuer where
  audience : Text
  domain : Text
  deriving DecidableEq

namespace Issuer

/-- The `iss` claim of its tokens. -/
def url (i : Issuer) : Text := Text.ofString "https://" ++ i.domain ++ Text.ofString "/"

def keySetUrl (i : Issuer) : Text :=
  Text.ofString "https://" ++ i.domain ++ Text.ofString "/.well-known/jwks.json"

theorem url_injective {i j : Issuer} (h : i.url = j.url) : i.domain = j.domain := by
  simp only [url, List.append_assoc, List.append_cancel_left_eq] at h
  exact List.append_cancel_right h

theorem keySetUrl_injective {i j : Issuer} (h : i.keySetUrl = j.keySetUrl) :
    i.domain = j.domain := by
  simp only [keySetUrl, List.append_assoc, List.append_cancel_left_eq] at h
  exact List.append_cancel_right h

end Issuer

end BearerGate
