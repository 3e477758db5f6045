import BearerGate.Json.Reader
import BearerGate.KeySet
import BearerGate.Rejection
import BearerGate.Text.Encoding

namespace BearerGate

inductive DownloadFailure where
  | timedOut
  | transport
  /-- What came could not be taken for an answer. -/
  | invalid
  /-- Anything else, by its name. -/
  | unforeseen (kind : Text)
  deriving DecidableEq

namespace DownloadFailure

/-- The failures of the transport: `HTTPError` and every class below it. -/
def transportClasses : List Text :=
  ["HTTPError", "RequestError", "TransportError", "TimeoutException", "ConnectTimeout",
    "ReadTimeout", "WriteTimeout", "PoolTimeout", "NetworkError", "ConnectError", "ReadError",
    "WriteError", "CloseError", "ProtocolError", "LocalProtocolError", "RemoteProtocolError",
    "ProxyError", "UnsupportedProtocol", "DecodingError", "TooManyRedirects",
    "HTTPStatusError"].map Text.ofString

/-- What a failure of this class counts as. -/
def ofClass (name : Text) : DownloadFailure :=
  if name = Text.ofString "TimeoutError" then .timedOut
  else if transportClasses.contains name then .transport
  else if name = Text.ofString "ValueError" ∨ name = Text.ofString "UnicodeError" then .invalid
  else .unforeseen name

end DownloadFailure

inductive KeyServer where
  | answers (status : Int) (body : Bytes)
  | hangs
  | fails (cause : DownloadFailure)
  deriving DecidableEq

inductive BodyError where
  | invalid
  | tooDeep
  deriving DecidableEq

def KeySet.ofBody (body : Bytes) : Except BodyError KeySet :=
  match Encoding.read? body with
  | none => .error .invalid
  | some text =>
    match Json.read text with
    | .error .malformed => .error .invalid
    | .error .tooDeep => .error .tooDeep
    | .ok document =>
      match KeySet.ofJson document with
      | .error _ => .error .invalid
      | .ok keys => .ok keys

inductive Ending where
  | keys (keys : KeySet)
  | timedOut
  | refused
  | invalid
  | faulted (f : Fault)

namespace KeyServer

def isSuccess (status : Int) : Bool := 200 ≤ status && status ≤ 299

end KeyServer

end BearerGate
