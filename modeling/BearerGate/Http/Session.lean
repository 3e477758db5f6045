import BearerGate.Http.Service

namespace BearerGate

inductive Event where
  | keyServer (server : KeyServer)
  | advance (now : Int) (elapsed : Rat)
  | request (r : Request)

/-- The client that key sets are asked for with. -/
structure Client where
  timeout : Binary64
  isClosed : Bool
  deriving DecidableEq

namespace Client

def opened (timeout : Binary64) : Client := ⟨timeout, false⟩

def close (c : Client) : Client := { c with isClosed := true }

end Client

/-- A service from its start to its stop, with its client while it serves and as it is left. -/
structure Lifespan where
  client : Client
  startNotes : Journal
  replies : List (Option Reply)
  left : Client
  stopNotes : Journal

namespace Service

def handle (s : Service) (w : World) : Event → World × Option Reply
  | .keyServer server => ({ w with keyServer := server }, none)
  | .advance now elapsed => ({ w with clock := w.clock.advance now elapsed }, none)
  | .request r =>
    let (w, reply) := s.respond w r
    (w, some reply)

def run (s : Service) : World → List Event → World × List (Option Reply)
  | w, [] => (w, [])
  | w, e :: rest =>
    let (w, reply) := s.handle w e
    let (w, all) := s.run w rest
    (w, reply :: all)

def live (s : Service) (w : World) (events : List Event) : Lifespan :=
  let client := Client.opened s.settings.timeout
  { client := client
    startNotes := s.startNotes
    replies := (s.run w events).2
    left := client.close
    stopNotes := s.stopNotes }

end Service

end BearerGate
