import BearerGate.Gate

namespace BearerGate

structure World where
  clock : Clock
  keyServer : KeyServer
  cache : Cache
  deriving DecidableEq

def Clock.advance (clock : Clock) (now : Int) (elapsed : Rat) : Clock :=
  ⟨clock.now + now, clock.elapsed + elapsed⟩

inductive Step where
  | keyServer (server : KeyServer)
  | advance (now : Int) (elapsed : Rat)
  | authenticate (authorization : Option Text)
  | fetch (force : Bool)
  | fetchCancelled (force : Bool)
  | fresh

inductive Answer where
  | done
  | claims (c : Claims)
  | keys (k : KeySet)
  | fresh (b : Bool)
  deriving DecidableEq

structure Observation where
  result : Except Failure Answer
  requests : List Text
  journal : Journal
  deriving DecidableEq

namespace Gate

def observe {α : Type} (w : World) (answer : α → Answer) (run : Run α) : World × Observation :=
  ({ w with cache := run.cache }, ⟨run.result.map answer, run.requests, run.journal⟩)

def step (g : Gate) (w : World) : Step → World × Observation
  | .keyServer server => ({ w with keyServer := server }, ⟨.ok .done, [], []⟩)
  | .advance now elapsed => ({ w with clock := w.clock.advance now elapsed }, ⟨.ok .done, [], []⟩)
  | .authenticate authorization =>
    observe w .claims (g.authenticate w.clock w.keyServer authorization w.cache)
  | .fetch force => observe w .keys (g.fetch w.clock w.keyServer force w.cache)
  | .fetchCancelled force => observe w .keys (g.fetchCancelled w.clock force w.cache)
  | .fresh => (w, ⟨.ok (.fresh (g.fresh? w.clock w.cache).isSome), [], []⟩)

def run (g : Gate) : World → List Step → World × List Observation
  | w, [] => (w, [])
  | w, s :: rest =>
    let (w, seen) := g.step w s
    let (w, all) := g.run w rest
    (w, seen :: all)

end Gate

end BearerGate
