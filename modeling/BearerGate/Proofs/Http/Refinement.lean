import BearerGate.Proofs.Gate.Accounting
import BearerGate.Proofs.Http.Rendering

namespace BearerGate

def Request.AsksIdentity (r : Request) : Prop :=
  r.method = Text.ofString "GET" ∧ Route.ofPath? r.path = some .me

instance Request.decideAsksIdentity (r : Request) : Decidable r.AsksIdentity :=
  inferInstanceAs (Decidable (_ ∧ _))

namespace Service

section Step

variable {s : Service} {w : World} {r : Request}

end Step

section Run

variable {s : Service} {w : World} {events : List Event}

theorem worldAt_succ {start : World} {i : Nat} {e : Event} (h : events[i]? = some e) :
    s.worldAt start events (i + 1) = (s.handle (s.worldAt start events i) e).1 := by
  induction events generalizing start i with
  | nil => simp at h
  | cons d rest ih =>
    cases i with
    | zero =>
      obtain rfl : d = e := by simpa using h
      rfl
    | succ i => exact ih (by simpa using h)

end Run

namespace Sample

end Sample

end Service

end BearerGate
