import BearerGate.Text

namespace BearerGate.Punycode

def digit (n : Nat) : CodePoint := .ofNat (if n < 26 then 0x61 + n else 0x16 + n)

/-- The least digit at place `k` that does not end a number. -/
def threshold (bias k : Nat) : Nat :=
  if k ≤ bias then 1 else if bias + 26 ≤ k then 26 else k - bias

theorem threshold_pos (bias k : Nat) : 0 < threshold bias k := by
  unfold threshold
  split <;> (try split) <;> omega

def digits (bias k q : Nat) : Text :=
  if q < threshold bias k then [digit q]
  else
    digit (threshold bias k + (q - threshold bias k) % (36 - threshold bias k)) ::
      digits bias (k + 36) ((q - threshold bias k) / (36 - threshold bias k))
termination_by q
decreasing_by
  have h := threshold_pos bias k
  exact Nat.lt_of_le_of_lt (Nat.div_le_self _ _) (by omega)

def shrink (count delta : Nat) : Nat × Nat :=
  if 455 < delta then shrink (count + 36) (delta / 35) else (count, delta)
termination_by delta
decreasing_by exact Nat.div_lt_self (by omega) (by omega)

/-- The bias after a difference that brought the label to `points` code points. -/
def adapt (delta points : Nat) (first : Bool) : Nat :=
  let delta := if first then delta / 700 else delta / 2
  let (count, rest) := shrink 0 (delta + delta / points)
  count + 36 * rest / (rest + 38)

structure Encoder where
  delta : Nat
  bias : Nat
  done : Nat
  output : Text

def Encoder.visit (basic m : Nat) (s : Encoder) (c : CodePoint) : Encoder :=
  if c.val < m then { s with delta := s.delta + 1 }
  else if c.val = m then
    { delta := 0
      bias := adapt s.delta (s.done + 1) (s.done == basic)
      done := s.done + 1
      output := s.output ++ digits s.bias 36 s.delta }
  else s

/-- Writes the code points `m` of the label one value after the other, from `n` on. -/
def Encoder.pass (label : Text) (basic : Nat) : (n : Nat) → Encoder → List Nat → Encoder
  | _, s, [] => s
  | n, s, m :: rest =>
    let start := { s with delta := s.delta + (m - n) * (s.done + 1) }
    let swept := label.foldl (visit basic m) start
    pass label basic (m + 1) { swept with delta := swept.delta + 1 } rest

def encode (label : Text) : Text :=
  let basic := label.filter (·.val < 0x80)
  let others := ((label.filter (0x80 ≤ ·.val)).map (·.val)).eraseDups.mergeSort
  let front := if basic.isEmpty then [] else basic ++ Text.ofString "-"
  (Encoder.pass label basic.length 0x80 ⟨0, 72, basic.length, front⟩ others).output

end BearerGate.Punycode
