import BearerGate.Text.Case
import BearerGate.Proofs.Text.Cuts

namespace BearerGate

namespace CodePoint

def asciiLower (c : CodePoint) : CodePoint :=
  if 0x41 ≤ c.val ∧ c.val ≤ 0x5A then CodePoint.ofNat (c.val + 0x20) else c

theorem val_ofNat {n : Nat} (h : n < 0x110000) : (CodePoint.ofNat n).val = n := Nat.mod_eq_of_lt h

/-- Outside ASCII only the sign of kelvin has its small form in ASCII. -/
theorem lower_eq_iff {c l : CodePoint} (hl : l.val < 0x80) (hk : l.val ≠ 0x6B) :
    c.lower = l ↔ c.asciiLower = l := by
  unfold lower asciiLower
  split
  next => rfl
  next =>
    split
    next h =>
      simp only [Fin.ext_iff, val_ofNat (show c.val + 0x20 < 0x110000 by omega)]
      omega
    next =>
      split
      next h => simp only [Fin.ext_iff, val_ofNat (show 0xFF < 0x110000 by omega)]; omega
      next =>
        split
        next h => simp only [Fin.ext_iff, val_ofNat (show 0xDF < 0x110000 by omega)]; omega
        next =>
          split
          next h =>
            have hv : (ofChar 'k').val = 0x6B := rfl
            simp only [Fin.ext_iff, hv]
            omega
          next =>
            split
            next h => simp only [Fin.ext_iff, val_ofNat (show 0xE5 < 0x110000 by omega)]; omega
            next => rfl

theorem lower_eq_comma_iff {c : CodePoint} :
    c.lower = (',' : CodePoint) ↔ c = (',' : CodePoint) := by
  rw [lower_eq_iff (by decide) (by decide)]
  have hcomma : (ofChar ',').val = 0x2C := rfl
  unfold asciiLower
  split
  next h =>
    simp only [Fin.ext_iff, hcomma, val_ofNat (show c.val + 0x20 < 0x110000 by omega)]
    omega
  next => rfl

theorem not_isBlank {c : CodePoint} (h : 0x40 ≤ c.val ∧ c.val < 0x80 ∨
    0xC0 ≤ c.val ∧ c.val < 0x180 ∨ c.val = 0x1E9E ∨ 0x2100 ≤ c.val ∧ c.val < 0x2200) :
    c.isBlank = false := by
  simp only [isBlank, isSpace, Bool.or_eq_false_iff, Bool.and_eq_false_iff, decide_eq_false_iff_not,
    beq_eq_false_iff_ne]
  omega

theorem isBlank_lower (c : CodePoint) : c.lower.isBlank = c.isBlank := by
  have hsmall : ∀ n, 0x60 ≤ n ∧ n < 0x80 ∨ 0xC0 ≤ n ∧ n < 0x180 → (ofNat n).isBlank = false := by
    intro n hn
    have hval : (ofNat n).val = n := val_ofNat (by omega)
    exact not_isBlank (by omega)
  -- Whatever changes lies in a range of letters before and after.
  unfold lower
  split_ifs with hascii hlatin hy hs hk ha
  · rw [hsmall _ (by omega), not_isBlank (by omega)]
  · rw [hsmall _ (by omega), not_isBlank (by omega)]
  · rw [hsmall _ (by omega), not_isBlank (by omega)]
  · rw [hsmall _ (by omega), not_isBlank (by omega)]
  · rw [not_isBlank (by omega : 0x40 ≤ c.val ∧ c.val < 0x80 ∨ _)]
    rfl
  · rw [hsmall _ (by omega), not_isBlank (by omega)]
  · rfl

end CodePoint

namespace Text

theorem map_eq_iff_of_forall {α β : Type} {f g : α → β} {ys : List β}
    (h : ∀ x, ∀ y ∈ ys, f x = y ↔ g x = y) (xs : List α) : xs.map f = ys ↔ xs.map g = ys := by
  induction xs generalizing ys with
  | nil => rfl
  | cons x xs ih =>
    cases ys with
    | nil => simp
    | cons y ys =>
      have hh := ih fun z w hw => h z w (List.mem_cons_of_mem _ hw)
      simp only [List.map_cons, List.cons.injEq, h x y List.mem_cons_self, hh]

/-- Small letters decide what is a name in ASCII, unless there is a k in it. -/
theorem lower_eq_iff {t name small : Text} (hname : name.map CodePoint.asciiLower = small)
    (hsmall : (small.all fun l => decide (l.val < 0x80 ∧ l.val ≠ 0x6B)) = true) :
    lower t = small ↔ equalsIgnoringAsciiCase t name = true := by
  change t.map CodePoint.lower = small ↔
    (t.map CodePoint.asciiLower == name.map CodePoint.asciiLower) = true
  rw [beq_iff_eq, hname]
  refine map_eq_iff_of_forall (fun c l hl => ?_) t
  have hletter := of_decide_eq_true (List.all_eq_true.mp hsmall l hl)
  exact CodePoint.lower_eq_iff hletter.1 hletter.2

theorem splitOn_comma_lower (t : Text) :
    (lower t).splitOn (',' : CodePoint) = (t.splitOn (',' : CodePoint)).map lower :=
  splitOn_map (fun _ => CodePoint.lower_eq_comma_iff) t

theorem strip_lower (t : Text) : strip (lower t) = lower (strip t) :=
  trim_map CodePoint.isBlank_lower t

end Text

end BearerGate
