import BearerGate.Base64

namespace BearerGate.Base64

def isLetter (b : UInt8) : Bool := (sextet? b).isSome

def letters (s : Bytes) : Nat := s.countP isLetter

@[simp] theorem letters_nil : letters [] = 0 := rfl

@[simp] theorem letters_append (a b : Bytes) : letters (a ++ b) = letters a + letters b :=
  List.countP_append

theorem letters_cons_of_isLetter {x : UInt8} (h : isLetter x = true) (s : Bytes) :
    letters (x :: s) = letters s + 1 := by
  simp [letters, h]

theorem letters_cons_of_not {x : UInt8} (h : isLetter x = false) (s : Bytes) :
    letters (x :: s) = letters s := by
  simp [letters, h]

theorem not_isLetter_pad : isLetter pad = false := by decide

def IsForeign (b : UInt8) : Prop := b ≠ pad ∧ isLetter b = false

instance (b : UInt8) : Decidable (IsForeign b) :=
  inferInstanceAs (Decidable (b ≠ pad ∧ isLetter b = false))

/-- What stands before and behind some pad of the text. -/
def AtPad (holds : Bytes → Bytes → Prop) (s : Bytes) : Prop :=
  ∃ a b, s = a ++ pad :: b ∧ holds a b

section AtPad

variable {holds : Bytes → Bytes → Prop} {x : UInt8} {s : Bytes}

theorem not_atPad_nil : ¬AtPad holds [] := by
  rintro ⟨a, b, h, _⟩
  simp at h

theorem atPad_cons :
    AtPad holds (x :: s) ↔ (x = pad ∧ holds [] s) ∨ AtPad (fun a b => holds (x :: a) b) s := by
  constructor
  · rintro ⟨a, b, hs, h⟩
    cases a with
    | nil =>
      obtain ⟨rfl, rfl⟩ := List.cons.inj hs
      exact .inl ⟨rfl, h⟩
    | cons y a =>
      obtain ⟨rfl, rfl⟩ := List.cons.inj hs
      exact .inr ⟨a, b, rfl, h⟩
  · rintro (⟨rfl, h⟩ | ⟨a, b, rfl, h⟩)
    · exact ⟨[], s, rfl, h⟩
    · exact ⟨x :: a, b, rfl, h⟩

theorem not_atPad_false : ¬AtPad (fun _ _ => False) s := fun ⟨_, _, _, h⟩ => h

theorem atPad_cons_of_ne (h : x ≠ pad) :
    AtPad holds (x :: s) ↔ AtPad (fun a b => holds (x :: a) b) s := by
  simp [atPad_cons, h]

end AtPad

/-- No group stays open, or a pad closes one: behind its third letter, or behind its second and
before another pad. -/
def Complete (s : Bytes) : Prop :=
  letters s % 4 = 0 ∨ AtPad (fun a _ => letters a % 4 = 3) s ∨
    AtPad (fun a b => letters a % 4 = 2 ∧ AtPad (fun c _ => letters c = 0) b) s

/-- What is still to come closes a group of `position` letters and then `pads` pads. -/
def Closes (position pads : Nat) (s : Bytes) : Prop :=
  (position + letters s) % 4 = 0 ∨ AtPad (fun a _ => (position + letters a) % 4 = 3) s ∨
    (pads = 1 ∧ AtPad (fun c _ => letters c = 0) s) ∨
    AtPad (fun a b => (position + letters a) % 4 = 2 ∧ AtPad (fun c _ => letters c = 0) b) s

section Closes

variable {position pads : Nat} {x : UInt8} {s : Bytes}

theorem closes_cons_of_isLetter (h : isLetter x = true) :
    Closes position pads (x :: s) ↔ Closes ((position + 1) % 4) 0 s := by
  have hne : x ≠ pad := by
    rintro rfl
    simp [not_isLetter_pad] at h
  have hshift (a : Bytes) :
      (position + (letters a + 1)) % 4 = ((position + 1) % 4 + letters a) % 4 := by omega
  simp only [Closes, atPad_cons_of_ne hne, letters_cons_of_isLetter h, hshift, Nat.succ_ne_zero,
    not_atPad_false, and_false, false_or, Nat.zero_ne_one, false_and]

theorem closes_cons_of_foreign (h : IsForeign x) :
    Closes position pads (x :: s) ↔ Closes position pads s := by
  simp only [Closes, atPad_cons_of_ne h.1, letters_cons_of_not h.2]

theorem closes_pad_early (h : position < 2) :
    Closes position 0 (pad :: s) ↔ Closes position 0 s := by
  have hthird : position % 4 ≠ 3 := by omega
  have hsecond : position % 4 ≠ 2 := by omega
  simp [Closes, atPad_cons, letters_cons_of_not not_isLetter_pad, hthird, hsecond]

theorem closes_first_pad : Closes 2 0 (pad :: s) ↔ Closes 2 1 s := by
  simp [Closes, atPad_cons, letters_cons_of_not not_isLetter_pad]

theorem closes_second_pad : Closes 2 1 (pad :: s) :=
  .inr (.inr (.inl ⟨rfl, [], s, rfl, rfl⟩))

theorem closes_third_pad : Closes 3 pads (pad :: s) := .inr (.inl ⟨[], s, rfl, rfl⟩)

theorem isSome_sextets?_iff (hpos : position < 4) (hpads : pads = 0 ∨ pads = 1 ∧ position = 2) :
    (sextets? position pads s).isSome = true ↔ Closes position pads s := by
  induction s generalizing position pads with
  | nil =>
    have hzero : position % 4 = 0 ↔ position = 0 := by omega
    by_cases h : position = 0 <;> simp [sextets?, Closes, not_atPad_nil, hzero, h]
  | cons x s ih =>
    by_cases hx : x = pad
    · subst hx
      by_cases hearly : position < 2
      · obtain rfl : pads = 0 := by omega
        rw [closes_pad_early hearly, ← ih hpos (.inl rfl)]
        simp [sextets?, show ¬2 ≤ position by omega]
      · by_cases hthird : position = 3
        · subst hthird
          simp [sextets?, closes_third_pad, show 4 ≤ 3 + (pads + 1) by omega]
        · obtain rfl : position = 2 := by omega
          rcases hpads with rfl | ⟨rfl, _⟩
          · rw [closes_first_pad, ← ih hpos (.inr ⟨rfl, rfl⟩)]
            simp [sextets?]
          · simp [sextets?, closes_second_pad]
    · cases hv : sextet? x with
      | none =>
        have hforeign : IsForeign x := ⟨hx, by simp [isLetter, hv]⟩
        rw [closes_cons_of_foreign hforeign, ← ih hpos hpads]
        simp [sextets?, hx, hv]
      | some v =>
        have hletter : isLetter x = true := by simp [isLetter, hv]
        rw [closes_cons_of_isLetter hletter, ← ih (by omega) (.inl rfl)]
        simp [sextets?, hx, hv]

end Closes

theorem isSome_decode?_iff {s : Bytes} : (decode? s).isSome = true ↔ Complete s := by
  rw [decode?, Option.isSome_map, isSome_sextets?_iff (by omega) (.inl rfl)]
  simp [Closes, Complete]

theorem letters_replicate_pad (k : Nat) : letters (List.replicate k pad) = 0 :=
  List.countP_eq_zero.mpr fun b hb => by
    rw [List.eq_of_mem_replicate hb, not_isLetter_pad]
    simp

theorem append_replicate_eq_iff {s a b : Bytes} (h : pad ∉ s) {k : Nat} :
    s ++ List.replicate k pad = a ++ pad :: b ↔
      ∃ j, j < k ∧ a = s ++ List.replicate j pad ∧ b = List.replicate (k - (j + 1)) pad := by
  constructor
  · intro hs
    -- There is no pad in `s`, so the cut is behind it.
    obtain ⟨c, rfl, hc⟩ : ∃ c, a = s ++ c ∧ List.replicate k pad = c ++ pad :: b := by
      rcases List.append_eq_append_iff.mp hs with hc | ⟨c, rfl, hc⟩
      · exact hc
      · cases c with
        | nil => exact ⟨[], by simp, by simpa using hc.symm⟩
        | cons x c =>
          obtain ⟨rfl, _⟩ := List.cons.inj hc
          simp at h
    obtain ⟨hlength, hpads, hrest⟩ := List.replicate_eq_append_iff.mp hc
    have hb : b = List.replicate b.length pad := by simpa [List.replicate_succ] using hrest
    rw [List.length_cons] at hlength
    refine ⟨c.length, by omega, by rw [← hpads], ?_⟩
    rw [show k - (c.length + 1) = b.length by omega]
    exact hb
  · rintro ⟨j, hj, rfl, rfl⟩
    rw [List.append_assoc, ← List.replicate_succ, List.replicate_append_replicate]
    congr 2
    omega

theorem atPad_append_replicate {holds : Bytes → Bytes → Prop} {s : Bytes} (h : pad ∉ s) {k : Nat} :
    AtPad holds (s ++ List.replicate k pad) ↔
      ∃ j, j < k ∧ holds (s ++ List.replicate j pad) (List.replicate (k - (j + 1)) pad) := by
  simp only [AtPad, append_replicate_eq_iff h]
  constructor
  · rintro ⟨_, _, ⟨j, hj, rfl, rfl⟩, hab⟩
    exact ⟨j, hj, hab⟩
  · rintro ⟨j, hj, hab⟩
    exact ⟨_, _, ⟨j, hj, rfl, rfl⟩, hab⟩

theorem complete_append_replicate_iff {s : Bytes} (h : pad ∉ s) {k : Nat} :
    Complete (s ++ List.replicate k pad) ↔
      letters s % 4 = 0 ∨ letters s % 4 = 3 ∧ 1 ≤ k ∨ letters s % 4 = 2 ∧ 2 ≤ k := by
  have hnone : pad ∉ ([] : Bytes) := List.not_mem_nil
  have hsecond (n : Nat) : AtPad (fun c _ => letters c = 0) (List.replicate n pad) ↔ 1 ≤ n := by
    rw [← List.nil_append (List.replicate n pad), atPad_append_replicate hnone]
    simp only [List.nil_append, letters_replicate_pad, and_true]
    exact ⟨fun ⟨j, hj⟩ => by omega, fun hn => ⟨0, hn⟩⟩
  rw [Complete, atPad_append_replicate h, atPad_append_replicate h]
  simp only [letters_append, letters_replicate_pad, Nat.add_zero, hsecond]
  constructor
  · rintro (h | ⟨j, hj, h⟩ | ⟨j, hj, h, hk⟩) <;> omega
  · rintro (h | ⟨h, hk⟩ | ⟨h, hk⟩)
    · exact .inl h
    · exact .inr (.inl ⟨0, hk, h⟩)
    · exact .inr (.inr ⟨0, by omega, h, by omega⟩)

theorem complete_padded_iff {s : Bytes} (h : ∀ b ∈ s, isLetter b = true) :
    Complete (padded s) ↔ s.length % 4 ≠ 1 := by
  have hpad : pad ∉ s := fun hm => by simpa [not_isLetter_pad] using h pad hm
  have hall : letters s = s.length := List.countP_eq_length.mpr h
  rw [padded, complete_append_replicate_iff hpad, hall]
  omega

theorem isSome_decodeSegment?_iff {s : Bytes} :
    (decodeSegment? s).isSome = true ↔ Complete (padded s) := isSome_decode?_iff

theorem sextets?_cons_of_foreign {x : UInt8} (h : IsForeign x) (position pads : Nat) (s : Bytes) :
    sextets? position pads (x :: s) = sextets? position pads s := by
  have hv : sextet? x = none := by simpa [isLetter] using h.2
  rw [sextets?, if_neg h.1, hv]

theorem sextets?_foreign {noise : Bytes} (h : ∀ b ∈ noise, IsForeign b) (position pads : Nat)
    (s : Bytes) : sextets? position pads (noise ++ s) = sextets? position pads s := by
  induction noise with
  | nil => rfl
  | cons x noise ih =>
    obtain ⟨hx, hnoise⟩ := List.forall_mem_cons.mp h
    rw [List.cons_append, sextets?_cons_of_foreign hx, ih hnoise]

theorem sextets?_append_foreign {noise : Bytes} (h : ∀ b ∈ noise, IsForeign b)
    (position pads : Nat) (a s : Bytes) :
    sextets? position pads (a ++ (noise ++ s)) = sextets? position pads (a ++ s) := by
  induction a generalizing position pads with
  | nil => exact sextets?_foreign h position pads s
  | cons x a ih => simp only [List.cons_append, sextets?, ih]

/-- Foreign bytes in fours do not change what a segment says. -/
theorem decodeSegment?_append_foreign {noise : Bytes} (h : ∀ b ∈ noise, IsForeign b)
    (hfours : noise.length % 4 = 0) (s : Bytes) :
    decodeSegment? (s ++ noise) = decodeSegment? s := by
  have hlength : (s ++ noise).length % 4 = s.length % 4 := by
    rw [List.length_append]
    omega
  rw [decodeSegment?, decodeSegment?, padded, padded, hlength, List.append_assoc, decode?, decode?,
    sextets?_append_foreign h]

end BearerGate.Base64
