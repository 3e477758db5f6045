import BearerGate.Text.Encoding

namespace BearerGate.Utf8

theorem encode?_cons_eq_some_iff {c : CodePoint} {rest : Text} {bytes : Bytes} :
    encode? (c :: rest) = some bytes ↔
      ∃ x y, encodePoint c = some x ∧ encode? rest = some y ∧ bytes = x ++ y := by
  cases hc : encodePoint c with
  | none => simp [encode?, hc]
  | some x =>
    cases hr : encode? rest with
    | none => simp [encode?, hc, hr]
    | some y => simp [encode?, hc, hr, eq_comm]

theorem encode?_append_eq_some_iff {a b : Text} {bytes : Bytes} :
    encode? (a ++ b) = some bytes ↔
      ∃ x y, encode? a = some x ∧ encode? b = some y ∧ bytes = x ++ y := by
  induction a generalizing bytes with
  | nil => simp [encode?]
  | cons c a ih =>
    rw [List.cons_append, encode?_cons_eq_some_iff]
    constructor
    · rintro ⟨x, y, hc, hy, rfl⟩
      obtain ⟨x', y', ha, hb, rfl⟩ := ih.mp hy
      exact ⟨x ++ x', y', encode?_cons_eq_some_iff.mpr ⟨x, x', hc, ha, rfl⟩, hb, by simp⟩
    · rintro ⟨x, y, ha, hb, rfl⟩
      obtain ⟨x₁, x₂, hc, hr, rfl⟩ := encode?_cons_eq_some_iff.mp ha
      exact ⟨x₁, x₂ ++ y, hc, ih.mpr ⟨x₂, y, hr, hb, rfl⟩, by simp⟩

theorem byte_above {k n : Nat} (hk : 0x80 ≤ k) (hn : k + n < 256) :
    0x80 ≤ (byte (k + n)).toNat := by
  simp only [byte, UInt8.toNat_ofNat']
  omega

/-- An ASCII character is one byte, its number; any other is bytes from 0x80 on. -/
theorem encodePoint_cases {c : CodePoint} {bytes : Bytes} (h : encodePoint c = some bytes) :
    (c.val < 0x80 ∧ bytes = [byte c.val]) ∨
      (0x80 ≤ c.val ∧ ∀ b ∈ bytes, 0x80 ≤ b.toNat) := by
  have hc := c.isLt
  unfold encodePoint at h
  split at h
  next hs => exact .inl ⟨hs, (Option.some.inj h).symm⟩
  next hs =>
    refine .inr ⟨by omega, ?_⟩
    split at h
    next =>
      cases Option.some.inj h
      simp only [List.forall_mem_cons]
      exact ⟨byte_above (by omega) (by omega), byte_above (by omega) (by omega), by simp⟩
    next =>
      split at h
      next => simp at h
      next =>
        split at h
        next =>
          cases Option.some.inj h
          simp only [List.forall_mem_cons]
          exact ⟨byte_above (by omega) (by omega), byte_above (by omega) (by omega),
            byte_above (by omega) (by omega), by simp⟩
        next =>
          cases Option.some.inj h
          simp only [List.forall_mem_cons]
          exact ⟨byte_above (by omega) (by omega), byte_above (by omega) (by omega),
            byte_above (by omega) (by omega), byte_above (by omega) (by omega), by simp⟩

/-- A byte below 0x80 is written for the code point of its own number only. -/
theorem val_of_mem_encodePoint {c : CodePoint} {bytes : Bytes} {b : UInt8}
    (h : encodePoint c = some bytes) (hb : b ∈ bytes) (hlt : b.toNat < 0x80) :
    c.val = b.toNat := by
  rcases encodePoint_cases h with ⟨hs, rfl⟩ | ⟨_, hall⟩
  · obtain rfl : b = byte c.val := by simpa using hb
    simp only [byte, UInt8.toNat_ofNat']
    omega
  · have := hall b hb
    omega

theorem mem_of_mem_encode? {t : Text} {bytes : Bytes} {b : UInt8} (h : encode? t = some bytes)
    (hb : b ∈ bytes) (hlt : b.toNat < 0x80) : ∃ c ∈ t, c.val = b.toNat := by
  induction t generalizing bytes with
  | nil =>
    cases Option.some.inj h
    simp at hb
  | cons c t ih =>
    obtain ⟨x, y, hc, ht, rfl⟩ := encode?_cons_eq_some_iff.mp h
    rcases List.mem_append.mp hb with hx | hy
    · exact ⟨c, List.mem_cons_self, val_of_mem_encodePoint hc hx hlt⟩
    · obtain ⟨d, hd, he⟩ := ih ht hy
      exact ⟨d, List.mem_cons_of_mem _ hd, he⟩

theorem byte_toNat {n : Nat} (h : n < 256) : (byte n).toNat = n := by
  rw [byte, UInt8.toNat_ofNat', Nat.mod_eq_of_lt h]

theorem tail?_byte {n : Nat} (h : n < 64) : tail? (byte (0x80 + n)) = some n := by
  have hbyte : (byte (0x80 + n)).toNat = 0x80 + n := byte_toNat (by omega)
  rw [tail?, hbyte, if_pos (by omega), Nat.add_sub_cancel_left]

section

variable {mode : Surrogates} {c : CodePoint} {y : Bytes} {t : Text}

theorem point?_val {least n : Nat} (hn : n = c.val) (hleast : least ≤ c.val)
    (hc : c.isSurrogate = false) : point? mode least n = some c := by
  have hself : CodePoint.ofNat? n = some c := by
    subst hn
    exact dif_pos c.isLt
  have hplain : ¬(n < least ∨ c.isSurrogate = true ∧ mode = .refused) := by
    simp only [hc, Bool.false_eq_true, false_and, or_false]
    omega
  simp only [point?, hself, if_neg hplain]

theorem isSurrogate_of_encodePoint {x : Bytes} (h : encodePoint c = some x) :
    c.isSurrogate = false := by
  cases hs : c.isSurrogate with
  | false => rfl
  | true =>
    have hlow : 0xD800 ≤ c.val := by
      simp only [CodePoint.isSurrogate, Bool.and_eq_true, decide_eq_true_eq] at hs
      exact hs.1
    rw [encodePoint, if_neg (by omega), if_neg (by omega), if_pos hs] at h
    cases h

theorem decode?_one (hc : c.val < 0x80) (hs : c.isSurrogate = false)
    (hy : decode? mode y = some t) : decode? mode ([byte c.val] ++ y) = some (c :: t) := by
  have ha : (byte c.val).toNat = c.val := byte_toNat (by omega)
  have hp : point? mode 0 c.val = some c := point?_val rfl (by omega) hs
  rw [List.singleton_append, decode?.eq_def]
  simp only [ha, if_pos hc, hp, hy]

theorem decode?_two (hleast : 0x80 ≤ c.val) (hc : c.val < 0x800) (hs : c.isSurrogate = false)
    (hy : decode? mode y = some t) :
    decode? mode ([byte (0xC0 + c.val / 64), byte (0x80 + c.val % 64)] ++ y) = some (c :: t) := by
  have ha : (byte (0xC0 + c.val / 64)).toNat = 0xC0 + c.val / 64 := byte_toNat (by omega)
  have hb : tail? (byte (0x80 + c.val % 64)) = some (c.val % 64) := tail?_byte (by omega)
  have hp : point? mode 0x80 ((0xC0 + c.val / 64 - 0xC0) * 64 + c.val % 64) = some c :=
    point?_val (by omega) hleast hs
  have hone : ¬0xC0 + c.val / 64 < 0x80 := by omega
  have htwo : 0xC0 ≤ 0xC0 + c.val / 64 ∧ 0xC0 + c.val / 64 < 0xE0 := by omega
  simp only [List.cons_append, List.nil_append]
  rw [decode?.eq_def]
  simp only [ha, if_neg hone, if_pos htwo, hb, hp, hy]

theorem decode?_three (hleast : 0x800 ≤ c.val) (hc : c.val < 0x10000) (hs : c.isSurrogate = false)
    (hy : decode? mode y = some t) :
    decode? mode ([byte (0xE0 + c.val / 4096), byte (0x80 + c.val / 64 % 64),
      byte (0x80 + c.val % 64)] ++ y) = some (c :: t) := by
  have ha : (byte (0xE0 + c.val / 4096)).toNat = 0xE0 + c.val / 4096 := byte_toNat (by omega)
  have hb : tail? (byte (0x80 + c.val / 64 % 64)) = some (c.val / 64 % 64) :=
    tail?_byte (by omega)
  have hd : tail? (byte (0x80 + c.val % 64)) = some (c.val % 64) := tail?_byte (by omega)
  have hp : point? mode 0x800
      ((0xE0 + c.val / 4096 - 0xE0) * 4096 + c.val / 64 % 64 * 64 + c.val % 64) = some c :=
    point?_val (by omega) hleast hs
  have hone : ¬0xE0 + c.val / 4096 < 0x80 := by omega
  have htwo : ¬(0xC0 ≤ 0xE0 + c.val / 4096 ∧ 0xE0 + c.val / 4096 < 0xE0) := by omega
  have hthree : 0xE0 ≤ 0xE0 + c.val / 4096 ∧ 0xE0 + c.val / 4096 < 0xF0 := by omega
  simp only [List.cons_append, List.nil_append]
  rw [decode?.eq_def]
  simp only [ha, if_neg hone, if_neg htwo, if_pos hthree, hb, hd, hp, hy]

theorem decode?_four (hleast : 0x10000 ≤ c.val) (hs : c.isSurrogate = false)
    (hy : decode? mode y = some t) :
    decode? mode ([byte (0xF0 + c.val / 262144), byte (0x80 + c.val / 4096 % 64),
      byte (0x80 + c.val / 64 % 64), byte (0x80 + c.val % 64)] ++ y) = some (c :: t) := by
  have hc := c.isLt
  have ha : (byte (0xF0 + c.val / 262144)).toNat = 0xF0 + c.val / 262144 := byte_toNat (by omega)
  have hb : tail? (byte (0x80 + c.val / 4096 % 64)) = some (c.val / 4096 % 64) :=
    tail?_byte (by omega)
  have hd : tail? (byte (0x80 + c.val / 64 % 64)) = some (c.val / 64 % 64) :=
    tail?_byte (by omega)
  have he : tail? (byte (0x80 + c.val % 64)) = some (c.val % 64) := tail?_byte (by omega)
  have hp : point? mode 0x10000 (262144 * (0xF0 + c.val / 262144 - 0xF0) +
      c.val / 4096 % 64 * 4096 + c.val / 64 % 64 * 64 + c.val % 64) = some c :=
    point?_val (by omega) hleast hs
  have hone : ¬0xF0 + c.val / 262144 < 0x80 := by omega
  have htwo : ¬(0xC0 ≤ 0xF0 + c.val / 262144 ∧ 0xF0 + c.val / 262144 < 0xE0) := by omega
  have hthree : ¬(0xE0 ≤ 0xF0 + c.val / 262144 ∧ 0xF0 + c.val / 262144 < 0xF0) := by omega
  have hfour : 0xF0 ≤ 0xF0 + c.val / 262144 ∧ 0xF0 + c.val / 262144 < 0xF8 := by omega
  simp only [List.cons_append, List.nil_append]
  rw [decode?.eq_def]
  -- The factor is brought to the front: as the second one it would be counted down when the kernel
  -- compares the two sides.
  simp only [ha, if_neg hone, if_neg htwo, if_neg hthree, if_pos hfour, Nat.mul_comm _ 262144]
  simp only [hb, hd, he, hp, hy]

/-- The bytes of a code point are read as this code point, whatever follows them. -/
theorem decode?_encodePoint {x : Bytes} (h : encodePoint c = some x)
    (hy : decode? mode y = some t) : decode? mode (x ++ y) = some (c :: t) := by
  have hs := isSurrogate_of_encodePoint h
  unfold encodePoint at h
  split at h
  next hone =>
    cases Option.some.inj h
    exact decode?_one hone hs hy
  next hone =>
    split at h
    next htwo =>
      cases Option.some.inj h
      exact decode?_two (by omega) htwo hs hy
    next htwo =>
      rw [if_neg (by simp [hs])] at h
      split at h
      next hthree =>
        cases Option.some.inj h
        exact decode?_three (by omega) hthree hs hy
      next hthree =>
        cases Option.some.inj h
        exact decode?_four (by omega) hs hy

/-- What is written is read back, in either mode, for it holds no surrogate. -/
theorem decode?_encode? {bytes : Bytes} (h : encode? t = some bytes) :
    decode? mode bytes = some t := by
  induction t generalizing bytes with
  | nil =>
    cases Option.some.inj h
    rfl
  | cons c t ih =>
    obtain ⟨x, y, hc, ht, rfl⟩ := encode?_cons_eq_some_iff.mp h
    exact decode?_encodePoint hc (ih ht)

theorem exists_encodePoint (h : c.isSurrogate = false) : ∃ x, encodePoint c = some x := by
  unfold encodePoint
  rw [if_neg (by simp [h] : ¬c.isSurrogate = true)]
  split
  next => exact ⟨_, rfl⟩
  next =>
    split
    next => exact ⟨_, rfl⟩
    next => split <;> exact ⟨_, rfl⟩

theorem exists_encode? (h : t.hasSurrogate = false) : ∃ bytes, encode? t = some bytes := by
  induction t with
  | nil => exact ⟨[], rfl⟩
  | cons c t ih =>
    obtain ⟨hc, ht⟩ := Bool.or_eq_false_iff.mp h
    obtain ⟨x, hx⟩ := exists_encodePoint hc
    obtain ⟨y, hy⟩ := ih ht
    exact ⟨x ++ y, encode?_cons_eq_some_iff.mpr ⟨x, y, hx, hy, rfl⟩⟩

end

end BearerGate.Utf8

namespace BearerGate.Encoding

theorem detect_object (rest : Bytes) :
    detect (0x7B :: 0x22 :: rest) = (.utf8, 0x7B :: 0x22 :: rest) := by
  cases rest with
  | nil => rfl
  | cons b rest => cases rest <;> rfl

/-- A brace and a quote show that a text is in UTF-8. -/
theorem read?_encode?_object {rest : Text} {bytes : Bytes}
    (h : Utf8.encode? (('{' : CodePoint) :: .quote :: rest) = some bytes) :
    read? bytes = some (('{' : CodePoint) :: .quote :: rest) := by
  have hbrace : Utf8.encodePoint '{' = some [0x7B] := by decide
  have hquote : Utf8.encodePoint .quote = some [0x22] := by decide
  obtain ⟨x, y, hx, hy, rfl⟩ := Utf8.encode?_cons_eq_some_iff.mp h
  obtain ⟨x', y', hx', -, rfl⟩ := Utf8.encode?_cons_eq_some_iff.mp hy
  cases hbrace.symm.trans hx
  cases hquote.symm.trans hx'
  simp only [List.cons_append, List.nil_append] at h ⊢
  rw [read?, detect_object]
  exact Utf8.decode?_encode? h

end BearerGate.Encoding
