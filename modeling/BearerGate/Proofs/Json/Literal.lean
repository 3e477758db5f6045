import BearerGate.Json.Reader
import BearerGate.Json.Writer

namespace BearerGate.Json

/-- Four hexadecimal digits and the number that they write. -/
inductive Hex4 : Text → Nat → Prop
  | mk {a b c d : CodePoint} {w x y z : Nat} (ha : a.hexDigit? = some w) (hb : b.hexDigit? = some x)
    (hc : c.hexDigit? = some y) (hd : d.hexDigit? = some z) :
    Hex4 [a, b, c, d] (((w * 16 + x) * 16 + y) * 16 + z)

def IsHigh (n : Nat) : Prop := 0xD800 ≤ n ∧ n < 0xDC00

def IsLow (n : Nat) : Prop := 0xDC00 ≤ n ∧ n < 0xE000

def letterEscapes : List (CodePoint × CodePoint) :=
  [(.quote, .quote), (.backslash, .backslash), ('/', '/'), ('b', .ofNat 0x08), ('f', .ofNat 0x0C),
    ('n', .ofNat 0x0A), ('r', .ofNat 0x0D), ('t', .ofNat 0x09)]

def numberEscape (ds : Text) : Text := .backslash :: ('u' : CodePoint) :: ds

/-- One code point as it may be written. -/
inductive Point : Text → CodePoint → Prop
  | plain {c : CodePoint} (hquote : c ≠ .quote) (hbackslash : c ≠ .backslash)
    (hcontrol : 0x20 ≤ c.val) : Point [c] c
  | letter {d c : CodePoint} (h : (d, c) ∈ letterEscapes) : Point [.backslash, d] c
  | number {ds : Text} {n : Nat} (h : Hex4 ds n) : Point (numberEscape ds) (.ofNat n)
  | pair {ds es : Text} {n m : Nat} (hhigh : Hex4 ds n) (hn : IsHigh n) (hlow : Hex4 es m)
    (hm : IsLow m) : Point (numberEscape ds ++ numberEscape es)
      (.ofNat (0x10000 + (n - 0xD800) * 1024 + (m - 0xDC00)))

/-- The text goes on with the number of the low half of a pair. -/
def BeginsLow (s : Text) : Prop := ∃ ds n rest, s = numberEscape ds ++ rest ∧ Hex4 ds n ∧ IsLow n

/-- A text as it may be written between quotes; the numbers of two halves are a pair. -/
inductive Literal : Text → Text → Prop
  | nil : Literal [] []
  | cons {s rest t : Text} {c : CodePoint} (hpoint : Point s c) (hrest : Literal rest t)
    (hapart : ∀ ds n, s = numberEscape ds → Hex4 ds n → IsHigh n → ¬BeginsLow rest) :
    Literal (s ++ rest) (c :: t)

variable {s t r rest ds es : Text} {c d : CodePoint} {n m fuel : Nat}

theorem Hex4.hex4? (h : Hex4 ds n) (rest : Text) : hex4? (ds ++ rest) = some (n, rest) := by
  cases h with
  | mk ha hb hc hd => simp [Json.hex4?, ha, hb, hc, hd]

theorem Hex4.unique (h : Hex4 ds n) (h' : Hex4 ds m) : n = m := by
  have heq := (h.hex4? []).symm.trans (h'.hex4? [])
  simpa using heq

theorem IsHigh.not_isLow (h : IsHigh n) : ¬IsLow n := fun hlow => Nat.not_lt.mpr hlow.1 h.2

theorem lowSurrogate?_numberEscape (h : Hex4 ds n) (hlow : IsLow n) (rest : Text) :
    lowSurrogate? (numberEscape ds ++ rest) = some (n, rest) := by
  have hrange : 0xDC00 ≤ n ∧ n < 0xE000 := hlow
  simp only [numberEscape, List.cons_append, lowSurrogate?, and_self, if_true, h.hex4?,
    if_pos hrange]

theorem lowSurrogate?_numberEscape_of_not (h : Hex4 ds n) (hlow : ¬IsLow n) (rest : Text) :
    lowSurrogate? (numberEscape ds ++ rest) = none := by
  have hrange : ¬(0xDC00 ≤ n ∧ n < 0xE000) := hlow
  simp only [numberEscape, List.cons_append, lowSurrogate?, and_self, if_true, h.hex4?,
    if_neg hrange]

theorem lowSurrogate?_of_ne (h : ¬(c = .backslash ∧ d = 'u')) :
    lowSurrogate? (c :: d :: rest) = none := by
  simp only [lowSurrogate?, if_neg h]

theorem lowSurrogate?_of_ne_backslash (h : c ≠ .backslash) : lowSurrogate? (c :: rest) = none := by
  cases rest with
  | nil => rfl
  | cons d rest => exact lowSurrogate?_of_ne fun hboth => h hboth.1

theorem ne_u_of_mem_letterEscapes (h : (d, c) ∈ letterEscapes) : d ≠ 'u' := by
  have hall : (letterEscapes.all fun (d, _) => d != 'u') = true := by decide
  simpa using List.all_eq_true.mp hall (d, c) h

/-- Only the number of a low half is taken for one, up to the quote and beyond. -/
theorem Literal.lowSurrogate? (h : Literal s t) (hlow : ¬BeginsLow s) (rest : Text) :
    lowSurrogate? (s ++ .quote :: rest) = none := by
  cases h with
  | nil => exact lowSurrogate?_of_ne_backslash (by decide)
  | @cons s more t c hpoint _ _ =>
    rw [List.append_assoc]
    cases hpoint with
    | plain _ hbackslash _ => exact lowSurrogate?_of_ne_backslash hbackslash
    | letter hletter =>
      exact lowSurrogate?_of_ne fun hboth => ne_u_of_mem_letterEscapes hletter hboth.2
    | number hnumber =>
      apply lowSurrogate?_numberEscape_of_not hnumber
      intro hn
      exact hlow ⟨_, _, more, rfl, hnumber, hn⟩
    | pair hhigh hn _ _ =>
      rw [List.append_assoc]
      exact lowSurrogate?_numberEscape_of_not hhigh hn.not_isLow _

theorem escaped?_letter (h : (d, c) ∈ letterEscapes) : escaped? (d :: rest) = some (c, rest) := by
  simp only [letterEscapes, List.mem_cons, List.not_mem_nil, or_false, Prod.mk.injEq] at h
  rcases h with ⟨rfl, rfl⟩ | ⟨rfl, rfl⟩ | ⟨rfl, rfl⟩ | ⟨rfl, rfl⟩ | ⟨rfl, rfl⟩ | ⟨rfl, rfl⟩ |
    ⟨rfl, rfl⟩ | ⟨rfl, rfl⟩ <;> rfl

theorem escaped?_u (s : Text) : escaped? (('u' : CodePoint) :: s) =
    match hex4? s with
    | none => none
    | some (n, rest) =>
      if 0xD800 ≤ n ∧ n < 0xDC00 then
        match Json.lowSurrogate? rest with
        | some (l, rest') =>
          some (.ofNat (0x10000 + (n - 0xD800) * 1024 + (l - 0xDC00)), rest')
        | none => some (.ofNat n, rest)
      else some (.ofNat n, rest) := rfl

theorem escaped?_number (h : Hex4 ds n) (hapart : IsHigh n → Json.lowSurrogate? rest = none) :
    escaped? (('u' : CodePoint) :: (ds ++ rest)) = some (.ofNat n, rest) := by
  rw [escaped?_u, h.hex4? rest]
  dsimp only
  by_cases hn : 0xD800 ≤ n ∧ n < 0xDC00
  · rw [if_pos hn, hapart hn]
  · rw [if_neg hn]

theorem escaped?_pair (hhigh : Hex4 ds n) (hn : IsHigh n) (hlow : Hex4 es m) (hm : IsLow m) :
    escaped? (('u' : CodePoint) :: (ds ++ (numberEscape es ++ rest))) =
      some (.ofNat (0x10000 + (n - 0xD800) * 1024 + (m - 0xDC00)), rest) := by
  have hrange : 0xD800 ≤ n ∧ n < 0xDC00 := hn
  rw [escaped?_u, hhigh.hex4?]
  dsimp only
  rw [if_pos hrange, lowSurrogate?_numberEscape hlow hm]

theorem readChars_plain (hquote : c ≠ .quote) (hbackslash : c ≠ .backslash)
    (hcontrol : 0x20 ≤ c.val) (h : readChars fuel rest = .ok (t, r)) :
    readChars (fuel + 1) (c :: rest) = .ok (c :: t, r) := by
  rw [readChars, if_neg hquote, if_neg hbackslash, if_neg (by omega), h]

theorem readChars_escaped (hescaped : escaped? s = some (c, rest))
    (h : readChars fuel rest = .ok (t, r)) :
    readChars (fuel + 1) (.backslash :: s) = .ok (c :: t, r) := by
  rw [readChars, if_neg (by decide), if_pos rfl, hescaped]
  dsimp only
  rw [h]

/-- One code point is read in one turn, whatever way it is written. -/
theorem Point.readChars (hpoint : Point s c)
    (hapart : ∀ ds n, s = numberEscape ds → Hex4 ds n → IsHigh n → Json.lowSurrogate? rest = none)
    (h : readChars fuel rest = .ok (t, r)) :
    readChars (fuel + 1) (s ++ rest) = .ok (c :: t, r) := by
  cases hpoint with
  | plain hquote hbackslash hcontrol => exact readChars_plain hquote hbackslash hcontrol h
  | letter hletter => exact readChars_escaped (escaped?_letter hletter) h
  | number hnumber => exact readChars_escaped (escaped?_number hnumber (hapart _ _ rfl hnumber)) h
  | pair hhigh hn hlow hm =>
    rw [List.append_assoc]
    exact readChars_escaped (escaped?_pair hhigh hn hlow hm) h

theorem Point.length_pos (h : Point s c) : 0 < s.length := by
  cases h <;> simp [numberEscape]

theorem Literal.readChars (h : Literal s t) (rest : Text) (hfuel : s.length < fuel) :
    readChars fuel (s ++ .quote :: rest) = .ok (t, rest) := by
  induction h generalizing fuel with
  | nil =>
    obtain ⟨fuel, rfl⟩ := Nat.exists_eq_add_of_lt hfuel
    rfl
  | @cons s more t c hpoint hrest hapart ih =>
    have hpos : 0 < s.length := hpoint.length_pos
    have hlength : s.length + more.length < fuel := by simpa using hfuel
    obtain ⟨fuel, rfl⟩ : ∃ k, fuel = k + 1 := ⟨fuel - 1, by omega⟩
    have hread : Json.readChars fuel (more ++ .quote :: rest) = .ok (t, rest) := ih (by omega)
    rw [List.append_assoc]
    apply hpoint.readChars _ hread
    -- What follows a high half alone must not be taken for its partner.
    intro ds n hs hds hn
    exact hrest.lowSurrogate? (hapart ds n hs hds hn) rest

theorem Literal.readString (h : Literal s t) (rest : Text) :
    readString (.quote :: (s ++ .quote :: rest)) = .ok (t, rest) := by
  have hlength : s.length < (s ++ .quote :: rest).length + 1 := by
    rw [List.length_append]
    omega
  rw [Json.readString, if_pos rfl, h.readChars rest hlength]

theorem hexDigit?_hexDigit (h : n < 16) : (hexDigit n).hexDigit? = some n := by
  revert h
  revert n
  decide

theorem hex4_of_lt (h : n < 0x20) :
    Hex4 [('0' : CodePoint), ('0' : CodePoint), hexDigit (n / 16), hexDigit (n % 16)] n := by
  have hzero : CodePoint.hexDigit? ('0' : CodePoint) = some 0 := by decide
  have hfirst : (hexDigit (n / 16)).hexDigit? = some (n / 16) := hexDigit?_hexDigit (by omega)
  have hsecond : (hexDigit (n % 16)).hexDigit? = some (n % 16) := hexDigit?_hexDigit (by omega)
  have hvalue : ((0 * 16 + 0) * 16 + n / 16) * 16 + n % 16 = n := by omega
  have hmk := Hex4.mk hzero hzero hfirst hsecond
  rwa [hvalue] at hmk

/-- The writer escapes what has to be escaped, and may escape all that it does. -/
theorem point_escape (c : CodePoint) : Point (escape c) c := by
  unfold escape
  split
  case h_1 h =>
    obtain rfl : c = .quote := Fin.ext h
    exact .letter (by decide)
  case h_2 h =>
    obtain rfl : c = .backslash := Fin.ext h
    exact .letter (by decide)
  case h_3 h =>
    obtain rfl : c = .ofNat 0x08 := Fin.ext h
    exact .letter (by decide)
  case h_4 h =>
    obtain rfl : c = .ofNat 0x0C := Fin.ext h
    exact .letter (by decide)
  case h_5 h =>
    obtain rfl : c = .ofNat 0x0A := Fin.ext h
    exact .letter (by decide)
  case h_6 h =>
    obtain rfl : c = .ofNat 0x0D := Fin.ext h
    exact .letter (by decide)
  case h_7 h =>
    obtain rfl : c = .ofNat 0x09 := Fin.ext h
    exact .letter (by decide)
  next hquote hbackslash _ _ _ _ _ =>
    split
    next hcontrol =>
      have hnumber : Point _ (CodePoint.ofNat c.val) := .number (hex4_of_lt hcontrol)
      have hself : CodePoint.ofNat c.val = c := Fin.ext (Nat.mod_eq_of_lt c.isLt)
      rwa [hself] at hnumber
    next hcontrol =>
      apply Point.plain
      · rintro rfl
        exact hquote rfl
      · rintro rfl
        exact hbackslash rfl
      · omega

/-- Only control characters are given by their number. -/
theorem lt_of_escape_eq (hs : escape c = numberEscape ds) (hds : Hex4 ds n) : n < 0x20 := by
  unfold escape at hs
  split at hs
  case h_1 | h_2 | h_3 | h_4 | h_5 | h_6 | h_7 =>
    cases hds
    cases hs
  next =>
    split at hs
    next hcontrol =>
      obtain ⟨_, hs⟩ := List.cons.inj hs
      obtain ⟨_, rfl⟩ := List.cons.inj hs
      rw [hds.unique (hex4_of_lt hcontrol)]
      exact hcontrol
    next =>
      cases hds
      cases hs

theorem literal_escape (t : Text) : Literal (t.flatMap escape) t := by
  induction t with
  | nil => exact .nil
  | cons c t ih =>
    rw [List.flatMap_cons]
    refine .cons (point_escape c) ih ?_
    -- The writer leaves surrogates as they are and gives only control characters by number.
    intro ds n hs hds hn
    have hsmall : n < 0x20 := lt_of_escape_eq hs hds
    have hlarge : 0xD800 ≤ n := hn.1
    omega

theorem readString_writeString (t rest : Text) :
    readString (writeString t ++ rest) = .ok (t, rest) := by
  have hread := (literal_escape t).readString rest
  simpa [writeString] using hread

end BearerGate.Json
