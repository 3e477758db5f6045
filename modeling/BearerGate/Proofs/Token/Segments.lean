import BearerGate.Token.Header
import BearerGate.Proofs.Text.Cuts
import BearerGate.Proofs.Text.Utf8
import Mathlib.Data.List.Basic

namespace BearerGate

namespace Compact

/-- Two dots at least, and the parts before the first, between and behind the last. -/
structure Divided (token header payload signature : Text) : Prop where
  joined : token = header ++ ('.' : CodePoint) :: (payload ++ ('.' : CodePoint) :: signature)
  undotted : ('.' : CodePoint) ∉ header ∧ ('.' : CodePoint) ∉ signature

/-- Three non-empty segments with a dot between them and none inside. -/
structure Segmented (token header payload signature : Text) : Prop where
  joined : token = header ++ ('.' : CodePoint) :: (payload ++ ('.' : CodePoint) :: signature)
  nonempty : header ≠ [] ∧ payload ≠ [] ∧ signature ≠ []
  undotted : ('.' : CodePoint) ∉ header ∧ ('.' : CodePoint) ∉ payload ∧
    ('.' : CodePoint) ∉ signature

theorem Segmented.divided {token h p s : Text} (hs : Segmented token h p s) :
    Divided token h p s :=
  ⟨hs.joined, hs.undotted.1, hs.undotted.2.2⟩

def bytesOf? (segment : Text) : Option Bytes :=
  (Utf8.encode? segment).bind Base64.decodeSegment?

def Tells (segment : Text) (members : Members) : Prop :=
  ∃ bytes, bytesOf? segment = some bytes ∧ readObject bytes = .ok members

theorem segmented_iff {token : Text} :
    (∃ h p s, Segmented token h p s) ↔
      ¬((token.splitOn ('.' : CodePoint)).length ≠ 3 ∨
        [] ∈ token.splitOn ('.' : CodePoint)) := by
  constructor
  · rintro ⟨h, p, s, joined, ⟨hh, hp, hs⟩, undotted⟩
    rw [Text.splitOn_eq_three_iff.mpr ⟨joined, undotted⟩]
    simp [Ne.symm hh, Ne.symm hp, Ne.symm hs]
  · intro hn
    obtain ⟨hl, hm⟩ := not_or.mp hn
    obtain ⟨h, p, s, he⟩ := List.length_eq_three.mp (not_not.mp hl)
    obtain ⟨joined, undotted⟩ := Text.splitOn_eq_three_iff.mp he
    rw [he] at hm
    simp only [List.mem_cons, List.not_mem_nil, or_false, not_or] at hm
    exact ⟨h, p, s, joined, ⟨Ne.symm hm.1, Ne.symm hm.2.1, Ne.symm hm.2.2⟩, undotted⟩

theorem segments?_eq_some_iff {bytes signed h p s : Bytes} :
    segments? bytes = some (signed, h, p, s) ↔
      signed = h ++ dot :: p ∧ bytes = signed ++ dot :: s ∧ dot ∉ h ∧ dot ∉ s := by
  unfold segments?
  constructor
  · intro hs
    split at hs
    next => simp at hs
    next signed' s' hl =>
      split at hs
      next => simp at hs
      next h' p' hc =>
        obtain ⟨rfl, rfl, rfl, rfl⟩ := by simpa using hs
        obtain ⟨rfl, hsd⟩ := Text.cutLast?_eq_some_iff.mp hl
        obtain ⟨rfl, hhd⟩ := Text.cut?_eq_some_iff.mp hc
        exact ⟨rfl, rfl, hhd, hsd⟩
  · rintro ⟨rfl, rfl, hhd, hsd⟩
    rw [Text.cutLast?_eq_some_iff.mpr ⟨rfl, hsd⟩]
    simp only [Text.cut?_eq_some_iff.mpr ⟨rfl, hhd⟩]

theorem encode?_cons_dot {t : Text} {bytes : Bytes} :
    Utf8.encode? (('.' : CodePoint) :: t) = some bytes ↔
      ∃ y, Utf8.encode? t = some y ∧ bytes = dot :: y := by
  rw [Utf8.encode?_cons_eq_some_iff]
  constructor
  · rintro ⟨x, y, hx, hy, rfl⟩
    obtain rfl : [dot] = x := Option.some.inj hx
    exact ⟨y, hy, rfl⟩
  · rintro ⟨y, hy, rfl⟩
    exact ⟨[dot], y, rfl, hy, rfl⟩

theorem dot_not_mem_encode? {t : Text} {bytes : Bytes} (h : Utf8.encode? t = some bytes)
    (ht : ('.' : CodePoint) ∉ t) : dot ∉ bytes := by
  intro hm
  obtain ⟨c, hc, he⟩ := Utf8.mem_of_mem_encode? h hm (by decide)
  exact ht ((Fin.ext he : c = ('.' : CodePoint)) ▸ hc)

theorem encode?_append_dot {a b : Text} {bytes : Bytes} :
    Utf8.encode? (a ++ ('.' : CodePoint) :: b) = some bytes ↔
      ∃ x y, Utf8.encode? a = some x ∧ Utf8.encode? b = some y ∧ bytes = x ++ dot :: y := by
  rw [Utf8.encode?_append_eq_some_iff]
  constructor
  · rintro ⟨x, _, hx, hr, rfl⟩
    obtain ⟨y, hy, rfl⟩ := encode?_cons_dot.mp hr
    exact ⟨x, y, hx, hy, rfl⟩
  · rintro ⟨x, y, hx, hy, rfl⟩
    exact ⟨x, _, hx, encode?_cons_dot.mpr ⟨y, hy, rfl⟩, rfl⟩

/-- The bytes of a token are cut where its text is. -/
theorem segments?_of_divided {token h p s : Text} (hd : Divided token h p s)
    {signed hb pb sb : Bytes} :
    (Utf8.encode? token).bind segments? = some (signed, hb, pb, sb) ↔
      Utf8.encode? h = some hb ∧ Utf8.encode? p = some pb ∧ Utf8.encode? s = some sb ∧
        signed = hb ++ dot :: pb := by
  rw [hd.joined, Option.bind_eq_some_iff]
  constructor
  · rintro ⟨bytes, he, hcut⟩
    obtain ⟨x, _, hx, hrest, rfl⟩ := encode?_append_dot.mp he
    obtain ⟨y, z, hy, hz, rfl⟩ := encode?_append_dot.mp hrest
    have hcut' : segments? (x ++ dot :: (y ++ dot :: z)) = some (x ++ dot :: y, x, y, z) :=
      segments?_eq_some_iff.mpr ⟨rfl, by simp, dot_not_mem_encode? hx hd.undotted.1,
        dot_not_mem_encode? hz hd.undotted.2⟩
    rw [hcut'] at hcut
    obtain ⟨rfl, rfl, rfl, rfl⟩ := by simpa using hcut
    exact ⟨hx, hy, hz, rfl⟩
  · rintro ⟨hx, hy, hz, rfl⟩
    refine ⟨(hb ++ dot :: pb) ++ dot :: sb, ?_, ?_⟩
    · have hrest := encode?_append_dot.mpr ⟨pb, sb, hy, hz, rfl⟩
      exact encode?_append_dot.mpr ⟨hb, _, hx, hrest, by simp⟩
    · exact segments?_eq_some_iff.mpr ⟨rfl, rfl, dot_not_mem_encode? hx hd.undotted.1,
        dot_not_mem_encode? hz hd.undotted.2⟩

/-- Bytes that are cut come from a text with the dots to cut it at. -/
theorem exists_divided {token : Text} {signed hb pb sb : Bytes}
    (hcuts : (Utf8.encode? token).bind segments? = some (signed, hb, pb, sb)) :
    ∃ h p s, Divided token h p s := by
  obtain ⟨bytes, he, hcut⟩ := Option.bind_eq_some_iff.mp hcuts
  obtain ⟨rfl, rfl, _, hsb⟩ := segments?_eq_some_iff.mp hcut
  cases hlast : Text.cutLast? ('.' : CodePoint) token with
  | none =>
    have hdot := dot_not_mem_encode? he (Text.cutLast?_eq_none_iff.mp hlast)
    simp at hdot
  | some found =>
    obtain ⟨front, s⟩ := found
    obtain ⟨rfl, hs⟩ := Text.cutLast?_eq_some_iff.mp hlast
    obtain ⟨x, z, hx, hz, hjoin⟩ := encode?_append_dot.mp he
    -- Text and bytes have the same last dot, so what is before it are the signed bytes.
    have hbytes := Text.cutLast?_eq_some_iff.mpr ⟨hjoin, dot_not_mem_encode? hz hs⟩
    rw [Text.cutLast?_eq_some_iff.mpr ⟨rfl, hsb⟩] at hbytes
    obtain ⟨rfl, rfl⟩ := Prod.mk.inj (Option.some.inj hbytes)
    cases hfirst : Text.cut? ('.' : CodePoint) front with
    | none =>
      have hdot := dot_not_mem_encode? hx (Text.cut?_eq_none_iff.mp hfirst)
      simp at hdot
    | some found =>
      obtain ⟨h, p⟩ := found
      obtain ⟨rfl, hh⟩ := Text.cut?_eq_some_iff.mp hfirst
      exact ⟨h, p, s, by simp, hh, hs⟩

theorem bytesOf?_of_encode? {t : Text} {bytes : Bytes} (h : Utf8.encode? t = some bytes) :
    bytesOf? t = Base64.decodeSegment? bytes := by
  simp [bytesOf?, h]

/-- A token that is divided is read part by part. -/
theorem Divided.read_eq_ok_iff {token h p s : Text} (hd : Divided token h p s) {c : Compact} :
    read token = .ok c ↔
      Tells h c.header ∧ bytesOf? p = some c.payload ∧ bytesOf? s = some c.signature ∧
        Utf8.encode? (h ++ ('.' : CodePoint) :: p) = some c.signed := by
  constructor
  · intro hr
    unfold read at hr
    split at hr
    next => simp at hr
    next signed hb pb sb hseg =>
      obtain ⟨hh, hp, hsb, rfl⟩ := (segments?_of_divided hd).mp hseg
      split at hr
      next => simp at hr
      next bytes hbytes =>
        split at hr
        next => simp at hr
        next ms hms =>
          split at hr
          next hpay hsig =>
            cases hr
            exact ⟨⟨bytes, (bytesOf?_of_encode? hh).trans hbytes, hms⟩,
              (bytesOf?_of_encode? hp).trans hpay, (bytesOf?_of_encode? hsb).trans hsig,
              encode?_append_dot.mpr ⟨hb, pb, hh, hp, rfl⟩⟩
          next => simp at hr
  · rintro ⟨⟨bytes, hbytes, hms⟩, hpay, hsig, hsigned⟩
    obtain ⟨hb, hh, hbytes⟩ := Option.bind_eq_some_iff.mp hbytes
    obtain ⟨pb, hp, hpay⟩ := Option.bind_eq_some_iff.mp hpay
    obtain ⟨sb, hsb, hsig⟩ := Option.bind_eq_some_iff.mp hsig
    have he : hb ++ dot :: pb = c.signed :=
      Option.some.inj ((encode?_append_dot.mpr ⟨hb, pb, hh, hp, rfl⟩).symm.trans hsigned)
    unfold read
    simp only [(segments?_of_divided hd).mpr ⟨hh, hp, hsb, rfl⟩, hbytes, hms, hpay, hsig, he]

theorem read_eq_ok_iff {token : Text} {c : Compact} :
    read token = .ok c ↔
      ∃ h p s, Divided token h p s ∧ Tells h c.header ∧ bytesOf? p = some c.payload ∧
        bytesOf? s = some c.signature ∧
        Utf8.encode? (h ++ ('.' : CodePoint) :: p) = some c.signed := by
  constructor
  · intro hr
    obtain ⟨h, p, s, hd⟩ : ∃ h p s, Divided token h p s := by
      have hr' := hr
      unfold read at hr'
      split at hr'
      next => simp at hr'
      next hseg => exact exists_divided hseg
    exact ⟨h, p, s, hd, hd.read_eq_ok_iff.mp hr⟩
  · rintro ⟨h, p, s, hd, hparts⟩
    exact hd.read_eq_ok_iff.mpr hparts

end Compact

namespace TokenHeader

theorem ofToken_eq_ok_iff {token : Text} {header : TokenHeader} :
    ofToken token = .ok header ↔
      ∃ h p s c, Compact.Segmented token h p s ∧ Compact.read token = .ok c ∧
        Table.get? (Text.ofString "kid") c.header = some (.str header.kid) ∧
        (Table.get? (Text.ofString "alg") c.header).bind Json.str? = header.algorithm := by
  constructor
  · intro hr
    by_cases hsegments : (token.splitOn ('.' : CodePoint)).length ≠ 3 ∨
        [] ∈ token.splitOn ('.' : CodePoint)
    · simp only [ofToken, if_pos hsegments, reduceCtorEq] at hr
    · obtain ⟨h, p, s, hs⟩ := Compact.segmented_iff.mpr hsegments
      simp only [ofToken, if_neg hsegments] at hr
      split at hr
      next => simp at hr
      next c hc =>
        split at hr
        next => simp at hr
        next => simp at hr
        next kid hkid =>
          cases hr
          exact ⟨h, p, s, c, hs, hc, hkid, rfl⟩
        next => simp at hr
  · rintro ⟨h, p, s, c, hs, hc, hkid, halg⟩
    simp only [ofToken, if_neg (Compact.segmented_iff.mp ⟨h, p, s, hs⟩), hc, hkid, halg]

theorem rejection_of_ofToken {token : Text} {r : Rejection} (h : ofToken token = .error r) :
    r = .malformedToken ∨ r = .noKeyNamed := by
  unfold ofToken at h
  dsimp only at h
  split at h
  next => exact .inl (Except.error.inj h).symm
  next =>
    split at h
    next => exact .inl (Except.error.inj h).symm
    next =>
      split at h
      next => exact .inr (Except.error.inj h).symm
      next => exact .inr (Except.error.inj h).symm
      next => cases h
      next => exact .inl (Except.error.inj h).symm

end TokenHeader

end BearerGate
