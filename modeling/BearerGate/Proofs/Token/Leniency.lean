import BearerGate.Proofs.Base64
import BearerGate.Proofs.Gate.Authentication
import BearerGate.Proofs.Token.Agreement

namespace BearerGate

def CodePoint.isBase64Url (c : CodePoint) : Bool :=
  (0x41 ≤ c.val && c.val ≤ 0x5A) || (0x61 ≤ c.val && c.val ≤ 0x7A) ||
    (0x30 ≤ c.val && c.val ≤ 0x39) || c.val = 0x2D || c.val = 0x5F

namespace Compact

/-- Three non-empty segments of letters, with a dot between them. -/
def WellFormed (token : Text) : Prop :=
  ∃ h p s, Segmented token h p s ∧ ∀ c ∈ h ++ p ++ s, c.isBase64Url = true

/-- A segment that has a UTF-8 form in which no group of letters stays open. -/
def Readable (segment : Text) : Prop :=
  ∃ bytes, Utf8.encode? segment = some bytes ∧ Base64.Complete (Base64.padded bytes)

/-- Three readable segments, the first an object that names a key by a text, or none. -/
structure Passes (token header payload signature : Text) : Prop where
  segmented : Segmented token header payload signature
  named : ∃ members, Tells header members ∧
    (Table.get? (Text.ofString "kid") members = none ∨
      Table.get? (Text.ofString "kid") members = some .null ∨
      ∃ kid, Table.get? (Text.ofString "kid") members = some (.str kid))
  payload : Readable payload
  signature : Readable signature

/-- Characters that are neither letters nor pads nor dots, and whose bytes come in fours. -/
structure Noise (noise : Text) : Prop where
  undotted : ('.' : CodePoint) ∉ noise
  foreign : ∃ bytes, Utf8.encode? noise = some bytes ∧ bytes.length % 4 = 0 ∧
    ∀ b ∈ bytes, Base64.IsForeign b

variable {token h p s t noise : Text}

theorem readable_iff : Readable t ↔ ∃ bytes, bytesOf? t = some bytes := by
  simp only [Readable, ← Base64.isSome_decodeSegment?_iff, Option.isSome_iff_exists, bytesOf?,
    Option.bind_eq_some_iff]
  constructor
  · rintro ⟨written, hw, bytes, hb⟩
    exact ⟨bytes, written, hw, hb⟩
  · rintro ⟨bytes, written, hw, hb⟩
    exact ⟨written, hw, bytes, hb⟩

theorem encodePoint_of_isBase64Url {c : CodePoint} (h : c.isBase64Url = true) :
    ∃ b, Utf8.encodePoint c = some [b] ∧ Base64.isLetter b = true := by
  simp only [CodePoint.isBase64Url, Bool.or_eq_true, Bool.and_eq_true, decide_eq_true_eq] at h
  have hascii : c.val < 0x80 := by omega
  have hbyte : (Utf8.byte c.val).toNat = c.val := by
    simp only [Utf8.byte, UInt8.toNat_ofNat']
    omega
  refine ⟨Utf8.byte c.val, by rw [Utf8.encodePoint, if_pos hascii], ?_⟩
  -- Each range of the alphabet is a branch of `sextet?`, and none of them gives nothing.
  simp only [Base64.isLetter, Base64.sextet?, hbyte]
  rcases h with (((h | h) | h) | h) | h <;> split_ifs <;> first | rfl | omega

theorem encode?_of_letters (h : ∀ c ∈ t, c.isBase64Url = true) :
    ∃ bytes, Utf8.encode? t = some bytes ∧ bytes.length = t.length ∧
      ∀ b ∈ bytes, Base64.isLetter b = true := by
  induction t with
  | nil => exact ⟨[], rfl, rfl, by simp⟩
  | cons c t ih =>
    obtain ⟨hc, ht⟩ := List.forall_mem_cons.mp h
    obtain ⟨b, hb, hletter⟩ := encodePoint_of_isBase64Url hc
    obtain ⟨bytes, hbytes, hlength, hletters⟩ := ih ht
    refine ⟨[b] ++ bytes, Utf8.encode?_cons_eq_some_iff.mpr ⟨_, _, hb, hbytes, rfl⟩, ?_, ?_⟩
    · simp [hlength]
    · simpa [hletter] using hletters

theorem readable_of_letters (h : ∀ c ∈ t, c.isBase64Url = true) :
    Readable t ↔ t.length % 4 ≠ 1 := by
  obtain ⟨bytes, hbytes, hlength, hletters⟩ := encode?_of_letters h
  rw [← hlength, ← Base64.complete_padded_iff hletters]
  simp only [Readable, hbytes, Option.some.injEq, exists_eq_left']

theorem Segmented.unique {h' p' s' : Text} (hs : Segmented token h p s)
    (hs' : Segmented token h' p' s') : h = h' ∧ p = p' ∧ s = s' := by
  have hparts := Text.splitOn_eq_three_iff.mpr ⟨hs.joined, hs.undotted⟩
  have hparts' := Text.splitOn_eq_three_iff.mpr ⟨hs'.joined, hs'.undotted⟩
  simpa using hparts.symm.trans hparts'

theorem Segmented.letters_iff (hs : Segmented token h p s) :
    (∀ c ∈ token, c.isBase64Url = true ∨ c = ('.' : CodePoint)) ↔
      ∀ c ∈ h ++ p ++ s, c.isBase64Url = true := by
  constructor
  · intro hall c hc
    -- No segment has a dot inside, so what is in one is not the dot that `hall` lets through.
    have hdot : c ≠ ('.' : CodePoint) := by
      rintro rfl
      simp [hs.undotted] at hc
    refine (hall c ?_).resolve_right hdot
    rw [hs.joined]
    simp only [List.mem_append, List.mem_cons] at hc ⊢
    rcases hc with (hc | hc) | hc <;> simp [hc]
  · intro hall c hc
    rw [hs.joined] at hc
    simp only [List.mem_append, List.mem_cons] at hc hall
    rcases hc with hc | rfl | hc | rfl | hc
    · exact .inl (hall c (.inl (.inl hc)))
    · exact .inr rfl
    · exact .inl (hall c (.inl (.inr hc)))
    · exact .inr rfl
    · exact .inl (hall c (.inr hc))

theorem bytesOf?_append_noise (hn : Noise noise) {bytes : Bytes} (h : bytesOf? t = some bytes) :
    bytesOf? (t ++ noise) = some bytes := by
  obtain ⟨x, hx, hfours, hforeign⟩ := hn.foreign
  obtain ⟨written, hw, hb⟩ := Option.bind_eq_some_iff.mp h
  have henc := Utf8.encode?_append_eq_some_iff.mpr ⟨written, x, hw, hx, rfl⟩
  rw [bytesOf?_of_encode? henc, Base64.decodeSegment?_append_foreign hforeign hfours, hb]

theorem Tells.append_noise {members : Members} (hn : Noise noise) (ht : Tells t members) :
    Tells (t ++ noise) members :=
  ht.imp fun _ hb => ⟨bytesOf?_append_noise hn hb.1, hb.2⟩

/-- A token with noise behind each of its segments. -/
def noised (h p s n₁ n₂ n₃ : Text) : Text :=
  (h ++ n₁) ++ ('.' : CodePoint) :: ((p ++ n₂) ++ ('.' : CodePoint) :: (s ++ n₃))

theorem Segmented.noised {n₁ n₂ n₃ : Text} (hs : Segmented token h p s) (h₁ : Noise n₁)
    (h₂ : Noise n₂) (h₃ : Noise n₃) :
    Segmented (noised h p s n₁ n₂ n₃) (h ++ n₁) (p ++ n₂) (s ++ n₃) where
  joined := rfl
  nonempty := by simp [hs.nonempty]
  undotted := by simp [hs.undotted, h₁.undotted, h₂.undotted, h₃.undotted]

theorem Opens.noised {members : Members} {n₁ n₂ n₃ : Text} (ho : Opens token members)
    (hs : Segmented token h p s) (h₁ : Noise n₁) (h₂ : Noise n₂) (h₃ : Noise n₃) :
    Opens (noised h p s n₁ n₂ n₃) members := by
  obtain ⟨_, c, hread, rfl⟩ := opens_iff_read.mp ho
  obtain ⟨hh, hp, hsig, _⟩ := hs.divided.read_eq_ok_iff.mp hread
  exact ⟨_, _, _, _, _, hs.noised h₁ h₂ h₃, hh.append_noise h₁, bytesOf?_append_noise h₂ hp,
    bytesOf?_append_noise h₃ hsig⟩

/-- Noise behind the signature is outside of what is signed. -/
theorem read_append_noise (hn : Noise noise) {c : Compact} (hseg : Segmented token h p s)
    (hr : read token = .ok c) : read (token ++ noise) = .ok c := by
  obtain ⟨hh, hp, hsig, hsigned⟩ := hseg.divided.read_eq_ok_iff.mp hr
  -- The noise has no dot, so the last dot of the token is still the one before its signature.
  have hd : Divided (token ++ noise) h p (s ++ noise) := by
    refine ⟨by simp [hseg.joined], hseg.undotted.1, ?_⟩
    simp [hseg.undotted.2.2, hn.undotted]
  exact hd.read_eq_ok_iff.mpr ⟨hh, hp, bytesOf?_append_noise hn hsig, hsigned⟩

end Compact

namespace Gate

theorem authenticate_of_malformed {authorization : Option Text} {token : Text}
    (hc : Bearer.token? authorization = some token)
    (ht : TokenHeader.ofToken token = .error .malformedToken) (g : Gate) (clock : Clock)
    (server : KeyServer) (cache : Cache) :
    g.authenticate clock server authorization cache =
      { result := .error (.rejected .malformedToken)
        cache := cache
        requests := []
        journal := [failedAuthenticationNote .malformedToken] } := by
  apply authenticate_of_rejected
  simp only [verifiedPayload, hc, ht]

end Gate

namespace TokenHeader

section

variable {token h p s : Text}

theorem ofToken_ne_malformed_iff :
    ofToken token ≠ .error .malformedToken ↔ ∃ h p s, Compact.Passes token h p s := by
  rw [ne_eq, ofToken_eq_malformed_iff, not_not]
  simp only [ofMembers_ne_malformed_iff]
  constructor
  · rintro ⟨members, ⟨h, p, s, payload, signature, hseg, hh, hp, hs⟩, hkid⟩
    exact ⟨h, p, s, hseg, ⟨members, hh, hkid⟩, Compact.readable_iff.mpr ⟨payload, hp⟩,
      Compact.readable_iff.mpr ⟨signature, hs⟩⟩
  · rintro ⟨h, p, s, hseg, ⟨members, hh, hkid⟩, hp, hs⟩
    obtain ⟨payload, hp⟩ := Compact.readable_iff.mp hp
    obtain ⟨signature, hs⟩ := Compact.readable_iff.mp hs
    exact ⟨members, ⟨h, p, s, payload, signature, hseg, hh, hp, hs⟩, hkid⟩

theorem ofToken_ne_malformed_iff_of_segmented (hseg : Compact.Segmented token h p s) :
    ofToken token ≠ .error .malformedToken ↔ Compact.Passes token h p s := by
  rw [ofToken_ne_malformed_iff]
  constructor
  · rintro ⟨h', p', s', hpass⟩
    obtain ⟨rfl, rfl, rfl⟩ := hseg.unique hpass.segmented
    exact hpass
  · exact fun hpass => ⟨h, p, s, hpass⟩

theorem opens_of_ne_malformed (ht : ofToken token ≠ .error .malformedToken) :
    ∃ members, Compact.Opens token members := by
  by_contra hno
  exact ht (ofToken_of_not_opens hno)

/-- Readable segments pass, whatever else than letters and dots is in them; the rest asks for
nothing. -/
theorem tokens_pass_leniently (token : Text) :
    (ofToken token ≠ .error .malformedToken ↔ ∃ h p s, Compact.Passes token h p s) ∧
    (ofToken token ≠ .error .malformedToken →
      (Compact.WellFormed token ↔ ∀ c ∈ token, c.isBase64Url = true ∨ c = ('.' : CodePoint))) ∧
    (∀ h p s, Compact.Segmented token h p s → (∀ c ∈ h ++ p ++ s, c.isBase64Url = true) →
      (ofToken token ≠ .error .malformedToken ↔
        p.length % 4 ≠ 1 ∧ s.length % 4 ≠ 1 ∧ ∃ members, Compact.Tells h members ∧
          (Table.get? (Text.ofString "kid") members = none ∨
            Table.get? (Text.ofString "kid") members = some .null ∨
            ∃ kid, Table.get? (Text.ofString "kid") members = some (.str kid)))) ∧
    (ofToken token ≠ .error .malformedToken →
      (∀ h p s n₁ n₂ n₃, Compact.Segmented token h p s → Compact.Noise n₁ → Compact.Noise n₂ →
        Compact.Noise n₃ → ofToken (Compact.noised h p s n₁ n₂ n₃) = ofToken token) ∧
      ∀ noise, Compact.Noise noise → ∀ key issuer now,
        Verification.verify (token ++ noise) key issuer now =
          Verification.verify token key issuer now) ∧
    (ofToken token = .error .malformedToken →
      ∀ authorization, Bearer.token? authorization = some token → ∀ g clock server cache,
        Gate.authenticate g clock server authorization cache =
          { result := .error (.rejected .malformedToken)
            cache := cache
            requests := []
            journal := [Gate.failedAuthenticationNote .malformedToken] }) := by
  refine ⟨ofToken_ne_malformed_iff, fun ht => ?_, fun h p s hseg hletters => ?_, fun ht => ⟨?_, ?_⟩,
    fun ht authorization hc g clock server cache =>
      Gate.authenticate_of_malformed hc ht g clock server cache⟩
  · obtain ⟨h, p, s, hpass⟩ := ofToken_ne_malformed_iff.mp ht
    constructor
    · rintro ⟨h', p', s', hseg, hletters⟩
      exact hseg.letters_iff.mpr hletters
    · exact fun hall => ⟨h, p, s, hpass.segmented, hpass.segmented.letters_iff.mp hall⟩
  · have hp : ∀ c ∈ p, c.isBase64Url = true := fun c hc => hletters c (by simp [hc])
    have hs : ∀ c ∈ s, c.isBase64Url = true := fun c hc => hletters c (by simp [hc])
    rw [ofToken_ne_malformed_iff_of_segmented hseg, ← Compact.readable_of_letters hp,
      ← Compact.readable_of_letters hs]
    exact ⟨fun hpass => ⟨hpass.payload, hpass.signature, hpass.named⟩,
      fun ⟨hpay, hsig, hnamed⟩ => ⟨hseg, hnamed, hpay, hsig⟩⟩
  · intro h p s n₁ n₂ n₃ hseg h₁ h₂ h₃
    obtain ⟨members, ho⟩ := opens_of_ne_malformed ht
    rw [ofToken_of_opens ho, ofToken_of_opens (ho.noised hseg h₁ h₂ h₃)]
  · intro noise hn key issuer now
    obtain ⟨members, ho⟩ := opens_of_ne_malformed ht
    obtain ⟨⟨h, p, s, hseg⟩, c, hread, _⟩ := Compact.opens_iff_read.mp ho
    have hboth := (Compact.read_append_noise hn hseg hread).trans hread.symm
    simp only [Verification.verify, Verification.verifyRsa, hboth]

end

namespace Sample

/-- Four characters inside of the header segment that are no letters. -/
def strayed : Text := Text.ofString "eyJraWQiOi!!!!JhYmNkIiwiYWxnIjoiUlMyNTYifQ.e30.c2ln"

theorem segmented_strayed : Compact.Segmented strayed
    (Text.ofString "eyJraWQiOi!!!!JhYmNkIiwiYWxnIjoiUlMyNTYifQ") (Text.ofString "e30")
    (Text.ofString "c2ln") :=
  ⟨by decide, by decide, by decide⟩

theorem named_strayed :
    ofToken strayed = .ok ⟨some (Text.ofString "RS256"), Text.ofString "abcd"⟩ := by
  decide +kernel

def noise : Text := Text.ofString "!é!"

theorem isNoise : Compact.Noise noise := by
  refine ⟨by decide, [0x21, 0xC3, 0xA9, 0x21], by decide, rfl, ?_⟩
  simp only [List.forall_mem_cons]
  exact ⟨by decide, by decide, by decide, by decide, by simp⟩

def bare : Text := Text.ofString "e30.e30.e30"

theorem segmented_bare : Compact.Segmented bare (Text.ofString "e30") (Text.ofString "e30")
    (Text.ofString "e30") :=
  ⟨by decide, by decide, by decide⟩

theorem letters_bare : ∀ c ∈ Text.ofString "e30" ++ Text.ofString "e30" ++ Text.ofString "e30",
    c.isBase64Url = true :=
  List.all_eq_true.mp (by decide)

end Sample

/-- A text passes that is not written in letters and dots alone. -/
theorem strayed_token_passes :
    ¬(ofToken Sample.strayed ≠ .error .malformedToken → Compact.WellFormed Sample.strayed) := by
  intro h
  obtain ⟨_, _, _, hseg, hletters⟩ := h (by simp [Sample.named_strayed])
  obtain ⟨rfl, rfl, rfl⟩ := Sample.segmented_strayed.unique hseg
  exact absurd (hletters ('!' : CodePoint) (by decide)) (by decide)

/-- The token is verified with noise behind its signature, and two segments do not pass. -/
theorem sample_tokens_pass_leniently :
    (∃ payload,
      Verification.verify (Sample.token ++ Sample.noise) Sample.key Issuer.sample 0 = .ok payload) ∧
    (ofToken Sample.bare ≠ .error .malformedToken ∧ Compact.WellFormed Sample.bare) ∧
    (Gate.authenticate ⟨Issuer.sample, none, 0⟩ ⟨0, 0⟩ .hangs (some (Text.ofString "Bearer a.b"))
      none).requests = [] := by
  obtain ⟨_, _, _, hnoise, _⟩ := tokens_pass_leniently Sample.token
  obtain ⟨_, hwritten, hletters, _⟩ := tokens_pass_leniently Sample.bare
  obtain ⟨_, _, _, _, hrejected⟩ := tokens_pass_leniently (Text.ofString "a.b")
  refine ⟨?_, ?_, ?_⟩
  · obtain ⟨payload, hv⟩ := Sample.verified
    have hsame := (hnoise (by simp [Sample.named])).2 _ Sample.isNoise Sample.key Issuer.sample 0
    exact ⟨payload, hsame.trans hv⟩
  · have hpasses : ofToken Sample.bare ≠ .error .malformedToken := by
      refine (hletters _ _ _ Sample.segmented_bare Sample.letters_bare).mpr
        ⟨by decide, by decide, [], ?_, ?_⟩
      · exact ⟨[0x7B, 0x7D], by decide +kernel, by decide +kernel⟩
      · exact .inl rfl
    have hall := Sample.segmented_bare.letters_iff.mpr Sample.letters_bare
    exact ⟨hpasses, (hwritten hpasses).mpr hall⟩
  · rw [hrejected (by decide +kernel) _ (by decide +kernel)]

end TokenHeader

end BearerGate
