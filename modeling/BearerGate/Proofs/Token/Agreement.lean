import BearerGate.Proofs.Token.Verdict

namespace BearerGate

namespace Compact

/-- Three non-empty segments that all decode, the first of them to this object. -/
def Opens (token : Text) (members : Members) : Prop :=
  ∃ h p s payload signature, Segmented token h p s ∧ Tells h members ∧
    bytesOf? p = some payload ∧ bytesOf? s = some signature

variable {token : Text} {members : Members}

theorem encode?_of_bytesOf? {t : Text} {bytes : Bytes} (h : bytesOf? t = some bytes) :
    ∃ written, Utf8.encode? t = some written := by
  obtain ⟨written, hw, _⟩ := Option.bind_eq_some_iff.mp h
  exact ⟨written, hw⟩

theorem opens_iff_read :
    Opens token members ↔
      (∃ h p s, Segmented token h p s) ∧ ∃ c, read token = .ok c ∧ c.header = members := by
  constructor
  · rintro ⟨h, p, s, payload, signature, hseg, hh, hp, hs⟩
    have ⟨_, hbytes, _⟩ := hh
    obtain ⟨x, hx⟩ := encode?_of_bytesOf? hbytes
    obtain ⟨y, hy⟩ := encode?_of_bytesOf? hp
    have hsigned := encode?_append_dot.mpr ⟨x, y, hx, hy, rfl⟩
    have hread : read token = .ok ⟨members, payload, signature, x ++ dot :: y⟩ :=
      hseg.divided.read_eq_ok_iff.mpr ⟨hh, hp, hs, hsigned⟩
    exact ⟨⟨h, p, s, hseg⟩, _, hread, rfl⟩
  · rintro ⟨⟨h, p, s, hseg⟩, c, hread, rfl⟩
    obtain ⟨hh, hp, hs, _⟩ := hseg.divided.read_eq_ok_iff.mp hread
    exact ⟨h, p, s, _, _, hseg, hh, hp, hs⟩

end Compact

namespace TokenHeader

/-- What an object says as the header of a token. -/
def ofMembers (members : Members) : Except Rejection TokenHeader :=
  match Table.get? (Text.ofString "kid") members with
  | none | some .null => .error .noKeyNamed
  | some (.str kid) => .ok ⟨(Table.get? (Text.ofString "alg") members).bind Json.str?, kid⟩
  | some _ => .error .malformedToken

section

variable {token : Text} {members : Members}

theorem ofMembers_eq_ok_iff {header : TokenHeader} :
    ofMembers members = .ok header ↔
      Table.get? (Text.ofString "kid") members = some (.str header.kid) ∧
        (Table.get? (Text.ofString "alg") members).bind Json.str? = header.algorithm := by
  obtain ⟨algorithm, kid⟩ := header
  unfold ofMembers
  split <;> simp_all [and_comm]

theorem ofMembers_eq_noKeyNamed_iff :
    ofMembers members = .error .noKeyNamed ↔
      Table.get? (Text.ofString "kid") members = none ∨
        Table.get? (Text.ofString "kid") members = some .null := by
  unfold ofMembers
  split <;> simp_all

theorem ofMembers_ne_malformed_iff :
    ofMembers members ≠ .error .malformedToken ↔
      Table.get? (Text.ofString "kid") members = none ∨
        Table.get? (Text.ofString "kid") members = some .null ∨
        ∃ kid, Table.get? (Text.ofString "kid") members = some (.str kid) := by
  unfold ofMembers
  split <;> simp_all

theorem ofToken_of_opens (h : Compact.Opens token members) : ofToken token = ofMembers members := by
  obtain ⟨hseg, c, hread, rfl⟩ := Compact.opens_iff_read.mp h
  simp only [ofToken, if_neg (Compact.segmented_iff.mp hseg), hread]
  rfl

theorem ofToken_of_not_opens (h : ¬∃ members, Compact.Opens token members) :
    ofToken token = .error .malformedToken := by
  by_cases hseg : ∃ h p s, Compact.Segmented token h p s
  · cases hread : Compact.read token with
    | error e => simp only [ofToken, if_neg (Compact.segmented_iff.mp hseg), hread]
    | ok c => exact absurd ⟨c.header, Compact.opens_iff_read.mpr ⟨hseg, c, hread, rfl⟩⟩ h
  · have hbad := not_not.mp fun hn => hseg (Compact.segmented_iff.mpr hn)
    simp only [ofToken, if_pos hbad]

theorem ofToken_eq_iff_of_ne {r : Except Rejection TokenHeader}
    (hr : r ≠ .error .malformedToken) :
    ofToken token = r ↔ ∃ members, Compact.Opens token members ∧ ofMembers members = r := by
  constructor
  · intro h
    by_cases hopens : ∃ members, Compact.Opens token members
    · obtain ⟨members, hm⟩ := hopens
      exact ⟨members, hm, (ofToken_of_opens hm).symm.trans h⟩
    · exact absurd (h.symm.trans (ofToken_of_not_opens hopens)) hr
  · rintro ⟨members, hm, h⟩
    exact (ofToken_of_opens hm).trans h

theorem ofToken_eq_malformed_iff :
    ofToken token = .error .malformedToken ↔
      ¬∃ members, Compact.Opens token members ∧ ofMembers members ≠ .error .malformedToken := by
  constructor
  · rintro h ⟨members, hm, hne⟩
    exact hne ((ofToken_of_opens hm).symm.trans h)
  · intro hno
    by_cases hopens : ∃ members, Compact.Opens token members
    · obtain ⟨members, hm⟩ := hopens
      rw [ofToken_of_opens hm]
      by_contra hne
      exact hno ⟨members, hm, hne⟩
    · exact ofToken_of_not_opens hopens

/-- A verified token is, segment by segment, the one whose header was read. -/
theorem verified_of_ofToken {header : TokenHeader} {h p s : Text} {key : PublishedKey}
    {issuer : Issuer} {now : Int} {payload : Payload} (hh : ofToken token = .ok header)
    (hseg : Compact.Segmented token h p s)
    (hv : Verification.verify token key issuer now = .ok payload) :
    header.algorithm = some (Text.ofString "RS256") ∧ Compact.Announces h header.kid ∧
      Compact.Tells p payload ∧ ∃ modulus exponent,
        key.parameters = .rsa modulus exponent ∧ Compact.SignedUnder modulus exponent h p s := by
  obtain ⟨modulus, exponent, c, hrsa, hsigned, hp, _⟩ := Verification.verify_eq_ok_iff.mp hv
  obtain ⟨_, _, _, hunder, htells⟩ := hseg.divided.signed_iff.mp ⟨c, hsigned, hp⟩
  obtain ⟨_, _, _, c', _, hread, _, halg⟩ := ofToken_eq_ok_iff.mp hh
  cases Except.ok.inj (hread.symm.trans hsigned.read)
  refine ⟨?_, hseg.announces hh hsigned, htells, modulus, exponent, hrsa, hunder⟩
  rw [← halg, hsigned.algorithm]
  rfl

/-- The header that is read first is the one that is verified. An object is what `Json.read` reads,
within its limits of depth and digits. -/
theorem readers_agree (token : Text) :
    (∀ header, ofToken token = .ok header ↔ ∃ members, Compact.Opens token members ∧
      Table.get? (Text.ofString "kid") members = some (.str header.kid) ∧
      (Table.get? (Text.ofString "alg") members).bind Json.str? = header.algorithm) ∧
    (ofToken token = .error .noKeyNamed ↔ ∃ members, Compact.Opens token members ∧
      (Table.get? (Text.ofString "kid") members = none ∨
        Table.get? (Text.ofString "kid") members = some .null)) ∧
    (ofToken token = .error .malformedToken ↔ ¬∃ members, Compact.Opens token members ∧
      (Table.get? (Text.ofString "kid") members = none ∨
        Table.get? (Text.ofString "kid") members = some .null ∨
        ∃ kid, Table.get? (Text.ofString "kid") members = some (.str kid))) ∧
    ∀ header h p s, ofToken token = .ok header → Compact.Segmented token h p s →
      (∃ c, Compact.read token = .ok c ∧ Compact.Tells h c.header ∧
        Compact.bytesOf? p = some c.payload ∧ Compact.bytesOf? s = some c.signature) ∧
      ∀ key issuer now payload, Verification.verify token key issuer now = .ok payload →
        header.algorithm = some (Text.ofString "RS256") ∧ Compact.Announces h header.kid ∧
        Compact.Tells p payload ∧ ∃ modulus exponent,
          key.parameters = .rsa modulus exponent ∧ Compact.SignedUnder modulus exponent h p s := by
  refine ⟨fun header => ?_, ?_, ?_, fun header h p s hh hseg => ⟨?_, ?_⟩⟩
  · refine (ofToken_eq_iff_of_ne (by simp)).trans ?_
    simp only [ofMembers_eq_ok_iff]
  · refine (ofToken_eq_iff_of_ne (by simp)).trans ?_
    simp only [ofMembers_eq_noKeyNamed_iff]
  · simp only [ofToken_eq_malformed_iff, ofMembers_ne_malformed_iff]
  · obtain ⟨_, _, _, c, _, hread, _⟩ := ofToken_eq_ok_iff.mp hh
    obtain ⟨htells, hp, hs, _⟩ := hseg.divided.read_eq_ok_iff.mp hread
    exact ⟨c, hread, htells, hp, hs⟩
  · exact fun key issuer now payload hv => verified_of_ofToken hh hseg hv

end

namespace Sample

/-- Two characters outside of the alphabet, one of them outside of ASCII. -/
def headerSegment : Text := Text.ofString "eyJhbGciOi!JSUzI1NiIséImtpZCI6ImtrayJ9"

def payloadSegment : Text :=
  Text.ofString "eyJhdWQiOiJhIiwiZXhwIjo5LCJpc3MiOiJodHRwczovL2gvIiwic3ViIjoicyJ9"

def signatureSegment : Text := Text.ofString
  "AAAAAAAAAAAAAAAAAAAAAAAAAAAAAAAAAAAAAAAAAAAAAAAAAAAAAAAXE3RJEj7NAAAAAAAAAAAAAAAAAAE"

def token : Text :=
  headerSegment ++ ('.' : CodePoint) :: (payloadSegment ++ ('.' : CodePoint) :: signatureSegment)

def key : PublishedKey := ⟨some (Text.ofString "kkk"), .rsa
  (Text.ofString
    "L_3____-_eLO65jb9uCIOTSquI0E2H4ayNXdpj6RXac_WcyPFrBoKAd5oMvyxE7baD5CYoY31qnjAeBhDTc")
  (Text.ofString "Aw")⟩

theorem named : ofToken token = .ok ⟨some (Text.ofString "RS256"), Text.ofString "kkk"⟩ := by
  decide +kernel

theorem segmented : Compact.Segmented token headerSegment payloadSegment signatureSegment :=
  ⟨rfl, by decide, by decide⟩

theorem verified : ∃ payload, Verification.verify token key .sample 0 = .ok payload := by
  have hok : (Verification.verify token key .sample 0).isOk = true := by decide +kernel
  cases hv : Verification.verify token key .sample 0 with
  | error e =>
    rw [hv] at hok
    cases hok
  | ok payload => exact ⟨payload, rfl⟩

end Sample

/-- The token is verified although both readers pass over characters in its header. -/
theorem sample_readers_agree :
    ∃ payload, Verification.verify Sample.token Sample.key Issuer.sample 0 = .ok payload ∧
      Compact.Announces Sample.headerSegment (Text.ofString "kkk") ∧
      Compact.Tells Sample.payloadSegment payload := by
  obtain ⟨payload, hv⟩ := Sample.verified
  obtain ⟨_, _, _, hagree⟩ := readers_agree Sample.token
  obtain ⟨_, hannounces, htells, _⟩ :=
    (hagree _ _ _ _ Sample.named Sample.segmented).2 _ _ _ _ hv
  exact ⟨payload, hv, hannounces, htells⟩

end TokenHeader

end BearerGate
