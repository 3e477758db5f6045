import BearerGate.Proofs.Token.Acceptance
import BearerGate.Proofs.Token.Segments

namespace BearerGate

namespace Compact

/-- The header segment is an object that names this key and the one algorithm accepted. -/
def Announces (header kid : Text) : Prop :=
  ∃ bytes members, bytesOf? header = some bytes ∧ readObject bytes = .ok members ∧
    Table.get? (Text.ofString "kid") members = some (.str kid) ∧
    Table.get? (Text.ofString "alg") members = some (.str (Text.ofString "RS256"))

/-- The signature segment signs the bytes of the two others, under the components of an RSA key. -/
def SignedUnder (modulus exponent header payload signature : Text) : Prop :=
  ∃ key signed bytes, Verification.publicKey? modulus exponent = some key ∧
    Utf8.encode? (header ++ ('.' : CodePoint) :: payload) = some signed ∧
    bytesOf? signature = some bytes ∧ Rsa.verifies key signed bytes = true

section

variable {token h p s modulus exponent : Text} {c : Compact} {payload : Payload}

/-- What is signed of a token that is divided are its parts, as they stand. -/
theorem Divided.signed_iff (hd : Divided token h p s) :
    (∃ c, Verification.Signed token modulus exponent c ∧ readObject c.payload = .ok payload) ↔
      ∃ header, Tells h header ∧
        Table.get? (Text.ofString "alg") header = some (.str (Text.ofString "RS256")) ∧
        SignedUnder modulus exponent h p s ∧ Tells p payload := by
  constructor
  · rintro ⟨c, ⟨hread, halg, key, hkey, hv⟩, hp⟩
    obtain ⟨hh, hpay, hsig, hsigned⟩ := hd.read_eq_ok_iff.mp hread
    exact ⟨c.header, hh, halg, ⟨key, _, _, hkey, hsigned, hsig, hv⟩, ⟨_, hpay, hp⟩⟩
  · rintro ⟨header, hh, halg, ⟨key, signed, signature, hkey, hsigned, hsig, hv⟩, bytes, hpay, hp⟩
    have hread : read token = .ok ⟨header, bytes, signature, signed⟩ :=
      hd.read_eq_ok_iff.mpr ⟨hh, hpay, hsig, hsigned⟩
    exact ⟨_, ⟨hread, halg, key, hkey, hv⟩, hp⟩

/-- Of a token whose header has been read, the first of its segments is that header. -/
theorem Segmented.announces {header : TokenHeader} (hseg : Segmented token h p s)
    (hh : TokenHeader.ofToken token = .ok header)
    (hs : Verification.Signed token modulus exponent c) : Announces h header.kid := by
  obtain ⟨_, _, _, c', _, hread, hkid, _⟩ := TokenHeader.ofToken_eq_ok_iff.mp hh
  cases Except.ok.inj (hread.symm.trans hs.read)
  obtain ⟨⟨bytes, hbytes, hms⟩, _⟩ := hseg.divided.read_eq_ok_iff.mp hs.read
  exact ⟨bytes, _, hbytes, hms, hkid, hs.algorithm⟩

theorem segments_of_signed {token modulus exponent : Text} {c : Compact} {header : TokenHeader}
    (hh : TokenHeader.ofToken token = .ok header)
    (hs : Verification.Signed token modulus exponent c) {p : Payload}
    (hp : readObject c.payload = .ok p) :
    ∃ h q s, Segmented token h q s ∧ Announces h header.kid ∧ SignedUnder modulus exponent h q s ∧
      Tells q p := by
  obtain ⟨h, q, s, _, hseg, _⟩ := TokenHeader.ofToken_eq_ok_iff.mp hh
  obtain ⟨_, _, _, hsigned, htells⟩ := hseg.divided.signed_iff.mp ⟨c, hs, hp⟩
  exact ⟨h, q, s, hseg, hseg.announces hh hs, hsigned, htells⟩

end

end Compact

namespace Verification

/-- What verification comes to, for every token and key. An object is what `Json.read` reads, within
its limits of depth and digits. -/
theorem verifies_exactly (token : Text) (key : PublishedKey) (issuer : Issuer) (now : Int) :
    (∀ family, verify token key issuer now = .error (.rejected (.unsupportedAlgorithm family)) ↔
      ∃ keyType curve, key.parameters = .other keyType curve ∧
        family = KeyParameters.describe keyType curve) ∧
    ∀ payload, verify token key issuer now = .ok payload ↔
      ∃ modulus exponent h p s header, key.parameters = .rsa modulus exponent ∧
        Compact.Divided token h p s ∧ Compact.Tells h header ∧
        Table.get? (Text.ofString "alg") header = some (.str (Text.ofString "RS256")) ∧
        Compact.SignedUnder modulus exponent h p s ∧ Compact.Tells p payload ∧
        payload.Acceptable issuer now := by
  refine ⟨fun family => verify_eq_unsupported_iff, fun payload => ?_⟩
  rw [verify_eq_ok_iff]
  constructor
  · rintro ⟨modulus, exponent, c, hrsa, hsigned, hp, hok⟩
    obtain ⟨h, p, s, hd, _⟩ := Compact.read_eq_ok_iff.mp hsigned.read
    obtain ⟨header, hh, halg, hunder, htells⟩ := hd.signed_iff.mp ⟨c, hsigned, hp⟩
    exact ⟨modulus, exponent, h, p, s, header, hrsa, hd, hh, halg, hunder, htells, hok⟩
  · rintro ⟨modulus, exponent, h, p, s, header, hrsa, hd, hh, halg, hunder, htells, hok⟩
    obtain ⟨c, hsigned, hp⟩ := hd.signed_iff.mpr ⟨header, hh, halg, hunder, htells⟩
    exact ⟨modulus, exponent, c, hrsa, hsigned, hp, hok⟩

end Verification

end BearerGate
