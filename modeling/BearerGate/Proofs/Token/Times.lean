import BearerGate.Proofs.Token.Acceptance

namespace BearerGate

namespace Json

inductive IsNumber : Json → Prop
  | whole (n : Int) : IsNumber (.num (.whole n))
  | real (negative : Bool) (mantissa : Nat) (exponent : Int) :
    IsNumber (.num (.real (.finite negative mantissa exponent)))

/-- The values besides the numbers that are read as a time. -/
inductive StandsFor : Json → Int → Prop
  | truth : StandsFor (.bool true) 1
  | falsity : StandsFor (.bool false) 0
  | written {t : Text} {n : Int} (h : Text.toInt? t = some n) : StandsFor (.str t) n

end Json

theorem instant_eq_ok_iff_standsFor {v : Json} (h : ¬v.IsNumber) {n : Int} :
    instant v = .ok n ↔ v.StandsFor n := by
  constructor
  · intro hi
    unfold instant at hi
    split at hi
    next b =>
      cases b <;> cases hi
      · exact .falsity
      · exact .truth
    next m => exact absurd (.whole m) h
    next negative m e => exact absurd (.real negative m e) h
    next => simp at hi
    next t =>
      split at hi
      next m hm =>
        cases hi
        exact .written hm
      next => simp at hi
    next => simp at hi
  · intro hs
    cases hs with
    | truth => rfl
    | falsity => rfl
    | written hw => simp only [instant, hw]

theorem Payload.Acceptable.instant_of_claim {issuer : Issuer} {now : Int} {p : Payload}
    (h : p.Acceptable issuer now) {name : String} (hname : name ∈ ["exp", "nbf", "iat"]) {v : Json}
    (hv : p.claim? name = some v) : ∃ n, instant v = .ok n := by
  simp only [List.mem_cons, List.not_mem_nil, or_false] at hname
  rcases hname with rfl | rfl | rfl
  · exact (h.expiry.2 v hv).imp fun _ ht => ht.1
  · exact (h.notBefore v hv).imp fun _ ht => ht.1
  · exact (h.issuedAt v hv).imp fun _ ht => ht.1

namespace Verification

section

variable {token modulus exponent : Text} {key : PublishedKey} {issuer : Issuer} {now : Int}
  {c : Compact} {p : Payload}

/-- Of a token that is signed well only the claims are left to decide. -/
theorem verify_of_signed (hrsa : key.parameters = .rsa modulus exponent)
    (hsigned : Signed token modulus exponent c) (htells : Compact.readObject c.payload = .ok p) :
    verify token key issuer now =
      match checkClaims issuer now p with
      | .error e => .error (ofRefusal e)
      | .ok () => .ok p := by
  obtain ⟨hread, halg, publicKey, hkey, hverifies⟩ := hsigned
  have hholds := signatureHolds_iff.mpr ⟨halg, hverifies⟩
  cases hc : checkClaims issuer now p <;>
    simp only [verify, hrsa, verifyRsa, hkey, hread, hholds, if_true, htells, hc]

theorem checkClaims_eq_unverified_iff :
    checkClaims issuer now p = .error .unverified ↔
      ¬p.Acceptable issuer now ∧ ¬p.IsEndless now := by
  rw [← checkClaims_eq_ok_iff, ← @checkClaims_eq_infinite_iff issuer]
  rcases checkClaims issuer now p with (_ | _) | ⟨⟩ <;> simp

/-- A time that is no finite number is rejected unless it is read as one all the same or endless. -/
theorem unnumbered_times_judged {name : String} {v : Json}
    (hrsa : key.parameters = .rsa modulus exponent) (hsigned : Signed token modulus exponent c)
    (htells : Compact.readObject c.payload = .ok p) (hname : name ∈ ["exp", "nbf", "iat"])
    (hv : p.claim? name = some v) (hno : ¬v.IsNumber) :
    (verify token key issuer now = .error (.rejected .unverified) ↔
      ¬((∃ n, v.StandsFor n) ∧ p.Acceptable issuer now) ∧ ¬p.IsEndless now) ∧
    (∀ payload, verify token key issuer now = .ok payload ↔
      payload = p ∧ (∃ n, v.StandsFor n) ∧ p.Acceptable issuer now) ∧
    ∀ f, verify token key issuer now = .error (.faulted f) ↔
      f = .infiniteInstant ∧ p.IsEndless now := by
  have htime : (∃ n, v.StandsFor n) ∧ p.Acceptable issuer now ↔ p.Acceptable issuer now := by
    refine ⟨And.right, fun h => ⟨?_, h⟩⟩
    obtain ⟨n, hn⟩ := h.instant_of_claim hname hv
    exact ⟨n, (instant_eq_ok_iff_standsFor hno).mp hn⟩
  rw [htime, verify_of_signed hrsa hsigned htells, ← checkClaims_eq_unverified_iff,
    ← checkClaims_eq_ok_iff, ← @checkClaims_eq_infinite_iff issuer]
  rcases checkClaims issuer now p with (_ | _) | ⟨⟩ <;> simp [ofRefusal, eq_comm]

end

namespace Sample

def modulus : Text := Text.ofString
  "TkXZBufWOY44kR6AMOtj1JiLmZPnMnBaPWYBclmwMCq-IGrJqTe88THpyZXqwApOSVbKpzAOufQbmzMil4c"

def key : PublishedKey := ⟨some (Text.ofString "k"), .rsa modulus (Text.ofString "Aw")⟩

/-- A token whose payload has the text `9` for its expiry. -/
def token : Text := Text.ofString ("eyJhbGciOiJSUzI1NiIsImtpZCI6ImsifQ." ++
  "eyJhdWQiOiJhIiwiZXhwIjoiOSIsImlzcyI6Imh0dHBzOi8vaC8iLCJzdWIiOiJzIn0." ++
  "AAAAAAAAAAAAAAAAAAAAAAAAAAAAAAAAAAAAAAAAAAAAAAAAAAAAAAAbKYVhAjudwOEyixYjbgVHY6Lb000")

def payload : Payload :=
  [("aud", "a"), ("exp", "9"), ("iss", "https://h/"), ("sub", "s")].map fun (name, value) =>
    (Text.ofString name, .str (Text.ofString value))

theorem verified : verify token key .sample 0 = .ok payload := by decide +kernel

theorem signed : ∃ c, Signed token modulus (Text.ofString "Aw") c ∧
    Compact.readObject c.payload = .ok payload := by
  obtain ⟨_, _, c, hrsa, hsigned, htells, _⟩ := verify_eq_ok_iff.mp verified
  cases hrsa
  exact ⟨c, hsigned, htells⟩

end Sample

/-- A text for an expiry is not rejected. -/
theorem written_expiry_accepted :
    ¬∀ c, Signed Sample.token Sample.modulus (Text.ofString "Aw") c →
      Compact.readObject c.payload = .ok Sample.payload →
      Sample.payload.claim? "exp" = some (.str (Text.ofString "9")) →
      verify Sample.token Sample.key Issuer.sample 0 = .error (.rejected .unverified) := by
  intro h
  obtain ⟨c, hsigned, htells⟩ := Sample.signed
  exact absurd (Sample.verified.symm.trans (h c hsigned htells rfl)) (by simp)

/-- The payload is given while the time that its text writes has not passed. -/
theorem sample_unnumbered_times_judged :
    verify Sample.token Sample.key Issuer.sample 0 = .ok Sample.payload ∧
    verify Sample.token Sample.key Issuer.sample 70 = .error (.rejected .unverified) := by
  obtain ⟨c, hsigned, htells⟩ := Sample.signed
  have hno : ¬(Json.str (Text.ofString "9")).IsNumber := by rintro ⟨⟩
  have hjudged (now : Int) := @unnumbered_times_judged _ _ _ Sample.key Issuer.sample now c
    Sample.payload "exp" (.str (Text.ofString "9")) rfl hsigned htells (by simp) rfl hno
  have hpassed : checkClaims Issuer.sample 70 Sample.payload = .error .unverified := by
    decide +kernel
  obtain ⟨hunacceptable, hends⟩ := checkClaims_eq_unverified_iff.mp hpassed
  constructor
  · exact ((hjudged 0).2.1 _).mpr
      ⟨rfl, ⟨9, .written (by decide)⟩, checkClaims_eq_ok_iff.mp (by decide +kernel)⟩
  · exact (hjudged 70).1.mpr ⟨fun h => hunacceptable h.2, hends⟩

end Verification

end BearerGate
