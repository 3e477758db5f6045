import BearerGate.Claims

namespace BearerGate

namespace Payload

/-- A claim, if it is there, tells a time for which `holds`. -/
def TellsTime (p : Payload) (name : String) (holds : Int → Prop) : Prop :=
  ∀ v, p.claim? name = some v → ∃ n, instant v = .ok n ∧ holds n

def TellsNoTime (p : Payload) (name : String) : Prop :=
  ∃ negative, p.claim? name = some (.num (.real (.infinite negative)))

/-- What a payload has to say to be accepted at the time `now`. -/
structure Acceptable (issuer : Issuer) (now : Int) (p : Payload) : Prop where
  audience : p.claim? "aud" = some (.str issuer.audience) ∨
    ∃ items, p.claim? "aud" = some (.arr items) ∧ (∀ v ∈ items, ∃ t, v = .str t) ∧
      .str issuer.audience ∈ items
  issuer : p.claim? "iss" = some (.str issuer.url)
  expiry : (∃ v, p.claim? "exp" = some v) ∧ p.TellsTime "exp" (now - 60 ≤ ·)
  notBefore : p.TellsTime "nbf" (· ≤ now + 60)
  issuedAt : p.TellsTime "iat" fun _ => True
  subject : ∃ t, p.claim? "sub" = some (.str t)
  identifier : ∀ v, p.claim? "jti" = some v → ∃ t, v = .str t
  unhashed : p.claim? "at_hash" = none

/-- All that has to be there is, and the first time that is none to accept is infinite. -/
def IsEndless (now : Int) (p : Payload) : Prop :=
  (∀ name ∈ ["aud", "iss", "exp", "sub"], ∃ v, p.claim? name = some v) ∧
    (p.TellsNoTime "iat" ∨ p.TellsTime "iat" (fun _ => True) ∧
      (p.TellsNoTime "nbf" ∨ p.TellsTime "nbf" (· ≤ now + 60) ∧ p.TellsNoTime "exp"))

end Payload

theorem instant_eq_infinite_iff {v : Json} :
    instant v = .error .infinite ↔ ∃ negative, v = .num (.real (.infinite negative)) := by
  constructor
  · intro h
    unfold instant at h
    split at h
    next => simp at h
    next => simp at h
    next => simp at h
    next negative => exact ⟨negative, rfl⟩
    next => split at h <;> simp at h
    next => simp at h
  · rintro ⟨negative, rfl⟩
    rfl

theorem Json.str?_eq_some_iff {v : Json} {t : Text} : v.str? = some t ↔ v = .str t := by
  cases v <;> simp [Json.str?]

theorem Json.isSome_str?_iff {v : Json} : v.str?.isSome = true ↔ ∃ t, v = .str t := by
  simp only [Option.isSome_iff_exists, Json.str?_eq_some_iff]

namespace Verification

section

variable {a : Check} {b : Unit → Check} {e : Refusal}

theorem seq_eq_ok_iff : (a >>= b) = .ok () ↔ a = .ok () ∧ b () = .ok () := by
  cases a <;> simp [bind, Except.bind]

theorem seq_eq_error_iff :
    (a >>= b) = .error e ↔ a = .error e ∨ a = .ok () ∧ b () = .error e := by
  cases a <;> simp [bind, Except.bind]

end

theorem require_eq_ok_iff {holds : Bool} : require holds = .ok () ↔ holds = true := by
  cases holds <;> simp [require]

theorem require_ne_infinite {holds : Bool} : require holds ≠ .error .infiniteInstant := by
  cases holds <;> simp [require]

section

variable {p : Payload} {name : String} {check : Json → Check}

theorem ifPresent_eq_ok_iff :
    ifPresent p name check = .ok () ↔ ∀ v, p.claim? name = some v → check v = .ok () := by
  unfold ifPresent
  cases p.claim? name <;> simp

theorem ifPresent_eq_error_iff {e : Refusal} :
    ifPresent p name check = .error e ↔ ∃ v, p.claim? name = some v ∧ check v = .error e := by
  unfold ifPresent
  cases p.claim? name <;> simp

theorem timed_eq_ok_iff {holds : Int → Bool} {v : Json} :
    timed holds v = .ok () ↔ ∃ n, instant v = .ok n ∧ holds n = true := by
  unfold timed
  rcases instant v with (_ | _) | n <;> simp [require_eq_ok_iff]

theorem timed_eq_infinite_iff {holds : Int → Bool} {v : Json} :
    timed holds v = .error .infiniteInstant ↔ instant v = .error .infinite := by
  unfold timed
  rcases instant v with (_ | _) | n <;> simp [require_ne_infinite]

end

theorem hasRequired_iff {p : Payload} :
    hasRequired p = true ↔ ∀ name ∈ ["aud", "iss", "exp", "sub"], ∃ v, p.claim? name = some v := by
  simp only [hasRequired, required, List.all_eq_true, Option.isSome_iff_exists]

theorem audienceMatches_iff {audience : Text} {v : Json} :
    audienceMatches audience v = true ↔
      v = .str audience ∨
        ∃ items, v = .arr items ∧ (∀ w ∈ items, ∃ t, w = .str t) ∧ .str audience ∈ items := by
  cases v with
  | arr items =>
    simp only [audienceMatches, Bool.and_eq_true, List.all_eq_true, List.any_eq_true, beq_iff_eq,
      Json.isSome_str?_iff, Json.str?_eq_some_iff, reduceCtorEq, false_or, Json.arr.injEq]
    constructor
    · rintro ⟨hall, v, hv, rfl⟩
      exact ⟨items, rfl, hall, hv⟩
    · rintro ⟨_, rfl, hall, hm⟩
      exact ⟨hall, _, hm, rfl⟩
  | _ => simp [audienceMatches]

theorem checkClaims_eq_ok_iff {issuer : Issuer} {now : Int} {p : Payload} :
    checkClaims issuer now p = .ok () ↔ p.Acceptable issuer now := by
  simp only [checkClaims, seq_eq_ok_iff, require_eq_ok_iff, hasRequired_iff, ifPresent_eq_ok_iff,
    timed_eq_ok_iff, audienceMatches_iff, Json.isSome_str?_iff, beq_iff_eq, decide_eq_true_eq,
    Option.bind_eq_some_iff, Json.str?_eq_some_iff, exists_eq_right, reduceCtorEq, imp_false]
  constructor
  · rintro ⟨present, iat, nbf, exp, aud, iss, sub, jti, hash⟩
    obtain ⟨v, hv⟩ := present "aud" (by simp)
    obtain ⟨w, hw⟩ := present "sub" (by simp)
    obtain ⟨t, rfl⟩ := sub w hw
    refine ⟨?_, iss, ⟨present "exp" (by simp), exp⟩, nbf, ?_, ⟨t, hw⟩, jti, ?_⟩
    · rcases aud v hv with rfl | ⟨items, rfl, hall, hm⟩
      · exact .inl hv
      · exact .inr ⟨items, hv, hall, hm⟩
    · exact fun v hv => (iat v hv).imp fun _ h => ⟨h.1, trivial⟩
    · exact Option.eq_none_iff_forall_ne_some.mpr hash
  · intro h
    have haud : ∃ v, p.claim? "aud" = some v := by
      rcases h.audience with ha | ⟨_, ha, _⟩ <;> exact ⟨_, ha⟩
    obtain ⟨t, ht⟩ := h.subject
    refine ⟨?_, ?_, h.notBefore, h.expiry.2, ?_, h.issuer, ?_, h.identifier, ?_⟩
    · simp only [List.forall_mem_cons, List.not_mem_nil, false_imp_iff, implies_true, and_true]
      exact ⟨haud, ⟨_, h.issuer⟩, h.expiry.1, ⟨_, ht⟩⟩
    · exact fun v hv => (h.issuedAt v hv).imp fun _ h => ⟨h.1, trivial⟩
    · intro v hv
      rcases h.audience with ha | ⟨items, ha, hall, hm⟩
      · exact .inl (Option.some.inj (hv.symm.trans ha))
      · exact .inr ⟨items, Option.some.inj (hv.symm.trans ha), hall, hm⟩
    · exact fun v hv => ⟨t, Option.some.inj (hv.symm.trans ht)⟩
    · simp [h.unhashed]

theorem tellsNoTime_iff {p : Payload} {name : String} :
    (∃ v, p.claim? name = some v ∧ ∃ negative, v = .num (.real (.infinite negative))) ↔
      p.TellsNoTime name := by
  constructor
  · rintro ⟨_, hv, negative, rfl⟩
    exact ⟨negative, hv⟩
  · rintro ⟨negative, hv⟩
    exact ⟨_, hv, negative, rfl⟩

/-- Only an endless payload makes the checks come to an infinite time. -/
theorem checkClaims_eq_infinite_iff {issuer : Issuer} {now : Int} {p : Payload} :
    checkClaims issuer now p = .error .infiniteInstant ↔ p.IsEndless now := by
  simp only [checkClaims, seq_eq_error_iff, require_eq_ok_iff, require_ne_infinite,
    hasRequired_iff, ifPresent_eq_ok_iff, ifPresent_eq_error_iff, timed_eq_ok_iff,
    timed_eq_infinite_iff, instant_eq_infinite_iff, decide_eq_true_eq, reduceCtorEq,
    Except.error.injEq, and_false, exists_false, or_false, false_or, tellsNoTime_iff, and_true]
  simp only [Payload.IsEndless, Payload.TellsTime, and_true]
  exact Iff.rfl

structure Signed (token modulus exponent : Text) (c : Compact) : Prop where
  read : Compact.read token = .ok c
  algorithm : Table.get? (Text.ofString "alg") c.header = some (.str (Text.ofString "RS256"))
  signature : ∃ key, publicKey? modulus exponent = some key ∧
    Rsa.verifies key c.signed c.signature = true

theorem signatureHolds_iff {key : Rsa.PublicKey} {c : Compact} :
    signatureHolds key c = true ↔
      Table.get? (Text.ofString "alg") c.header = some (.str (Text.ofString "RS256")) ∧
        Rsa.verifies key c.signed c.signature = true := by
  simp only [signatureHolds, Bool.and_eq_true, beq_iff_eq, Option.bind_eq_some_iff,
    Json.str?_eq_some_iff, exists_eq_right, algorithm]

theorem verifyRsa_eq_ok_iff {token modulus exponent : Text} {issuer : Issuer} {now : Int}
    {p : Payload} :
    verifyRsa token modulus exponent issuer now = .ok p ↔
      ∃ c, Signed token modulus exponent c ∧ Compact.readObject c.payload = .ok p ∧
        p.Acceptable issuer now := by
  constructor
  · intro h
    unfold verifyRsa at h
    split at h
    next => simp at h
    next key hkey =>
      split at h
      next => simp at h
      next c hc =>
        split at h
        next hs =>
          obtain ⟨ha, hv⟩ := signatureHolds_iff.mp hs
          split at h
          next => simp at h
          next p' hp =>
            split at h
            next => simp at h
            next hok =>
              cases h
              exact ⟨c, ⟨hc, ha, key, hkey, hv⟩, hp, checkClaims_eq_ok_iff.mp hok⟩
        next => simp at h
  · rintro ⟨c, ⟨hc, ha, key, hkey, hv⟩, hp, hok⟩
    simp only [verifyRsa, hkey, hc, signatureHolds_iff.mpr ⟨ha, hv⟩, if_true, hp,
      checkClaims_eq_ok_iff.mpr hok]

theorem ofReadError_eq_faulted_iff {e : Json.ReadError} {f : Fault} :
    ofReadError e = .faulted f ↔ f = .tooDeep ∧ e = .tooDeep := by
  cases e <;> simp [ofReadError, eq_comm]

theorem ofRefusal_eq_faulted_iff {e : Refusal} {f : Fault} :
    ofRefusal e = .faulted f ↔ f = .infiniteInstant ∧ e = .infiniteInstant := by
  cases e <;> simp [ofRefusal, eq_comm]

/-- The faults of verification: too deep a header or, signed well, a payload too deep or endless. -/
theorem verifyRsa_eq_faulted_iff {token modulus exponent : Text} {issuer : Issuer} {now : Int}
    {f : Fault} :
    verifyRsa token modulus exponent issuer now = .error (.faulted f) ↔
      (f = .tooDeep ∧ (∃ key, publicKey? modulus exponent = some key) ∧
        Compact.read token = .error .tooDeep) ∨
      (f = .tooDeep ∧ ∃ c, Signed token modulus exponent c ∧
        Compact.readObject c.payload = .error .tooDeep) ∨
      (f = .infiniteInstant ∧ ∃ (c : Compact) (p : Payload), Signed token modulus exponent c ∧
        Compact.readObject c.payload = .ok p ∧ p.IsEndless now) := by
  constructor
  · intro h
    unfold verifyRsa at h
    split at h
    next => simp at h
    next key hkey =>
      split at h
      next e he =>
        obtain ⟨rfl, rfl⟩ := ofReadError_eq_faulted_iff.mp (Except.error.inj h)
        exact .inl ⟨rfl, ⟨key, hkey⟩, he⟩
      next c hc =>
        split at h
        next hs =>
          obtain ⟨ha, hv⟩ := signatureHolds_iff.mp hs
          have signed : Signed token modulus exponent c := ⟨hc, ha, key, hkey, hv⟩
          split at h
          next e he =>
            obtain ⟨rfl, rfl⟩ := ofReadError_eq_faulted_iff.mp (Except.error.inj h)
            exact .inr (.inl ⟨rfl, c, signed, he⟩)
          next p hp =>
            split at h
            next e he =>
              obtain ⟨rfl, rfl⟩ := ofRefusal_eq_faulted_iff.mp (Except.error.inj h)
              exact .inr (.inr ⟨rfl, c, p, signed, hp, checkClaims_eq_infinite_iff.mp he⟩)
            next => simp at h
        next => simp at h
  · rintro (⟨rfl, ⟨key, hkey⟩, he⟩ | ⟨rfl, c, ⟨hc, ha, key, hkey, hv⟩, he⟩ |
      ⟨rfl, c, p, ⟨hc, ha, key, hkey, hv⟩, hp, hend⟩)
    · simp only [verifyRsa, hkey, he, ofReadError]
    · simp only [verifyRsa, hkey, hc, signatureHolds_iff.mpr ⟨ha, hv⟩, if_true, he, ofReadError]
    · simp only [verifyRsa, hkey, hc, signatureHolds_iff.mpr ⟨ha, hv⟩, if_true, hp,
        checkClaims_eq_infinite_iff.mpr hend, ofRefusal]

theorem verify_eq_ok_iff {token : Text} {key : PublishedKey} {issuer : Issuer} {now : Int}
    {p : Payload} :
    verify token key issuer now = .ok p ↔
      ∃ modulus exponent c, key.parameters = .rsa modulus exponent ∧
        Signed token modulus exponent c ∧ Compact.readObject c.payload = .ok p ∧
        p.Acceptable issuer now := by
  unfold verify
  split
  next h => simp [h]
  next modulus exponent h =>
    simp only [verifyRsa_eq_ok_iff, h, KeyParameters.rsa.injEq]
    constructor
    · rintro ⟨c, hc⟩
      exact ⟨modulus, exponent, c, ⟨rfl, rfl⟩, hc⟩
    · rintro ⟨_, _, c, ⟨rfl, rfl⟩, hc⟩
      exact ⟨c, hc⟩

theorem verify_eq_faulted_iff {token : Text} {key : PublishedKey} {issuer : Issuer} {now : Int}
    {f : Fault} :
    verify token key issuer now = .error (.faulted f) ↔
      ∃ modulus exponent, key.parameters = .rsa modulus exponent ∧
        verifyRsa token modulus exponent issuer now = .error (.faulted f) := by
  unfold verify
  split
  next h => simp [h]
  next modulus exponent h =>
    rw [h]
    constructor
    · exact fun hf => ⟨modulus, exponent, rfl, hf⟩
    · rintro ⟨_, _, he, hf⟩
      cases he
      exact hf

theorem rejection_of_ofReadError {e : Json.ReadError} {r : Rejection}
    (h : ofReadError e = .rejected r) : r = .unverified := by
  cases e with
  | malformed => exact (Failure.rejected.inj h).symm
  | tooDeep => cases h

theorem rejection_of_ofRefusal {e : Refusal} {r : Rejection}
    (h : ofRefusal e = .rejected r) : r = .unverified := by
  cases e with
  | unverified => exact (Failure.rejected.inj h).symm
  | infiniteInstant => cases h

theorem rejection_of_verifyRsa {token modulus exponent : Text} {issuer : Issuer} {now : Int}
    {r : Rejection} (h : verifyRsa token modulus exponent issuer now = .error (.rejected r)) :
    r = .unverified := by
  unfold verifyRsa at h
  split at h
  next => exact (Failure.rejected.inj (Except.error.inj h)).symm
  next =>
    split at h
    next e => exact rejection_of_ofReadError (Except.error.inj h)
    next =>
      split at h
      next =>
        split at h
        next e => exact rejection_of_ofReadError (Except.error.inj h)
        next =>
          split at h
          next e => exact rejection_of_ofRefusal (Except.error.inj h)
          next => cases h
      next => exact (Failure.rejected.inj (Except.error.inj h)).symm

/-- The family of the key is named exactly if it is not RSA. -/
theorem verify_eq_unsupported_iff {token : Text} {key : PublishedKey} {issuer : Issuer}
    {now : Int} {family : Text} :
    verify token key issuer now = .error (.rejected (.unsupportedAlgorithm family)) ↔
      ∃ keyType curve, key.parameters = .other keyType curve ∧
        family = KeyParameters.describe keyType curve := by
  unfold verify
  split
  next keyType curve h =>
    rw [h]
    constructor
    · intro hf
      exact ⟨keyType, curve, rfl, (by simpa using hf : _ = family).symm⟩
    · rintro ⟨_, _, he, rfl⟩
      cases he
      rfl
  next h =>
    rw [h]
    constructor
    · intro hf
      cases rejection_of_verifyRsa hf
    · rintro ⟨_, _, he, _⟩
      cases he

theorem rejection_of_verify {token : Text} {key : PublishedKey} {issuer : Issuer} {now : Int}
    {r : Rejection} (h : verify token key issuer now = .error (.rejected r)) :
    r = .unverified ∨ ∃ family, r = .unsupportedAlgorithm family := by
  unfold verify at h
  split at h
  next => exact .inr ⟨_, (Failure.rejected.inj (Except.error.inj h)).symm⟩
  next => exact .inl (rejection_of_verifyRsa h)

theorem unsupported_of_verify {token token' : Text} {key : PublishedKey} {issuer : Issuer}
    {now : Int} {family : Text}
    (h : verify token key issuer now = .error (.rejected (.unsupportedAlgorithm family))) :
    verify token' key issuer now = .error (.rejected (.unsupportedAlgorithm family)) :=
  verify_eq_unsupported_iff.mpr (verify_eq_unsupported_iff.mp h)

/-- The key settles for what reason tokens are rejected under it. -/
theorem rejection_unique {token token' : Text} {key : PublishedKey} {issuer : Issuer} {now : Int}
    {r r' : Rejection} (h : verify token key issuer now = .error (.rejected r))
    (h' : verify token' key issuer now = .error (.rejected r')) : r = r' := by
  rcases rejection_of_verify h with rfl | ⟨family, rfl⟩
  · rcases rejection_of_verify h' with rfl | ⟨family', rfl⟩
    · rfl
    · cases h.symm.trans (unsupported_of_verify h')
  · cases h'.symm.trans (unsupported_of_verify h)
    rfl

end Verification

theorem Claims.exists_ofPayload {issuer : Issuer} {now : Int} {p : Payload}
    (h : p.Acceptable issuer now) : ∃ c, Claims.ofPayload p = .ok c := by
  obtain ⟨t, ht⟩ := h.subject
  exact ⟨⟨t, permissionsOf p⟩, by simp only [ofPayload, ht]⟩

def Issuer.sample : Issuer := ⟨Text.ofString "a", Text.ofString "h"⟩

end BearerGate
