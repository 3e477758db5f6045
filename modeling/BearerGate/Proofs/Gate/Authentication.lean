import BearerGate.Gate.History
import BearerGate.Proofs.Gate.Download
import BearerGate.Proofs.Token.Acceptance
import BearerGate.Proofs.Token.Segments

namespace BearerGate

namespace Gate

variable {g : Gate} {clock : Clock} {server : KeyServer} {cache : Cache} {kid : Text}

theorem fresh?_eq_some_iff {keys : KeySet} :
    g.fresh? clock cache = some keys ↔
      ∃ snap, cache = some snap ∧ snap.keys = keys ∧ 0 < g.lifetime ∧
        clock.elapsed - snap.taken < (g.lifetime : Rat) := by
  cases cache with
  | none => simp [fresh?]
  | some snap =>
    simp only [fresh?, Option.some.injEq]
    constructor
    · intro h
      split at h
      next hf => exact ⟨snap, rfl, Option.some.inj h, hf.1, hf.2⟩
      next => simp at h
    · rintro ⟨_, rfl, rfl, hl, ht⟩
      rw [if_pos ⟨hl, ht⟩]

/-- The key that the kept set has, as long as that set is fresh. -/
def kept? (g : Gate) (clock : Clock) (cache : Cache) (kid : Text) : Option PublishedKey :=
  (g.fresh? clock cache).bind (KeySet.find? kid)

theorem findKey_eq_ok_iff {keys : KeySet} {key : PublishedKey} :
    findKey kid keys = .ok key ↔ keys.find? kid = some key := by
  unfold findKey
  cases keys.find? kid <;> simp

theorem fetch_force : g.fetch clock server true cache = g.download clock server cache := by
  unfold fetch
  cases g.fresh? clock cache <;> rfl

theorem resolveKey_of_kept {key : PublishedKey} (h : g.kept? clock cache kid = some key) :
    g.resolveKey clock server kid cache = ⟨.ok key, cache, [], []⟩ := by
  obtain ⟨keys, hfresh, hfind⟩ := Option.bind_eq_some_iff.mp h
  simp only [resolveKey, fetch, hfresh, findKey_eq_ok_iff.mpr hfind]

/-- Without a kept key there is exactly one download, and it decides. -/
theorem resolveKey_of_not_kept (h : g.kept? clock cache kid = none) :
    g.resolveKey clock server kid cache =
      { result := (g.download clock server cache).result.bind (findKey kid)
        cache := (g.download clock server cache).cache
        requests := (g.download clock server cache).requests
        journal := (if (g.fresh? clock cache).isSome then [refreshingNote kid] else []) ++
          (g.download clock server cache).journal } := by
  cases hfresh : g.fresh? clock cache with
  | none =>
    -- Nothing is fresh, so the first fetch is the download and there is no second one.
    simp only [resolveKey, fetch, hfresh]
    cases hr : (g.download clock server cache).result <;> simp [Except.bind]
  | some keys =>
    -- The first fetch gives the fresh set back, and the miss makes the second one insist.
    have hfind : keys.find? kid = none := by simpa [kept?, hfresh] using h
    have hmiss : findKey kid keys = .error (.rejected .keyNotPublished) := by
      simp only [findKey, hfind]
    simp only [resolveKey, fetch_force]
    simp [fetch, hfresh, hmiss]

theorem resolveKey_result_eq_ok_iff {key : PublishedKey} :
    (g.resolveKey clock server kid cache).result = .ok key ↔
      g.kept? clock cache kid = some key ∨
        g.kept? clock cache kid = none ∧ ∃ document keys, g.Receives server document keys ∧
          keys.find? kid = some key := by
  cases hk : g.kept? clock cache kid with
  | some key' => simp [resolveKey_of_kept hk]
  | none =>
    simp only [resolveKey_of_not_kept hk, reduceCtorEq, false_or, true_and]
    constructor
    · intro h
      cases hr : (g.download clock server cache).result with
      | error e => simp [hr, Except.bind] at h
      | ok keys =>
        obtain ⟨document, hd⟩ := download_result_eq_ok_iff.mp hr
        rw [hr] at h
        exact ⟨document, keys, hd, findKey_eq_ok_iff.mp h⟩
    · rintro ⟨document, keys, hd, hf⟩
      rw [download_result_eq_ok_iff.mpr ⟨document, hd⟩]
      exact findKey_eq_ok_iff.mpr hf

/-- The header carries a token whose own header names a key. -/
structure Presents (authorization : Option Text) (token kid : Text) : Prop where
  credential : Bearer.token? authorization = some token
  named : ∃ header, TokenHeader.ofToken token = .ok header ∧ header.kid = kid

structure Selects (g : Gate) (w : World) (authorization : Option Text) (token kid : Text)
    (key : PublishedKey) : Prop extends Presents authorization token kid where
  resolved : (g.resolveKey w.clock w.keyServer kid w.cache).result = .ok key

variable {authorization : Option Text} {token : Text}

theorem Presents.unique {token' kid' : Text} (h : Presents authorization token kid)
    (h' : Presents authorization token' kid') : token = token' ∧ kid = kid' := by
  cases Option.some.inj (h.credential.symm.trans h'.credential)
  obtain ⟨header, hh, rfl⟩ := h.named
  obtain ⟨header', hh', rfl⟩ := h'.named
  cases Except.ok.inj (hh.symm.trans hh')
  exact ⟨rfl, rfl⟩

/-- A request presents one token at most, so what holds of any holds of that one. -/
theorem Presents.exists_iff (h : Presents authorization token kid) {holds : Text → Text → Prop} :
    (∃ token kid, Presents authorization token kid ∧ holds token kid) ↔ holds token kid := by
  constructor
  · rintro ⟨token', kid', hp, hh⟩
    obtain ⟨rfl, rfl⟩ := h.unique hp
    exact hh
  · exact fun hh => ⟨token, kid, h, hh⟩

theorem not_exists_presents (h : ¬∃ token kid, Presents authorization token kid)
    {holds : Text → Text → Prop} :
    ¬∃ token kid, Presents authorization token kid ∧ holds token kid := by
  rintro ⟨token, kid, hp, _⟩
  exact h ⟨token, kid, hp⟩

theorem verifiedPayload_of_presents (h : Presents authorization token kid) :
    g.verifiedPayload clock server authorization cache =
      { g.resolveKey clock server kid cache with
        result := (g.resolveKey clock server kid cache).result.bind fun key =>
          Verification.verify token key g.issuer clock.now } := by
  obtain ⟨hc, header, hh, rfl⟩ := h
  simp only [verifiedPayload, hc, hh]

theorem verifiedPayload_of_not_presents (g : Gate) (clock : Clock) (server : KeyServer)
    (cache : Cache) (h : ¬∃ token kid, Presents authorization token kid) :
    ∃ r, (r = .missingCredentials ∨ r = .malformedToken ∨ r = .noKeyNamed) ∧
      g.verifiedPayload clock server authorization cache =
        ⟨.error (.rejected r), cache, [], []⟩ := by
  unfold verifiedPayload
  split
  next => exact ⟨_, .inl rfl, rfl⟩
  next token hc =>
    split
    next r hr => exact ⟨r, .inr (TokenHeader.rejection_of_ofToken hr), rfl⟩
    next header hh => exact absurd ⟨token, header.kid, hc, header, hh, rfl⟩ h

theorem verifiedPayload_result_eq_ok_iff {w : World} {p : Payload} :
    (g.verifiedPayload w.clock w.keyServer authorization w.cache).result = .ok p ↔
      ∃ token kid key, g.Selects w authorization token kid key ∧
        Verification.verify token key g.issuer w.clock.now = .ok p := by
  by_cases hp : ∃ token kid, Presents authorization token kid
  · obtain ⟨token, kid, hp⟩ := hp
    rw [verifiedPayload_of_presents hp]
    constructor
    · intro h
      cases hr : (g.resolveKey w.clock w.keyServer kid w.cache).result with
      | error e => simp [hr, Except.bind] at h
      | ok key => exact ⟨token, kid, key, ⟨hp, hr⟩, by simpa [hr, Except.bind] using h⟩
    · rintro ⟨token', kid', key, hs, hv⟩
      obtain ⟨rfl, rfl⟩ := hp.unique hs.toPresents
      simp only [hs.resolved, Except.bind, hv]
  · obtain ⟨r, _, hr⟩ := verifiedPayload_of_not_presents g w.clock w.keyServer w.cache hp
    rw [hr]
    constructor
    · intro h
      simp at h
    · rintro ⟨token, kid, key, hs, _⟩
      exact absurd ⟨token, kid, hs.toPresents⟩ hp

theorem authenticate_cache :
    (g.authenticate clock server authorization cache).cache =
      (g.verifiedPayload clock server authorization cache).cache := by
  unfold authenticate
  dsimp only
  split <;> rfl

theorem authenticate_requests :
    (g.authenticate clock server authorization cache).requests =
      (g.verifiedPayload clock server authorization cache).requests := by
  unfold authenticate
  dsimp only
  split <;> rfl

theorem authenticate_result :
    (g.authenticate clock server authorization cache).result =
      (g.verifiedPayload clock server authorization cache).result.bind fun p =>
        match Claims.ofPayload p with
        | .ok c => .ok c
        | .error f => .error (.faulted f) := by
  unfold authenticate
  dsimp only
  split
  next p hp =>
    simp only [hp, Except.bind]
    cases Claims.ofPayload p <;> rfl
  next r hr => simp [hr, Except.bind]
  next f hf => simp [hf, Except.bind]

theorem authenticate_of_rejected {r : Rejection}
    (h : g.verifiedPayload clock server authorization cache =
      ⟨.error (.rejected r), cache, [], []⟩) :
    g.authenticate clock server authorization cache =
      ⟨.error (.rejected r), cache, [], [failedAuthenticationNote r]⟩ := by
  simp only [authenticate, h, List.nil_append]

/-- Gates that resolve keys alike find alike, whatever else differs between them. -/
theorem authenticate_result_congr {g' : Gate} {server' : KeyServer} {cache' : Cache}
    (hissuer : g'.issuer = g.issuer)
    (hresolve : ∀ kid, (g'.resolveKey clock server' kid cache').result =
      (g.resolveKey clock server kid cache).result) :
    (g'.authenticate clock server' authorization cache').result =
      (g.authenticate clock server authorization cache).result := by
  have hpayload : (g'.verifiedPayload clock server' authorization cache').result =
      (g.verifiedPayload clock server authorization cache).result := by
    unfold verifiedPayload
    cases Bearer.token? authorization with
    | none => rfl
    | some token =>
      cases hheader : TokenHeader.ofToken token with
      | error r => simp only [hheader]
      | ok header => simp only [hheader, hresolve, hissuer]
  rw [authenticate_result, authenticate_result, hpayload]

theorem authenticate_result_eq_ok_iff {w : World} {c : Claims} :
    (g.authenticate w.clock w.keyServer authorization w.cache).result = .ok c ↔
      ∃ token kid key p, g.Selects w authorization token kid key ∧
        Verification.verify token key g.issuer w.clock.now = .ok p ∧
        Claims.ofPayload p = .ok c := by
  rw [authenticate_result]
  constructor
  · intro h
    cases hr : (g.verifiedPayload w.clock w.keyServer authorization w.cache).result with
    | error e => simp [hr, Except.bind] at h
    | ok p =>
      obtain ⟨token, kid, key, hs, hv⟩ := verifiedPayload_result_eq_ok_iff.mp hr
      refine ⟨token, kid, key, p, hs, hv, ?_⟩
      rw [hr] at h
      cases hc : Claims.ofPayload p with
      | error f => simp [hc, Except.bind] at h
      | ok c' => simpa [hc, Except.bind] using h
  · rintro ⟨token, kid, key, p, hs, hv, hc⟩
    rw [verifiedPayload_result_eq_ok_iff.mpr ⟨token, kid, key, hs, hv⟩]
    simp only [Except.bind, hc]

theorem claims_of_step {w : World} {c : Claims}
    (h : (g.step w (.authenticate authorization)).2.result = .ok (.claims c)) :
    ∃ token kid key p, g.Selects w authorization token kid key ∧
      Verification.verify token key g.issuer w.clock.now = .ok p ∧ Claims.ofPayload p = .ok c := by
  refine authenticate_result_eq_ok_iff.mp ?_
  change (g.authenticate w.clock w.keyServer authorization w.cache).result.map Answer.claims =
    .ok (.claims c) at h
  cases hr : (g.authenticate w.clock w.keyServer authorization w.cache).result with
  | error e => simp [hr, Except.map] at h
  | ok c' => simpa [hr, Except.map] using h

/-- Verification has checked what names the caller, so a fault is one of an earlier stage. -/
theorem authenticate_result_eq_faulted_iff {f : Fault} :
    (g.authenticate clock server authorization cache).result = .error (.faulted f) ↔
      ∃ token kid, Presents authorization token kid ∧
        ((g.resolveKey clock server kid cache).result = .error (.faulted f) ∨
          ∃ key, (g.resolveKey clock server kid cache).result = .ok key ∧
            Verification.verify token key g.issuer clock.now = .error (.faulted f)) := by
  rw [authenticate_result]
  by_cases hp : ∃ token kid, Presents authorization token kid
  · obtain ⟨token, kid, hp⟩ := hp
    rw [hp.exists_iff, verifiedPayload_of_presents hp]
    cases hr : (g.resolveKey clock server kid cache).result with
    | error e => simp [Except.bind]
    | ok key =>
      cases hv : Verification.verify token key g.issuer clock.now with
      | error e => simp [Except.bind, hv]
      | ok p =>
        obtain ⟨_, _, _, _, _, _, hok⟩ := Verification.verify_eq_ok_iff.mp hv
        obtain ⟨c, hc⟩ := Claims.exists_ofPayload hok
        simp [Except.bind, hv, hc]
  · obtain ⟨r, _, hr⟩ := verifiedPayload_of_not_presents g clock server cache hp
    rw [hr]
    exact iff_of_false (by simp [Except.bind]) (not_exists_presents hp)

end Gate

end BearerGate
