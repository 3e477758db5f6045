import BearerGate.Proofs.Gate.Provenance
import BearerGate.Proofs.Token.Segments

namespace BearerGate

namespace Gate

/-- The faults that leave a gate with an address to ask at and a time limit. -/
inductive Escapes (g : Gate) (w : World) (authorization : Option Text) : Fault → Prop
  | deepKeySet {token kid : Text} {target : Target} (presents : Presents authorization token kid)
    (missing : g.kept? w.clock w.cache kid = none)
    (asked : g.asks? = some target) (host : target.hasHost = true)
    (deep : w.keyServer.ServesTooDeep) : Escapes g w authorization .tooDeep
  | deepPayload {token kid modulus exponent : Text} {key : PublishedKey} {c : Compact}
    (selects : g.Selects w authorization token kid key)
    (rsa : key.parameters = .rsa modulus exponent)
    (signed : Verification.Signed token modulus exponent c)
    (deep : Compact.readObject c.payload = .error .tooDeep) : Escapes g w authorization .tooDeep
  | endless {token kid modulus exponent : Text} {key : PublishedKey} {c : Compact} {p : Payload}
    (selects : g.Selects w authorization token kid key)
    (rsa : key.parameters = .rsa modulus exponent)
    (signed : Verification.Signed token modulus exponent c)
    (tells : Compact.readObject c.payload = .ok p)
    (infinite : Payload.IsEndless w.clock.now p) : Escapes g w authorization .infiniteInstant

variable {g : Gate} {w : World} {authorization : Option Text} {token kid : Text} {f : Fault}

theorem findKey_ne_faulted {keys : KeySet} : findKey kid keys ≠ .error (.faulted f) := by
  unfold findKey
  cases keys.find? kid <;> simp

theorem resolveKey_result_eq_faulted_iff :
    (g.resolveKey w.clock w.keyServer kid w.cache).result = .error (.faulted f) ↔
      g.kept? w.clock w.cache kid = none ∧
        (g.download w.clock w.keyServer w.cache).result = .error (.faulted f) := by
  cases hk : g.kept? w.clock w.cache kid with
  | some key => simp [resolveKey_of_kept hk]
  | none =>
    simp only [resolveKey_of_not_kept hk, true_and]
    cases (g.download w.clock w.keyServer w.cache).result with
    | error e => simp [Except.bind]
    | ok keys => simp [Except.bind, findKey_ne_faulted]

theorem download_faulted_iff {target : Target} {limit : Number}
    (hurl : Target.ofText? g.issuer.keySetUrl = some target) (hlimit : g.timeout = some limit)
    (hserver : ∀ kind, w.keyServer ≠ .fails (.unforeseen kind)) :
    (g.download w.clock w.keyServer w.cache).result = .error (.faulted f) ↔
      f = .tooDeep ∧ (∃ target, g.asks? = some target ∧ target.hasHost = true) ∧
        w.keyServer.ServesTooDeep := by
  rw [download_result_eq_faulted_iff]
  constructor
  · rintro (⟨_, _, hnone⟩ | ⟨target', hasks, he⟩)
    · simp [hurl] at hnone
    · rcases ending_eq_faulted_iff.mp he with ⟨_, hnone, _⟩ | ⟨kind, _, hk⟩ | ⟨rfl, hhost, hdeep⟩
      · simp [hlimit] at hnone
      · exact absurd hk (hserver kind)
      · exact ⟨rfl, ⟨target', hasks, hhost⟩, hdeep⟩
  · rintro ⟨rfl, ⟨target', hasks, hhost⟩, hdeep⟩
    exact .inr ⟨target', hasks, ending_eq_faulted_iff.mpr (.inr (.inr ⟨rfl, hhost, hdeep⟩))⟩

/-- Authentication comes to a fault exactly if one escapes, and else to claims or a rejection. -/
theorem faults_escape {target : Target} {limit : Number}
    (hurl : Target.ofText? g.issuer.keySetUrl = some target) (hlimit : g.timeout = some limit)
    (hserver : ∀ kind, w.keyServer ≠ .fails (.unforeseen kind)) :
    (∀ f, (g.authenticate w.clock w.keyServer authorization w.cache).result =
        .error (.faulted f) ↔ g.Escapes w authorization f) ∧
    (((∃ c, (g.authenticate w.clock w.keyServer authorization w.cache).result = .ok c) ∨
        ∃ r, (g.authenticate w.clock w.keyServer authorization w.cache).result =
          .error (.rejected r)) ↔ ∀ f, ¬g.Escapes w authorization f) := by
  have hiff : ∀ f, (g.authenticate w.clock w.keyServer authorization w.cache).result =
      .error (.faulted f) ↔ g.Escapes w authorization f := by
    intro f
    rw [authenticate_result_eq_faulted_iff]
    constructor
    · rintro ⟨token, kid, hp, hr | ⟨key, hr, hv⟩⟩
      · obtain ⟨hk, hd⟩ := resolveKey_result_eq_faulted_iff.mp hr
        obtain ⟨rfl, ⟨target, hasks, hhost⟩, hdeep⟩ :=
          (download_faulted_iff hurl hlimit hserver).mp hd
        exact .deepKeySet hp hk hasks hhost hdeep
      · obtain ⟨modulus, exponent, hrsa, hf⟩ := Verification.verify_eq_faulted_iff.mp hv
        rcases Verification.verifyRsa_eq_faulted_iff.mp hf with
          ⟨_, _, hread⟩ | ⟨rfl, c, hsigned, hdeep⟩ | ⟨rfl, c, p, hsigned, hpay, hend⟩
        · -- The header was read before the key was looked for, so it cannot fail now.
          obtain ⟨header, hh, _⟩ := hp.named
          obtain ⟨_, _, _, _, _, hok, _⟩ := TokenHeader.ofToken_eq_ok_iff.mp hh
          simp [hok] at hread
        · exact .deepPayload ⟨hp, hr⟩ hrsa hsigned hdeep
        · exact .endless ⟨hp, hr⟩ hrsa hsigned hpay hend
    · intro h
      cases h with
      | deepKeySet hp hk hasks hhost hdeep =>
        exact ⟨_, _, hp, .inl (resolveKey_result_eq_faulted_iff.mpr ⟨hk,
          (download_faulted_iff hurl hlimit hserver).mpr ⟨rfl, ⟨_, hasks, hhost⟩, hdeep⟩⟩)⟩
      | deepPayload hs hrsa hsigned hdeep =>
        exact ⟨_, _, hs.toPresents, .inr ⟨_, hs.resolved, Verification.verify_eq_faulted_iff.mpr
          ⟨_, _, hrsa, Verification.verifyRsa_eq_faulted_iff.mpr
            (.inr (.inl ⟨rfl, _, hsigned, hdeep⟩))⟩⟩⟩
      | endless hs hrsa hsigned hpay hend =>
        exact ⟨_, _, hs.toPresents, .inr ⟨_, hs.resolved, Verification.verify_eq_faulted_iff.mpr
          ⟨_, _, hrsa, Verification.verifyRsa_eq_faulted_iff.mpr
            (.inr (.inr ⟨rfl, _, _, hsigned, hpay, hend⟩))⟩⟩⟩
  refine ⟨hiff, ?_⟩
  simp only [← hiff]
  rcases (g.authenticate w.clock w.keyServer authorization w.cache).result with (r | f) | c
  · simp
  · simp
  · simp

/-- A header that carries a token like the sample's, with an expiry of `1e999`. -/
def Sample.endlessAuthorization : Text := Text.ofString
  ("Bearer eyJhbGciOiJSUzI1NiIsImtpZCI6ImsifQ." ++
    "eyJhdWQiOiJhIiwiZXhwIjoxZTk5OSwiaXNzIjoiaHR0cHM6Ly9oLyIsInN1YiI6InMifQ." ++
    "PQEU0CvtFHC-0_DimD5zX7x5VsskFA1wIl7b5mqE3EqrpVzMAwQNjewQq2nuBh07Md0yRUqIp2wwbcL8zuk")

theorem Sample.overflows :
    (gate.authenticate start.clock start.keyServer (some endlessAuthorization) start.cache).result =
      .error (.faulted .infiniteInstant) := by decide +kernel

/-- A well-signed token without an end leaves neither as claims nor as a rejection. -/
theorem endless_token_leaves_channel :
    ¬((∃ c, (Sample.gate.authenticate Sample.start.clock Sample.start.keyServer
          (some Sample.endlessAuthorization) Sample.start.cache).result = .ok c) ∨
        ∃ r, (Sample.gate.authenticate Sample.start.clock Sample.start.keyServer
          (some Sample.endlessAuthorization) Sample.start.cache).result =
            .error (.rejected r)) := by
  rw [Sample.overflows]
  simp

theorem sample_fault_escapes :
    Sample.gate.Escapes Sample.start (some Sample.endlessAuthorization) .infiniteInstant := by
  obtain ⟨target, hurl⟩ := Sample.asksSomewhere
  exact ((faults_escape hurl rfl (by simp [Sample.start])).1 _).mp Sample.overflows

end Gate

end BearerGate
