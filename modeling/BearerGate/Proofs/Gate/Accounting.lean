import BearerGate.Proofs.Gate.Retention

namespace BearerGate

namespace Gate

variable {g : Gate} {clock : Clock} {server : KeyServer} {cache : Cache} {w : World}
  {authorization : Option Text} {token kid : Text}

theorem component_of_mem_settle {ending : Ending} {e : Entry} (h : e ∈ (g.settle ending).2) :
    e.component = .keySet := by
  cases ending with
  | keys | faulted => cases h
  | timedOut | refused | invalid =>
    cases List.mem_singleton.mp h
    rfl

theorem component_of_mem_download {e : Entry} (h : e ∈ (g.download clock server cache).journal) :
    e.component = .keySet := by
  unfold download at h
  split at h
  next =>
    cases List.mem_singleton.mp h
    rfl
  next =>
    split at h
    next =>
      cases List.mem_singleton.mp h
      rfl
    next =>
      rcases List.mem_cons.mp h with rfl | hsettle
      · rfl
      · exact component_of_mem_settle hsettle

theorem mem_resolveKey_journal_iff {e : Entry} :
    e ∈ (g.resolveKey clock server kid cache).journal ↔
      g.kept? clock cache kid = none ∧
        ((e = refreshingNote kid ∧ (g.fresh? clock cache).isSome = true) ∨
          e ∈ (g.download clock server cache).journal) := by
  cases hk : g.kept? clock cache kid with
  | some key => simp [resolveKey_of_kept hk]
  | none =>
    rw [resolveKey_of_not_kept hk]
    cases (g.fresh? clock cache).isSome <;> simp

theorem mem_authenticate_journal_iff {e : Entry} :
    e ∈ (g.authenticate clock server authorization cache).journal ↔
      (∃ token kid, Presents authorization token kid ∧
        e ∈ (g.resolveKey clock server kid cache).journal) ∨
      ∃ r, (g.verifiedPayload clock server authorization cache).result = .error (.rejected r) ∧
        e = failedAuthenticationNote r := by
  have hverified : e ∈ (g.verifiedPayload clock server authorization cache).journal ↔
      ∃ token kid, Presents authorization token kid ∧
        e ∈ (g.resolveKey clock server kid cache).journal := by
    by_cases hp : ∃ token kid, Presents authorization token kid
    · obtain ⟨token, kid, hp⟩ := hp
      rw [hp.exists_iff, verifiedPayload_of_presents hp]
    · obtain ⟨r, _, hr⟩ := verifiedPayload_of_not_presents g clock server cache hp
      rw [hr]
      exact iff_of_false List.not_mem_nil (not_exists_presents hp)
  rw [← hverified]
  unfold authenticate
  dsimp only
  split
  next hr => simp [hr]
  next r hr => simp [hr]
  next hr => simp [hr]

theorem refreshingNote_mem_resolveKey_iff {kid' : Text} :
    refreshingNote kid' ∈ (g.resolveKey clock server kid cache).journal ↔
      kid' = kid ∧ ∃ keys, g.fresh? clock cache = some keys ∧ keys.find? kid = none := by
  have hdownload : refreshingNote kid' ∉ (g.download clock server cache).journal := by
    intro h
    cases component_of_mem_download h
  have hsame : refreshingNote kid' = refreshingNote kid ↔ kid' = kid := by
    simp [refreshingNote]
  rw [mem_resolveKey_journal_iff, hsame]
  cases hfresh : g.fresh? clock cache with
  | none => simp [hdownload]
  | some keys => simp [kept?, hfresh, hdownload, and_comm]

/-- A refresh is recorded exactly if the fresh set lacks the key that is named. -/
theorem refreshingNote_mem_authenticate_iff :
    refreshingNote kid ∈ (g.authenticate clock server authorization cache).journal ↔
      ∃ token keys, Presents authorization token kid ∧ g.fresh? clock cache = some keys ∧
        keys.find? kid = none := by
  rw [mem_authenticate_journal_iff]
  constructor
  · rintro (⟨token, kid', hp, hmem⟩ | ⟨r, _, hnote⟩)
    · obtain ⟨rfl, keys, hfresh, hfind⟩ := refreshingNote_mem_resolveKey_iff.mp hmem
      exact ⟨token, keys, hp, hfresh, hfind⟩
    · cases congrArg Entry.level hnote
  · rintro ⟨token, keys, hp, hfresh, hfind⟩
    exact .inl ⟨token, kid, hp, refreshingNote_mem_resolveKey_iff.mpr ⟨rfl, keys, hfresh, hfind⟩⟩

theorem authenticate_of_not_presents (h : ¬∃ token kid, Presents authorization token kid) :
    (g.authenticate clock server authorization cache).requests = [] ∧
      (g.authenticate clock server authorization cache).cache = cache := by
  obtain ⟨r, _, hr⟩ := verifiedPayload_of_not_presents g clock server cache h
  rw [authenticate_requests, authenticate_cache, hr]
  exact ⟨rfl, rfl⟩

/-- With a kept key all is settled without the key server. -/
theorem authenticate_of_kept {key : PublishedKey} (hp : Presents authorization token kid)
    (hk : g.kept? clock cache kid = some key) :
    (g.authenticate clock server authorization cache).requests = [] ∧
      (g.authenticate clock server authorization cache).cache = cache ∧
      ∀ server', g.authenticate clock server' authorization cache =
        g.authenticate clock server authorization cache := by
  have hsame : ∀ server', g.verifiedPayload clock server' authorization cache =
      ⟨Verification.verify token key g.issuer clock.now, cache, [], []⟩ := by
    intro server'
    rw [verifiedPayload_of_presents hp, resolveKey_of_kept hk]
    rfl
  refine ⟨?_, ?_, ?_⟩
  · rw [authenticate_requests, hsame]
  · rw [authenticate_cache, hsame]
  · intro server'
    unfold authenticate
    rw [hsame, hsame]

theorem authenticate_of_not_kept (hp : Presents authorization token kid)
    (hk : g.kept? clock cache kid = none) :
    (g.authenticate clock server authorization cache).requests =
      (g.download clock server cache).requests := by
  rw [authenticate_requests, verifiedPayload_of_presents hp, resolveKey_of_not_kept hk]

theorem authenticate_result_eq_rejected_iff {r : Rejection} :
    (g.authenticate clock server authorization cache).result = .error (.rejected r) ↔
      (g.verifiedPayload clock server authorization cache).result = .error (.rejected r) := by
  rw [authenticate_result]
  cases hv : (g.verifiedPayload clock server authorization cache).result with
  | error e => simp [Except.bind]
  | ok p => cases hc : Claims.ofPayload p <;> simp [Except.bind, hc]

theorem download_result_ne_keyNotPublished :
    (g.download clock server cache).result ≠ .error (.rejected .keyNotPublished) := by
  have hsettle : ∀ ending, (g.settle ending).1 ≠ .error (.rejected .keyNotPublished) := by
    intro ending
    cases ending <;> simp [settle]
  unfold download
  split
  next => simp
  next =>
    split
    next => simp
    next => exact hsettle _

theorem resolveKey_result_eq_keyNotPublished_iff :
    (g.resolveKey clock server kid cache).result = .error (.rejected .keyNotPublished) ↔
      g.kept? clock cache kid = none ∧ ∃ document keys, g.Receives server document keys ∧
        keys.find? kid = none := by
  cases hk : g.kept? clock cache kid with
  | some key => simp [resolveKey_of_kept hk]
  | none =>
    simp only [resolveKey_of_not_kept hk, true_and]
    constructor
    · intro h
      cases hr : (g.download clock server cache).result with
      | error e =>
        have he : e = .rejected .keyNotPublished := by simpa [hr, Except.bind] using h
        exact absurd (he ▸ hr) download_result_ne_keyNotPublished
      | ok keys =>
        obtain ⟨document, hd⟩ := download_result_eq_ok_iff.mp hr
        rw [hr] at h
        refine ⟨document, keys, hd, ?_⟩
        cases hf : keys.find? kid with
        | none => rfl
        | some key => simp [Except.bind, findKey, hf] at h
    · rintro ⟨document, keys, hd, hf⟩
      rw [download_result_eq_ok_iff.mpr ⟨document, hd⟩]
      simp only [Except.bind, findKey, hf]

theorem authenticate_result_eq_keyNotPublished_iff :
    (g.authenticate clock server authorization cache).result =
        .error (.rejected .keyNotPublished) ↔
      ∃ token kid, Presents authorization token kid ∧
        (g.resolveKey clock server kid cache).result = .error (.rejected .keyNotPublished) := by
  rw [authenticate_result_eq_rejected_iff]
  by_cases hp : ∃ token kid, Presents authorization token kid
  · obtain ⟨token, kid, hp⟩ := hp
    rw [hp.exists_iff, verifiedPayload_of_presents hp]
    cases hr : (g.resolveKey clock server kid cache).result with
    | error e => simp [Except.bind]
    | ok key =>
      refine iff_of_false ?_ (by simp)
      intro hv
      rcases Verification.rejection_of_verify hv with hr | ⟨_, hr⟩ <;> cases hr
  · obtain ⟨r, hr, hv⟩ := verifiedPayload_of_not_presents g clock server cache hp
    rw [hv]
    refine iff_of_false ?_ (not_exists_presents hp)
    intro he
    cases he
    simp at hr

theorem step_result_eq_rejected_iff {r : Rejection} :
    (g.step w (.authenticate authorization)).2.result = .error (.rejected r) ↔
      (g.authenticate w.clock w.keyServer authorization w.cache).result =
        .error (.rejected r) := by
  change (g.authenticate w.clock w.keyServer authorization w.cache).result.map _ = _ ↔ _
  cases (g.authenticate w.clock w.keyServer authorization w.cache).result <;> simp [Except.map]

theorem missing_key_downloaded_iff :
    (g.step w (.authenticate authorization)).2.result = .error (.rejected .keyNotPublished) ↔
      ∃ token kid document keys, Presents authorization token kid ∧
        g.Downloads w (.authenticate authorization) document keys ∧
        ∀ key, ¬KeySet.Publishes document kid key := by
  rw [step_result_eq_rejected_iff, authenticate_result_eq_keyNotPublished_iff]
  constructor
  · rintro ⟨token, kid, hp, hr⟩
    obtain ⟨hk, document, keys, hd, hf⟩ := resolveKey_result_eq_keyNotPublished_iff.mp hr
    have hrequests : (g.step w (.authenticate authorization)).2.requests =
        (g.download w.clock w.keyServer w.cache).requests := authenticate_of_not_kept hp hk
    exact ⟨token, kid, document, keys, hp, (downloads_iff_receives (by simp) hrequests).mpr hd,
      (find?_eq_none_iff_of_serves hd.1).mp hf⟩
  · rintro ⟨token, kid, document, keys, hp, hd, hno⟩
    refine ⟨token, kid, hp, resolveKey_result_eq_keyNotPublished_iff.mpr
      ⟨?_, document, keys, hd.receives, (find?_eq_none_iff_of_serves hd.served).mpr hno⟩⟩
    cases hk : g.kept? w.clock w.cache kid with
    | none => rfl
    | some key =>
      have hnil : (g.step w (.authenticate authorization)).2.requests = [] :=
        (authenticate_of_kept hp hk).1
      exact absurd hd (not_downloads_of_requests_eq_nil hnil)

/-- A request asks for keys once if it presents a token whose key is not kept, and else never. -/
theorem requests_accounted {target : Target}
    (hurl : Target.ofText? g.issuer.keySetUrl = some target) (htime : g.mayStart = true) :
    let after := g.step w (.authenticate authorization)
    ((¬∃ token kid, Presents authorization token kid) → after.2.requests = [] ∧ after.1 = w) ∧
    (∀ token kid, Presents authorization token kid →
      (∀ key, g.kept? w.clock w.cache kid = some key → after.2.requests = [] ∧ after.1 = w ∧
        ∀ server, (g.step { w with keyServer := server } (.authenticate authorization)).2 =
          after.2) ∧
      (g.kept? w.clock w.cache kid = none → after.2.requests = [target.text])) ∧
    (∀ kid, refreshingNote kid ∈ after.2.journal ↔
      ∃ token keys, Presents authorization token kid ∧ g.fresh? w.clock w.cache = some keys ∧
        keys.find? kid = none) ∧
    (after.2.result = .error (.rejected .keyNotPublished) ↔
      ∃ token kid document keys, Presents authorization token kid ∧
        g.Downloads w (.authenticate authorization) document keys ∧
        ∀ key, ¬KeySet.Publishes document kid key) := by
  intro after
  have hworld : (g.authenticate w.clock w.keyServer authorization w.cache).cache = w.cache →
      after.1 = w := fun h => congrArg (World.mk w.clock w.keyServer) h
  refine ⟨?_, fun token kid hp => ⟨fun key hk => ?_, fun hk => ?_⟩,
    fun kid => refreshingNote_mem_authenticate_iff, missing_key_downloaded_iff⟩
  · intro hnone
    obtain ⟨hrequests, hcache⟩ := authenticate_of_not_presents hnone
    exact ⟨hrequests, hworld hcache⟩
  · obtain ⟨hrequests, hcache, hserver⟩ := authenticate_of_kept hp hk
    refine ⟨hrequests, hworld hcache, fun server => ?_⟩
    change (observe _ _ (g.authenticate w.clock server authorization w.cache)).2 = _
    rw [hserver]
    rfl
  · have hasks : g.asks? = some target := asks?_eq_some_iff.mpr ⟨htime, hurl⟩
    have hrequests : after.2.requests = (g.download w.clock w.keyServer w.cache).requests :=
      authenticate_of_not_kept hp hk
    rw [download_requests, hasks] at hrequests
    exact hrequests

namespace Sample

/-- A header whose token names a key that the sample's issuer never publishes. -/
def strangerAuthorization : Text :=
  Text.ofString "Bearer eyJhbGciOiJSUzI1NiIsImtpZCI6IngifQ.e30.AA"

def fetched : World := gate.worldAt start silent 2

theorem stranger_presents : ∃ token, Presents (some strangerAuthorization) token
    (Text.ofString "x") :=
  ⟨strangerAuthorization.drop 7, by decide +kernel,
    ⟨some (Text.ofString "RS256"), Text.ofString "x"⟩, by decide +kernel, rfl⟩

theorem fetched_fresh : gate.fresh? fetched.clock fetched.cache = some [key] := by decide +kernel

theorem stranger_not_kept : gate.kept? fetched.clock fetched.cache (Text.ofString "x") = none := by
  rw [kept?, fetched_fresh]
  decide

end Sample

/-- The sample's fresh set lacks the stranger's key, so one request goes out. -/
theorem sample_requests_accounted :
    let after := Sample.gate.step Sample.fetched (.authenticate (some Sample.strangerAuthorization))
    (∃ target, Target.ofText? Sample.gate.issuer.keySetUrl = some target ∧
      after.2.requests = [target.text]) ∧
    refreshingNote (Text.ofString "x") ∈ after.2.journal := by
  obtain ⟨target, hurl⟩ := Sample.asksSomewhere
  obtain ⟨token, hp⟩ := Sample.stranger_presents
  obtain ⟨_, hpresents, hrecords, _⟩ :=
    @requests_accounted _ Sample.fetched (some Sample.strangerAuthorization) target hurl rfl
  exact ⟨⟨target, hurl, (hpresents token _ hp).2 Sample.stranger_not_kept⟩,
    (hrecords _).mpr ⟨token, [Sample.key], hp, Sample.fetched_fresh, by decide⟩⟩

end Gate

end BearerGate
