import BearerGate.Proofs.Gate.Authentication

namespace BearerGate

namespace Gate

variable {g : Gate} {clock : Clock} {server : KeyServer} {cache : Cache} {kid : Text} {w : World}
  {authorization : Option Text}

theorem keep_keep {keys : KeySet} :
    g.keep clock keys (g.keep clock keys cache) = g.keep clock keys cache := by
  unfold keep
  split <;> rfl

theorem fresh?_keep {keys : KeySet} (hlife : 0 < g.lifetime) :
    g.fresh? clock (g.keep clock keys cache) = some keys := by
  have hage : clock.elapsed - clock.elapsed < (g.lifetime : Rat) := by
    rw [Rat.sub_self]
    exact_mod_cast hlife
  rw [keep, if_pos hlife]
  exact fresh?_eq_some_iff.mpr ⟨_, rfl, rfl, hlife, hage⟩

/-- Of a download only the cache that it leaves depends on the cache that it finds. -/
theorem download_of_cache {cache' : Cache} :
    g.download clock server cache' =
      { g.download clock server cache with
        cache := match (g.download clock server cache).result with
          | .ok keys => g.keep clock keys cache'
          | .error _ => cache' } := by
  unfold download
  cases g.mayStart with
  | false => rfl
  | true => cases Target.ofText? g.issuer.keySetUrl <;> rfl

theorem download_again :
    g.download clock server (g.download clock server cache).cache =
      g.download clock server cache := by
  rw [@download_of_cache _ _ _ cache (g.download clock server cache).cache]
  cases hr : (g.download clock server cache).result with
  | error e => rfl
  | ok keys =>
    have hcache := download_cache_of_ok hr
    have hkeep : g.keep clock keys (g.download clock server cache).cache =
        (g.download clock server cache).cache := by rw [hcache, keep_keep]
    simp only [hkeep]

/-- A key that is kept only since a download is the one that the download finds. -/
theorem findKey_download_of_kept {key : PublishedKey} (hmiss : g.kept? clock cache kid = none)
    (hkept : g.kept? clock (g.download clock server cache).cache kid = some key) :
    (g.download clock server cache).result.bind (findKey kid) = .ok key := by
  cases hr : (g.download clock server cache).result with
  | error e =>
    rw [download_cache_of_error hr, hmiss] at hkept
    cases hkept
  | ok keys =>
    rw [download_cache_of_ok hr] at hkept
    by_cases hlife : 0 < g.lifetime
    · rw [kept?, fresh?_keep hlife] at hkept
      exact findKey_eq_ok_iff.mpr hkept
    · rw [keep, if_neg hlife, hmiss] at hkept
      cases hkept

/-- The second use comes to the same, leaves the cache alone and asks for no more. -/
structure Repeats {α : Type} (first second : Run α) : Prop where
  result : second.result = first.result
  cache : second.cache = first.cache
  requests : second.requests.Sublist first.requests

theorem Repeats.refl {α : Type} (run : Run α) : Repeats run run :=
  ⟨rfl, rfl, List.Sublist.refl _⟩

theorem repeats_resolveKey :
    Repeats (g.resolveKey clock server kid cache)
      (g.resolveKey clock server kid (g.resolveKey clock server kid cache).cache) := by
  cases hk : g.kept? clock cache kid with
  | some key =>
    have hcache : (g.resolveKey clock server kid cache).cache = cache := by
      rw [resolveKey_of_kept hk]
    rw [hcache]
    exact Repeats.refl _
  | none =>
    have hfirst := @resolveKey_of_not_kept g clock server cache kid hk
    have hcache : (g.resolveKey clock server kid cache).cache =
        (g.download clock server cache).cache := by rw [hfirst]
    rw [hcache, hfirst]
    cases hk' : g.kept? clock (g.download clock server cache).cache kid with
    | some key =>
      -- The first use has downloaded the key, and the second finds it kept.
      rw [resolveKey_of_kept hk']
      exact ⟨(findKey_download_of_kept hk hk').symm, rfl, List.nil_sublist _⟩
    | none =>
      rw [resolveKey_of_not_kept hk', download_again]
      exact ⟨rfl, rfl, List.Sublist.refl _⟩

theorem repeats_verifiedPayload :
    Repeats (g.verifiedPayload clock server authorization cache)
      (g.verifiedPayload clock server authorization
        (g.verifiedPayload clock server authorization cache).cache) := by
  by_cases hp : ∃ token kid, Presents authorization token kid
  · obtain ⟨token, kid, hp⟩ := hp
    have hagain := @repeats_resolveKey g clock server cache kid
    have hcache : (g.verifiedPayload clock server authorization cache).cache =
        (g.resolveKey clock server kid cache).cache := by rw [verifiedPayload_of_presents hp]
    rw [hcache, verifiedPayload_of_presents hp, verifiedPayload_of_presents hp]
    refine ⟨?_, hagain.cache, hagain.requests⟩
    simp only [hagain.result]
  · obtain ⟨r, _, hr⟩ := verifiedPayload_of_not_presents g clock server cache hp
    have hcache : (g.verifiedPayload clock server authorization cache).cache = cache := by rw [hr]
    rw [hcache]
    exact Repeats.refl _

theorem repeats_authenticate :
    Repeats (g.authenticate clock server authorization cache)
      (g.authenticate clock server authorization
        (g.authenticate clock server authorization cache).cache) := by
  obtain ⟨hresult, hcache, hrequests⟩ :=
    @repeats_verifiedPayload g clock server cache authorization
  refine ⟨?_, ?_, ?_⟩
  · rw [authenticate_result, authenticate_result, authenticate_cache, hresult]
  · rw [authenticate_cache, authenticate_cache, hcache]
  · rw [authenticate_requests, authenticate_requests, authenticate_cache]
    exact hrequests

/-- A step that leaves the world as it is can be taken any number of times. -/
theorem run_replicate {s : Step} {seen : Observation} (h : g.step w s = (w, seen)) (n : Nat) :
    g.run w (List.replicate n s) = (w, List.replicate n seen) := by
  induction n with
  | zero => rfl
  | succ n ih => simp only [List.replicate_succ, run, h, ih]

/-- Requests in a row get the answer of the first, and leave all as the first left it. -/
theorem retrying_changes_nothing (g : Gate) (w : World) (authorization : Option Text) :
    let first := g.step w (.authenticate authorization)
    let second := g.step first.1 (.authenticate authorization)
    second.2.result = first.2.result ∧ second.1 = first.1 ∧
      second.2.requests.Sublist first.2.requests ∧
      ∀ n, g.run first.1 (List.replicate n (.authenticate authorization)) =
        (first.1, List.replicate n second.2) := by
  intro first second
  obtain ⟨hresult, hcache, hrequests⟩ :=
    @repeats_authenticate g w.clock w.keyServer w.cache authorization
  have hworld : second.1 = first.1 := congrArg (World.mk w.clock w.keyServer) hcache
  have hstep : g.step first.1 (.authenticate authorization) = (first.1, second.2) :=
    Prod.ext hworld rfl
  exact ⟨congrArg (Except.map Answer.claims) hresult, hworld, hrequests,
    fun n => run_replicate hstep n⟩

end Gate

end BearerGate
