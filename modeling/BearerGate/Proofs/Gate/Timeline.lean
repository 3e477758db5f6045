import BearerGate.Proofs.Gate.Authentication

namespace BearerGate

namespace Gate

section Step

variable {g : Gate} {w : World} {s : Step} {document : Json} {keys : KeySet}

/-- In this step the gate asks at the address of the key set and is served this document. -/
structure Downloads (g : Gate) (w : World) (s : Step) (document : Json) (keys : KeySet) : Prop where
  asked : ∃ target, Target.ofText? g.issuer.keySetUrl = some target ∧ target.hasHost = true ∧
    target.text ∈ (g.step w s).2.requests
  awaited : ∀ force, s ≠ .fetchCancelled force
  served : w.keyServer.Serves document keys

theorem asked_iff {target : Target} {cache : Cache}
    (h : Target.ofText? g.issuer.keySetUrl = some target) :
    target.text ∈ (g.download w.clock w.keyServer cache).requests ↔ g.asks? = some target := by
  rw [download_requests]
  constructor
  · intro hm
    cases ha : g.asks? with
    | none => simp [ha] at hm
    | some target' =>
      rw [← (asks?_eq_some_iff.mp ha).2, h]
  · intro ha
    simp [ha]

theorem downloads_iff_receives (hs : ∀ force, s ≠ .fetchCancelled force)
    (hr : (g.step w s).2.requests = (g.download w.clock w.keyServer w.cache).requests) :
    g.Downloads w s document keys ↔ g.Receives w.keyServer document keys := by
  constructor
  · rintro ⟨⟨target, ht, hhost, hm⟩, _, served⟩
    rw [hr] at hm
    exact ⟨served, target, (asked_iff ht).mp hm, hhost⟩
  · rintro ⟨served, target, ha, hhost⟩
    have ht := (asks?_eq_some_iff.mp ha).2
    exact ⟨⟨target, ht, hhost, hr ▸ (asked_iff ht).mpr ha⟩, hs, served⟩

theorem not_downloads_of_requests_eq_nil (h : (g.step w s).2.requests = []) :
    ¬g.Downloads w s document keys := by
  rintro ⟨⟨target, _, _, hm⟩, _, _⟩
  simp [h] at hm

/-- The key server is not used and the cache stays, or both are as a download leaves them. -/
def LeavesOrDownloads {α : Type} (g : Gate) (w : World) (run : Run α) : Prop :=
  run.cache = w.cache ∧ run.requests = [] ∨
    run.cache = (g.download w.clock w.keyServer w.cache).cache ∧
      run.requests = (g.download w.clock w.keyServer w.cache).requests

theorem leavesOrDownloads_fetch {force : Bool} :
    g.LeavesOrDownloads w (g.fetch w.clock w.keyServer force w.cache) := by
  unfold fetch
  split
  · exact .inl ⟨rfl, rfl⟩
  · exact .inr ⟨rfl, rfl⟩

theorem leavesOrDownloads_resolveKey {kid : Text} :
    g.LeavesOrDownloads w (g.resolveKey w.clock w.keyServer kid w.cache) := by
  cases hk : g.kept? w.clock w.cache kid with
  | some key =>
    rw [resolveKey_of_kept hk]
    exact .inl ⟨rfl, rfl⟩
  | none =>
    rw [resolveKey_of_not_kept hk]
    exact .inr ⟨rfl, rfl⟩

theorem leavesOrDownloads_authenticate {authorization : Option Text} :
    g.LeavesOrDownloads w (g.authenticate w.clock w.keyServer authorization w.cache) := by
  unfold LeavesOrDownloads
  rw [authenticate_cache, authenticate_requests]
  by_cases hp : ∃ token kid, Presents authorization token kid
  · obtain ⟨token, kid, hp⟩ := hp
    rw [verifiedPayload_of_presents hp]
    exact leavesOrDownloads_resolveKey
  · obtain ⟨r, _, hr⟩ := verifiedPayload_of_not_presents g w.clock w.keyServer w.cache hp
    rw [hr]
    exact .inl ⟨rfl, rfl⟩

theorem fetchCancelled_cache {force : Bool} :
    (g.fetchCancelled w.clock force w.cache).cache = w.cache := by
  have hcache : (g.download w.clock .hangs w.cache).cache = w.cache := by
    cases hr : (g.download w.clock .hangs w.cache).result with
    | error e => exact download_cache_of_error hr
    | ok keys =>
      obtain ⟨_, ⟨_, _, _, hs, _⟩, _⟩ := download_result_eq_ok_iff.mp hr
      simp at hs
  unfold fetchCancelled
  split
  · rfl
  · dsimp only
    split <;> exact hcache

/-- A step keeps what it downloads, or the cache stays as it is. -/
def Settles (g : Gate) (w : World) (s : Step) : Prop :=
  (∃ document keys, g.Downloads w s document keys ∧
    (g.step w s).1.cache = g.keep w.clock keys w.cache) ∨
  (∀ document keys, ¬g.Downloads w s document keys) ∧ (g.step w s).1.cache = w.cache

theorem settles_of_leavesOrDownloads (hs : ∀ force, s ≠ .fetchCancelled force)
    {α : Type} {run : Run α} (hrun : g.LeavesOrDownloads w run)
    (hcache : (g.step w s).1.cache = run.cache)
    (hrequests : (g.step w s).2.requests = run.requests) : g.Settles w s := by
  rcases hrun with ⟨hc, hr⟩ | ⟨hc, hr⟩
  · exact .inr ⟨fun _ _ => not_downloads_of_requests_eq_nil (hrequests.trans hr), hcache.trans hc⟩
  · have hiff : ∀ document keys,
        g.Downloads w s document keys ↔ g.Receives w.keyServer document keys :=
      fun _ _ => downloads_iff_receives hs (hrequests.trans hr)
    cases hres : (g.download w.clock w.keyServer w.cache).result with
    | ok keys =>
      obtain ⟨document, hd⟩ := download_result_eq_ok_iff.mp hres
      refine .inl ⟨document, keys, (hiff document keys).mpr hd, ?_⟩
      rw [hcache, hc, download_cache_of_ok hres]
    | error e =>
      refine .inr ⟨fun document keys hd => ?_, ?_⟩
      · have hok : (g.download w.clock w.keyServer w.cache).result = .ok keys :=
          download_result_eq_ok_iff.mpr ⟨document, (hiff document keys).mp hd⟩
        rw [hres] at hok
        cases hok
      · rw [hcache, hc, download_cache_of_error hres]

theorem settles (g : Gate) (w : World) (s : Step) : g.Settles w s := by
  cases s with
  | keyServer server => exact .inr ⟨fun _ _ => not_downloads_of_requests_eq_nil rfl, rfl⟩
  | advance now elapsed => exact .inr ⟨fun _ _ => not_downloads_of_requests_eq_nil rfl, rfl⟩
  | fresh => exact .inr ⟨fun _ _ => not_downloads_of_requests_eq_nil rfl, rfl⟩
  | authenticate authorization =>
    exact settles_of_leavesOrDownloads (by simp) leavesOrDownloads_authenticate rfl rfl
  | fetch force => exact settles_of_leavesOrDownloads (by simp) leavesOrDownloads_fetch rfl rfl
  | fetchCancelled force =>
    exact .inr ⟨fun _ _ h => h.awaited force rfl, fetchCancelled_cache⟩

theorem Downloads.receives (h : g.Downloads w s document keys) :
    g.Receives w.keyServer document keys := by
  have hof {α : Type} {run : Run α} (hrun : g.LeavesOrDownloads w run)
      (hrequests : (g.step w s).2.requests = run.requests) :
      g.Receives w.keyServer document keys := by
    rcases hrun with ⟨_, hr⟩ | ⟨_, hr⟩
    · exact absurd h (not_downloads_of_requests_eq_nil (hrequests.trans hr))
    · exact (downloads_iff_receives h.awaited (hrequests.trans hr)).mp h
  cases s with
  | keyServer server => exact absurd h (not_downloads_of_requests_eq_nil rfl)
  | advance now elapsed => exact absurd h (not_downloads_of_requests_eq_nil rfl)
  | fresh => exact absurd h (not_downloads_of_requests_eq_nil rfl)
  | authenticate authorization => exact hof leavesOrDownloads_authenticate rfl
  | fetch force => exact hof leavesOrDownloads_fetch rfl
  | fetchCancelled force => exact absurd rfl (h.awaited force)

theorem cache_of_not_downloads (h : ∀ document keys, ¬g.Downloads w s document keys) :
    (g.step w s).1.cache = w.cache := by
  rcases g.settles w s with ⟨document, keys, hd, _⟩ | ⟨_, hc⟩
  · exact absurd hd (h document keys)
  · exact hc

end Step

def worldAt (g : Gate) (start : World) (steps : List Step) (i : Nat) : World :=
  (g.run start (steps.take i)).1

section Run

variable {g : Gate} {start : World} {steps : List Step} {i : Nat} {s : Step}

theorem worldAt_zero : g.worldAt start steps 0 = start := rfl

theorem worldAt_succ (h : steps[i]? = some s) :
    g.worldAt start steps (i + 1) = (g.step (g.worldAt start steps i) s).1 := by
  induction steps generalizing start i with
  | nil => simp at h
  | cons t rest ih =>
    cases i with
    | zero =>
      obtain rfl : t = s := by simpa using h
      rfl
    | succ i => exact ih (by simpa using h)

theorem run_observed (h : steps[i]? = some s) :
    (g.run start steps).2[i]? = some (g.step (g.worldAt start steps i) s).2 := by
  induction steps generalizing start i with
  | nil => simp at h
  | cons t rest ih =>
    cases i with
    | zero =>
      obtain rfl : t = s := by simpa using h
      rfl
    | succ i => exact ih (by simpa using h)

/-- In step `i` of the run a download succeeds and gets this document. -/
def DownloadsAt (g : Gate) (start : World) (steps : List Step) (i : Nat) (document : Json)
    (keys : KeySet) : Prop :=
  ∃ s, steps[i]? = some s ∧ g.Downloads (g.worldAt start steps i) s document keys

structure LastDownload (g : Gate) (start : World) (steps : List Step) (i j : Nat)
    (document : Json) (keys : KeySet) : Prop where
  before : j < i
  succeeds : g.DownloadsAt start steps j document keys
  last : ∀ l, j < l → l < i → ∀ document keys, ¬g.DownloadsAt start steps l document keys

/-- Before step `i` the keys and the time of the last download are kept, if there was one. -/
def CacheTells (g : Gate) (start : World) (steps : List Step) (i : Nat) : Cache → Prop
  | none => 0 < g.lifetime → ∀ l < i, ∀ document keys, ¬g.DownloadsAt start steps l document keys
  | some snap => 0 < g.lifetime ∧ ∃ j document,
    g.LastDownload start steps i j document snap.keys ∧
      snap.taken = (g.worldAt start steps j).clock.elapsed

theorem cacheTells_succ (h : steps[i]? = some s)
    (ih : g.CacheTells start steps i (g.worldAt start steps i).cache) :
    g.CacheTells start steps (i + 1) (g.worldAt start steps (i + 1)).cache := by
  rw [worldAt_succ h]
  rcases g.settles (g.worldAt start steps i) s with ⟨document, keys, hd, hc⟩ | ⟨hno, hc⟩
  · -- Step `i` itself is the last download now; what was kept before does not matter.
    rw [hc]
    have hdi : g.DownloadsAt start steps i document keys := ⟨s, h, hd⟩
    by_cases hl : 0 < g.lifetime
    · rw [keep, if_pos hl]
      refine ⟨hl, i, document, ⟨by omega, hdi, ?_⟩, rfl⟩
      intro l hil hli
      omega
    · rw [keep, if_neg hl]
      cases hcache : (g.worldAt start steps i).cache with
      | none => exact fun h => absurd h hl
      | some snap =>
        rw [hcache] at ih
        exact absurd ih.1 hl
  · -- The cache is the one of before, and no download has come after the one it tells of.
    rw [hc]
    have hnoi : ∀ document keys, ¬g.DownloadsAt start steps i document keys := by
      rintro document keys ⟨s', hs', hd⟩
      cases Option.some.inj (h.symm.trans hs')
      exact hno document keys hd
    cases hcache : (g.worldAt start steps i).cache with
    | none =>
      rw [hcache] at ih
      intro hl l hli
      rcases Nat.lt_succ_iff_lt_or_eq.mp hli with hlt | rfl
      · exact ih hl l hlt
      · exact hnoi
    | some snap =>
      rw [hcache] at ih
      obtain ⟨hl, j, document, ⟨hji, hdj, hlast⟩, ht⟩ := ih
      refine ⟨hl, j, document, ⟨by omega, hdj, ?_⟩, ht⟩
      intro l hjl hli
      rcases Nat.lt_succ_iff_lt_or_eq.mp hli with hlt | rfl
      · exact hlast l hjl hlt
      · exact hnoi

/-- Every run that begins with nothing kept keeps what its downloads say, up to its end. -/
theorem cacheTells (hempty : start.cache = none) (hi : i ≤ steps.length) :
    g.CacheTells start steps i (g.worldAt start steps i).cache := by
  induction i with
  | zero =>
    rw [worldAt_zero, hempty]
    intro _ l hl
    omega
  | succ i ih => exact cacheTells_succ (List.getElem?_eq_getElem (by omega)) (ih (by omega))

end Run

end Gate

end BearerGate
