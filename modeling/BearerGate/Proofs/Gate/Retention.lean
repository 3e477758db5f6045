import BearerGate.Proofs.Gate.Provenance

namespace BearerGate

namespace Gate

section Step

variable {g : Gate} {w : World}

theorem fetch_cache_of_error {clock : Clock} {server : KeyServer} {force : Bool} {cache : Cache}
    {e : Failure} (h : (g.fetch clock server force cache).result = .error e) :
    (g.fetch clock server force cache).cache = cache := by
  unfold fetch at h ⊢
  split at h
  next => simp at h
  next => exact download_cache_of_error h

/-- The steps that bring no keys. -/
inductive Fruitless (g : Gate) (w : World) : Step → Prop
  | failing {s : Step} (h : w.keyServer.Fails) : Fruitless g w s
  | unasked {s : Step} (h : (g.step w s).2.requests = []) : Fruitless g w s
  | refused {force : Bool} {e : Failure} (h : (g.step w (.fetch force)).2.result = .error e) :
    Fruitless g w (.fetch force)
  | cancelled (force : Bool) : Fruitless g w (.fetchCancelled force)

theorem Fruitless.cache {s : Step} (h : g.Fruitless w s) : (g.step w s).1.cache = w.cache := by
  cases h with
  | failing hfails =>
    exact cache_of_not_downloads fun document keys hd =>
      KeyServer.fails_iff.mp hfails document keys hd.served
  | unasked hnil => exact cache_of_not_downloads fun _ _ => not_downloads_of_requests_eq_nil hnil
  | @refused force e hresult =>
    change (g.fetch w.clock w.keyServer force w.cache).result.map Answer.keys = .error e at hresult
    cases hr : (g.fetch w.clock w.keyServer force w.cache).result with
    | ok keys => simp [hr, Except.map] at hresult
    | error e' => exact fetch_cache_of_error hr
  | cancelled force => exact fetchCancelled_cache

theorem fresh_result :
    (g.step w .fresh).2.result = .ok (.fresh (g.fresh? w.clock w.cache).isSome) := rfl

theorem isSome_fresh?_iff (h : ∀ snap, w.cache = some snap → 0 < g.lifetime) :
    (g.fresh? w.clock w.cache).isSome = true ↔
      ∃ snap, w.cache = some snap ∧ w.clock.elapsed - snap.taken < (g.lifetime : Rat) := by
  rw [Option.isSome_iff_exists]
  constructor
  · rintro ⟨keys, hfresh⟩
    obtain ⟨snap, hc, _, _, ht⟩ := fresh?_eq_some_iff.mp hfresh
    exact ⟨snap, hc, ht⟩
  · rintro ⟨snap, hc, ht⟩
    exact ⟨snap.keys, fresh?_eq_some_iff.mpr ⟨snap, hc, rfl, h snap hc, ht⟩⟩

end Step

section Run

variable {g : Gate} {start : World} {steps : List Step} {i : Nat}

theorem LastDownload.unique {j j' : Nat} {document document' : Json} {keys keys' : KeySet}
    (h : g.LastDownload start steps i j document keys)
    (h' : g.LastDownload start steps i j' document' keys') : j = j' ∧ keys = keys' := by
  have hle : ¬j < j' := fun hlt => h.last j' hlt h'.before _ _ h'.succeeds
  have hge : ¬j' < j := fun hlt => h'.last j hlt h.before _ _ h.succeeds
  have hj : j = j' := by omega
  subst hj
  obtain ⟨_, _, hd⟩ := h.succeeds
  obtain ⟨_, _, hd'⟩ := h'.succeeds
  exact ⟨rfl, (hd.served.unique hd'.served).2⟩

theorem lifetime_pos_of_kept {snap : Snapshot}
    (hcache : g.CacheTells start steps i (g.worldAt start steps i).cache)
    (hsnap : (g.worldAt start steps i).cache = some snap) : 0 < g.lifetime := by
  rw [hsnap] at hcache
  exact hcache.1

theorem CacheTells.eq_some_iff (hl : 0 < g.lifetime)
    (hcache : g.CacheTells start steps i (g.worldAt start steps i).cache) {snap : Snapshot} :
    (g.worldAt start steps i).cache = some snap ↔
      ∃ j document, g.LastDownload start steps i j document snap.keys ∧
        snap.taken = (g.worldAt start steps j).clock.elapsed := by
  constructor
  · intro hsnap
    rw [hsnap] at hcache
    exact hcache.2
  · rintro ⟨j, document, hlast, htaken⟩
    cases hkept : (g.worldAt start steps i).cache with
    | none =>
      rw [hkept] at hcache
      exact absurd hlast.succeeds (hcache hl j hlast.before _ _)
    | some snap' =>
      rw [hkept] at hcache
      obtain ⟨_, j', document', hlast', htaken'⟩ := hcache
      obtain ⟨rfl, hkeys⟩ := hlast.unique hlast'
      have htimes : snap.taken = snap'.taken := htaken.trans htaken'.symm
      cases snap
      cases snap'
      simp_all

theorem CacheTells.eq_none_iff (hl : 0 < g.lifetime)
    (hcache : g.CacheTells start steps i (g.worldAt start steps i).cache) :
    (g.worldAt start steps i).cache = none ↔
      ∀ l < i, ∀ document keys, ¬g.DownloadsAt start steps l document keys := by
  constructor
  · intro hnone
    rw [hnone] at hcache
    exact hcache hl
  · intro hno
    cases hkept : (g.worldAt start steps i).cache with
    | none => rfl
    | some snap =>
      obtain ⟨j, document, hlast, _⟩ := (hcache.eq_some_iff hl).mp hkept
      exact absurd hlast.succeeds (hno j hlast.before _ _)

/-- With a lifetime exactly the keys and the time of the last download that succeeded are kept. -/
theorem keeps_last_download (hempty : start.cache = none) (hi : i ≤ steps.length) :
    let w := g.worldAt start steps i
    (g.lifetime ≤ 0 → w.cache = none ∧ (g.step w .fresh).2.result = .ok (.fresh false)) ∧
    (0 < g.lifetime →
      (∀ snap, w.cache = some snap ↔ ∃ j document,
        g.LastDownload start steps i j document snap.keys ∧
          snap.taken = (g.worldAt start steps j).clock.elapsed) ∧
      (w.cache = none ↔ ∀ l < i, ∀ document keys, ¬g.DownloadsAt start steps l document keys)) ∧
    (∀ s, g.Fruitless w s → (g.step w s).1.cache = w.cache) ∧
    ∃ fresh, (g.step w .fresh).2.result = .ok (.fresh fresh) ∧
      (fresh = true ↔
        ∃ snap, w.cache = some snap ∧ w.clock.elapsed - snap.taken < (g.lifetime : Rat)) := by
  intro w
  have hcache : g.CacheTells start steps i w.cache := cacheTells hempty hi
  have hpos : ∀ snap, w.cache = some snap → 0 < g.lifetime :=
    fun _ hsnap => lifetime_pos_of_kept hcache hsnap
  refine ⟨?_, fun hl => ⟨fun _ => hcache.eq_some_iff hl, hcache.eq_none_iff hl⟩,
    fun _ hs => hs.cache, _, fresh_result, isSome_fresh?_iff hpos⟩
  intro hl
  have hnone : w.cache = none := by
    cases hkept : w.cache with
    | none => rfl
    | some snap =>
      have hsnap := hpos snap hkept
      omega
  exact ⟨hnone, by simp [fresh_result, hnone, fresh?]⟩

end Run

namespace Sample

/-- The keys get as old as their lifetime while no answer comes any more. -/
def silent : List Step := [.fetch false, .keyServer .hangs, .advance 0 10]

theorem silent_cache : (gate.worldAt start silent 3).cache = some ⟨[key], 0⟩ := by decide +kernel

end Sample

/-- A forced fetch gets no answer: the keys stay, although they are no longer fresh. -/
theorem sample_keeps_last_download :
    let w := Sample.gate.worldAt Sample.start Sample.silent 3
    (∃ j document, Sample.gate.LastDownload Sample.start Sample.silent 3 j document [Sample.key] ∧
      0 = (Sample.gate.worldAt Sample.start Sample.silent j).clock.elapsed) ∧
    (Sample.gate.step w (.fetch true)).1.cache = w.cache ∧
    ∃ fresh, (Sample.gate.step w .fresh).2.result = .ok (.fresh fresh) ∧
      (fresh = true ↔
        ∃ snap, w.cache = some snap ∧
          w.clock.elapsed - snap.taken < (Sample.gate.lifetime : Rat)) := by
  have hlength : 3 ≤ Sample.silent.length := by decide
  obtain ⟨_, hkeeps, hfruitless, hfresh⟩ :=
    keeps_last_download (g := Sample.gate) (rfl : Sample.start.cache = none) hlength
  exact ⟨((hkeeps (by decide)).1 _).mp Sample.silent_cache, hfruitless _ (.failing .hangs), hfresh⟩

end Gate

end BearerGate
