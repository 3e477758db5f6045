import BearerGate.Proofs.Gate.Provenance

namespace BearerGate

def Step.keyServer? : Step → Option KeyServer
  | .keyServer server => some server
  | _ => none

namespace KeyServer

theorem Serves.offers_iff {server : KeyServer} {document : Json} {keys : KeySet} {kid : Text}
    {key : PublishedKey} (h : server.Serves document keys) :
    server.Offers kid key ↔ keys.find? kid = some key := by
  constructor
  · rintro ⟨document', keys', h', hp⟩
    obtain ⟨rfl, rfl⟩ := h.unique h'
    exact (Gate.find?_eq_some_iff_of_serves h).mpr hp
  · intro hf
    exact ⟨document, keys, h, (Gate.find?_eq_some_iff_of_serves h).mp hf⟩

/-- What the earlier one has first under an identifier, the later one has first under it too. -/
def ExtendedBy (earlier later : KeyServer) : Prop :=
  ∀ kid key, earlier.Offers kid key → later.Offers kid key

end KeyServer

namespace Gate

/-- The same gate with nothing kept: it asks for the keys every time. -/
def keepless (g : Gate) : Gate := { g with lifetime := 0 }

/-- The key servers of a run in their order. -/
def keyServers (start : World) (steps : List Step) : List KeyServer :=
  start.keyServer :: steps.filterMap Step.keyServer?

section Step

variable {g : Gate} {w w₀ : World} {s : Step} {clock : Clock} {server : KeyServer} {kid : Text}

theorem step_clock_congr {g' : Gate} {w' : World} (h : w'.clock = w.clock) :
    (g'.step w' s).1.clock = (g.step w s).1.clock := by
  cases s with
  | advance now elapsed =>
    change w'.clock.advance now elapsed = w.clock.advance now elapsed
    rw [h]
  | _ => exact h

theorem step_keyServer : (g.step w s).1.keyServer = s.keyServer?.getD w.keyServer := by
  cases s <;> rfl

/-- The keys of a snapshot are still offered, where the gate gets to asking. -/
structure Current (g : Gate) (server : KeyServer) (snap : Snapshot) : Prop where
  reached : ∃ target, g.asks? = some target ∧ target.hasHost = true
  offered : ∀ kid key, snap.keys.find? kid = some key → server.Offers kid key

theorem Current.extend {server' : KeyServer} {snap : Snapshot} (h : g.Current server snap)
    (hext : server.ExtendedBy server') : g.Current server' snap :=
  ⟨h.reached, fun kid key hf => hext kid key (h.offered kid key hf)⟩

theorem Downloads.current {document : Json} {keys : KeySet} {taken : Rat}
    (h : g.Downloads w s document keys) : g.Current w.keyServer ⟨keys, taken⟩ :=
  ⟨h.receives.2, fun _ _ hf => h.served.offers_iff.mpr hf⟩

/-- Worlds of the same run, of a gate that keeps keys and of the same gate with nothing kept. -/
structure Mirrors (g : Gate) (w w₀ : World) : Prop where
  clock : w₀.clock = w.clock
  keyServer : w₀.keyServer = w.keyServer
  empty : w₀.cache = none
  current : ∀ snap, w.cache = some snap → g.Current w.keyServer snap

theorem keepless_step_cache : (g.keepless.step w₀ s).1.cache = w₀.cache := by
  rcases g.keepless.settles w₀ s with ⟨_, _, _, hc⟩ | ⟨_, hc⟩
  · exact hc
  · exact hc

/-- The relation of the worlds outlasts a step that extends the key server. -/
theorem Mirrors.step (h : g.Mirrors w w₀)
    (hext : ∀ server, s.keyServer? = some server → w.keyServer.ExtendedBy server) :
    g.Mirrors (g.step w s).1 (g.keepless.step w₀ s).1 := by
  have hnext : w.keyServer.ExtendedBy (g.step w s).1.keyServer := by
    rw [step_keyServer]
    cases hs : s.keyServer? with
    | none => exact fun _ _ ho => ho
    | some server => exact hext server hs
  refine ⟨step_clock_congr h.clock, ?_, keepless_step_cache.trans h.empty, ?_⟩
  · rw [step_keyServer, step_keyServer, h.keyServer]
  intro snap hsnap
  -- What is kept after the step was served in it or kept before, and so it was current before.
  have hcurrent : g.Current w.keyServer snap := by
    rcases g.settles w s with ⟨document, keys, hd, hc⟩ | ⟨_, hc⟩
    · rw [hc, keep] at hsnap
      split at hsnap
      next =>
        cases Option.some.inj hsnap
        exact hd.current
      next => exact h.current snap hsnap
    · exact h.current snap (hc.symm.trans hsnap)
  exact hcurrent.extend hnext

theorem keepless_fresh? {cache : Cache} : g.keepless.fresh? clock cache = none := by
  cases hf : g.keepless.fresh? clock cache with
  | none => rfl
  | some keys =>
    obtain ⟨_, _, _, hl, _⟩ := fresh?_eq_some_iff.mp hf
    exact absurd hl (Int.lt_irrefl 0)

theorem keepless_download_result {cache cache₀ : Cache} :
    (g.keepless.download clock server cache₀).result = (g.download clock server cache).result := by
  have hstart : g.keepless.mayStart = g.mayStart := rfl
  have hissuer : g.keepless.issuer = g.issuer := rfl
  unfold download
  rw [hstart, hissuer]
  cases g.mayStart with
  | false => rfl
  | true => cases Target.ofText? g.issuer.keySetUrl <;> rfl

/-- A kept key is the one that a download would find. -/
theorem Mirrors.resolveKey_result (h : g.Mirrors w w₀) :
    (g.keepless.resolveKey w₀.clock w₀.keyServer kid w₀.cache).result =
      (g.resolveKey w.clock w.keyServer kid w.cache).result := by
  rw [h.clock, h.keyServer]
  have hmiss : g.keepless.kept? w.clock w₀.cache kid = none := by
    rw [kept?, keepless_fresh?, Option.bind_none]
  cases hk : g.kept? w.clock w.cache kid with
  | none =>
    rw [resolveKey_of_not_kept hmiss, resolveKey_of_not_kept hk]
    exact congrArg (·.bind (findKey kid)) keepless_download_result
  | some key =>
    -- What is kept under the identifier is still offered, so the other gate is served it now.
    rw [resolveKey_of_kept hk]
    obtain ⟨keys, hfresh, hfind⟩ := Option.bind_eq_some_iff.mp hk
    obtain ⟨snap, hsnap, rfl, _, _⟩ := fresh?_eq_some_iff.mp hfresh
    have hcurrent := h.current snap hsnap
    obtain ⟨document, keys, hserves, hpublishes⟩ := hcurrent.offered kid key hfind
    exact resolveKey_result_eq_ok_iff.mpr (.inr ⟨hmiss, document, keys,
      ⟨hserves, hcurrent.reached⟩, (find?_eq_some_iff_of_serves hserves).mpr hpublishes⟩)

theorem Mirrors.authenticate_result (h : g.Mirrors w w₀) {authorization : Option Text} :
    (g.keepless.step w₀ (.authenticate authorization)).2.result =
      (g.step w (.authenticate authorization)).2.result := by
  change (g.keepless.authenticate w₀.clock w₀.keyServer authorization w₀.cache).result.map _ =
    (g.authenticate w.clock w.keyServer authorization w.cache).result.map _
  have hissuer : g.keepless.issuer = g.issuer := rfl
  have hresolve : ∀ kid, (g.keepless.resolveKey w.clock w₀.keyServer kid w₀.cache).result =
      (g.resolveKey w.clock w.keyServer kid w.cache).result := by
    intro kid
    rw [← h.clock, h.resolveKey_result, h.clock]
  rw [h.clock, authenticate_result_congr hissuer hresolve]

end Step

section Run

variable {g : Gate} {steps : List Step} {i : Nat} {authorization : Option Text}

theorem keyServers_cons {w : World} {s : Step} :
    keyServers w (s :: steps) =
      match s.keyServer? with
      | none => keyServers (g.step w s).1 steps
      | some _ => w.keyServer :: keyServers (g.step w s).1 steps := by
  unfold keyServers
  rw [step_keyServer]
  cases hs : s.keyServer? <;> simp [hs]

theorem Mirrors.run {w w₀ : World} (h : g.Mirrors w w₀)
    (hext : (keyServers w steps).Pairwise KeyServer.ExtendedBy) :
    g.Mirrors (g.worldAt w steps i) (g.keepless.worldAt w₀ steps i) := by
  induction steps generalizing w w₀ i with
  | nil =>
    have hstays : ∀ g' : Gate, ∀ w' : World, g'.worldAt w' [] i = w' := by
      intro g' w'
      rw [worldAt, List.take_nil]
      rfl
    rw [hstays, hstays]
    exact h
  | cons s rest ih =>
    cases i with
    | zero => exact h
    | succ i =>
      rw [keyServers_cons (g := g)] at hext
      cases hs : s.keyServer? with
      | none =>
        rw [hs] at hext
        exact ih (h.step (by simp [hs])) hext
      | some server =>
        rw [hs] at hext
        obtain ⟨hfirst, hrest⟩ := List.pairwise_cons.mp hext
        have hserver : (g.step w s).1.keyServer = server := by rw [step_keyServer, hs]; rfl
        have hnext : w.keyServer.ExtendedBy server := by
          rw [← hserver]
          exact hfirst _ List.mem_cons_self
        refine ih (h.step ?_) hrest
        intro server' hs'
        cases Option.some.inj (hs.symm.trans hs')
        exact hnext

/-- While the issuer only adds keys, a gate that keeps them and one that does not find the same. -/
theorem keeping_is_transparent {start : World} (hempty : start.cache = none)
    (hext : (keyServers start steps).Pairwise KeyServer.ExtendedBy)
    (hs : steps[i]? = some (.authenticate authorization)) :
    ∃ seen seen₀, (g.run start steps).2[i]? = some seen ∧
      (g.keepless.run start steps).2[i]? = some seen₀ ∧ seen.result = seen₀.result := by
  have hstart : g.Mirrors start start := ⟨rfl, rfl, hempty, by simp [hempty]⟩
  exact ⟨_, _, run_observed hs, run_observed hs, (hstart.run hext).authenticate_result.symm⟩

end Run

namespace Sample

/-- A document with another key in front, and behind the key one that it shadows. -/
def extendedKeySet : Text :=
  Text.ofString ("\x7b\"keys\":[\x7b\"kid\":\"z\",\"kty\":\"EC\"\x7d," ++
      "\x7b\"kid\":\"k\",\"kty\":\"RSA\",\"e\":\"Aw\",\"n\":\"") ++
    modulus ++ Text.ofString "\"\x7d,\x7b\"kid\":\"k\",\"kty\":\"EC\"\x7d]\x7d"

def extended : KeyServer := .answers 201 (extendedKeySet.map fun c => UInt8.ofNat c.val)

/-- The issuer adds keys, and the caller comes while the old keys are kept. -/
def additive : List Step :=
  [.fetch false, .keyServer extended, .advance 5 5, .authenticate (some authorization)]

theorem extendedBy : start.keyServer.ExtendedBy extended := by
  obtain ⟨_, hstart⟩ : ∃ document, start.keyServer.Serves document [key] :=
    KeyServer.exists_serves_iff.mpr ⟨200, _, rfl, by decide, by decide, by decide +kernel⟩
  obtain ⟨_, hextended⟩ : ∃ document, extended.Serves document
      [⟨some (Text.ofString "z"), .other (Text.ofString "EC") none⟩, key,
        ⟨some (Text.ofString "k"), .other (Text.ofString "EC") none⟩] :=
    KeyServer.exists_serves_iff.mpr ⟨201, _, rfl, by decide, by decide, by decide +kernel⟩
  intro kid key' hoffers
  rw [hstart.offers_iff] at hoffers
  rw [hextended.offers_iff]
  have hmem : key' = key := by simpa using List.mem_of_find?_eq_some hoffers
  have hkid : key'.kid = some kid := by simpa using List.find?_some hoffers
  subst hmem
  obtain rfl : Text.ofString "k" = kid := Option.some.inj hkid
  decide

end Sample

/-- The kept key is used where the other gate finds it between the added ones. -/
theorem sample_keeping_is_transparent :
    ∃ seen seen₀, (Sample.gate.run Sample.start Sample.additive).2[3]? = some seen ∧
      (Sample.gate.keepless.run Sample.start Sample.additive).2[3]? = some seen₀ ∧
      seen.result = seen₀.result :=
  keeping_is_transparent rfl (List.pairwise_pair.mpr Sample.extendedBy) rfl

end Gate

end BearerGate
