import BearerGate.Proofs.Gate.Timeline
import Mathlib.Tactic.Linarith

namespace BearerGate

/-- It serves a document that has the key first under this identifier. -/
def KeyServer.Offers (server : KeyServer) (kid : Text) (key : PublishedKey) : Prop :=
  ∃ document keys, server.Serves document keys ∧ KeySet.Publishes document kid key

namespace Gate

section Step

variable {g : Gate} {w : World} {authorization : Option Text} {token kid : Text}
  {key : PublishedKey}

theorem step_authenticate_requests :
    (g.step w (.authenticate authorization)).2.requests =
      (g.verifiedPayload w.clock w.keyServer authorization w.cache).requests :=
  authenticate_requests

theorem find?_eq_some_iff_of_serves {server : KeyServer} {document : Json} {keys : KeySet}
    (h : server.Serves document keys) :
    keys.find? kid = some key ↔ KeySet.Publishes document kid key := by
  obtain ⟨_, _, _, _, _, _, _, _, hk⟩ := h
  exact KeySet.find?_eq_some_iff_publishes hk

theorem find?_eq_none_iff_of_serves {server : KeyServer} {document : Json} {keys : KeySet}
    (h : server.Serves document keys) :
    keys.find? kid = none ↔ ∀ key, ¬KeySet.Publishes document kid key := by
  simp only [Option.eq_none_iff_forall_ne_some, ne_eq, find?_eq_some_iff_of_serves h]

theorem Selects.kept_or_downloads (h : g.Selects w authorization token kid key) :
    ((∃ snap, w.cache = some snap ∧ snap.keys.find? kid = some key ∧ 0 < g.lifetime ∧
        w.clock.elapsed - snap.taken < (g.lifetime : Rat)) ∧
      ∀ document keys, ¬g.Downloads w (.authenticate authorization) document keys) ∨
    ∃ document keys, g.Downloads w (.authenticate authorization) document keys ∧
      KeySet.Publishes document kid key := by
  rcases resolveKey_result_eq_ok_iff.mp h.resolved with hk | ⟨hk, document, keys, hd, hf⟩
  · refine .inl ⟨?_, ?_⟩
    · obtain ⟨keys, hfresh, hf⟩ := Option.bind_eq_some_iff.mp hk
      obtain ⟨snap, hc, rfl, hl, ht⟩ := fresh?_eq_some_iff.mp hfresh
      exact ⟨snap, hc, hf, hl, ht⟩
    · intro document keys
      refine not_downloads_of_requests_eq_nil ?_
      rw [step_authenticate_requests, verifiedPayload_of_presents h.toPresents,
        resolveKey_of_kept hk]
  · have hr : (g.step w (.authenticate authorization)).2.requests =
        (g.download w.clock w.keyServer w.cache).requests := by
      rw [step_authenticate_requests, verifiedPayload_of_presents h.toPresents,
        resolveKey_of_not_kept hk]
    exact .inr ⟨document, keys, (downloads_iff_receives (by simp) hr).mpr hd,
      (find?_eq_some_iff_of_serves hd.1).mp hf⟩

end Step

section Run

variable {g : Gate} {start : World} {steps : List Step} {i : Nat} {authorization : Option Text}
  {token kid : Text} {key : PublishedKey}

theorem DownloadsAt.serves {document : Json} {keys : KeySet}
    (h : g.DownloadsAt start steps i document keys) :
    (g.worldAt start steps i).keyServer.Serves document keys := by
  obtain ⟨_, _, hd⟩ := h
  exact hd.served

/-- A key is used if the last download has published it, in this step or within the lifetime. -/
theorem Selects.last_download (hempty : start.cache = none)
    (hs : steps[i]? = some (.authenticate authorization))
    (h : g.Selects (g.worldAt start steps i) authorization token kid key) :
    ∃ j document keys, g.LastDownload start steps (i + 1) j document keys ∧
      KeySet.Publishes document kid key ∧
      (j = i ∨ 0 < g.lifetime ∧ (g.worldAt start steps i).clock.elapsed -
        (g.worldAt start steps j).clock.elapsed < (g.lifetime : Rat)) := by
  obtain ⟨hi, _⟩ := List.getElem?_eq_some_iff.mp hs
  rcases h.kept_or_downloads with ⟨⟨snap, hc, hf, hl, ht⟩, hno⟩ | ⟨document, keys, hd, hp⟩
  · have hcache := g.cacheTells hempty (Nat.le_of_lt hi)
    rw [hc] at hcache
    obtain ⟨_, j, document, ⟨hji, hdj, hlast⟩, htaken⟩ := hcache
    refine ⟨j, document, snap.keys, ⟨by omega, hdj, ?_⟩, ?_, .inr ⟨hl, htaken ▸ ht⟩⟩
    · intro l hjl hli
      rcases Nat.lt_succ_iff_lt_or_eq.mp hli with hlt | rfl
      · exact hlast l hjl hlt
      · rintro document keys ⟨s, hs', hd⟩
        cases Option.some.inj (hs.symm.trans hs')
        exact hno document keys hd
    · exact (find?_eq_some_iff_of_serves hdj.serves).mp hf
  · refine ⟨i, document, keys, ⟨by omega, ⟨_, hs, hd⟩, ?_⟩, hp, .inl rfl⟩
    intro l hil hli
    omega

/-- A key that is not offered after `t₀` verifies nobody once the lifetime has passed since. -/
theorem withdrawn_key_expires (hempty : start.cache = none)
    (hs : steps[i]? = some (.authenticate authorization)) :
    (∀ token kid key, g.Selects (g.worldAt start steps i) authorization token kid key →
      ∃ j document keys, g.LastDownload start steps (i + 1) j document keys ∧
        KeySet.Publishes document kid key ∧
        (j = i ∨ 0 < g.lifetime ∧ (g.worldAt start steps i).clock.elapsed -
          (g.worldAt start steps j).clock.elapsed < (g.lifetime : Rat))) ∧
    (∀ kid old t₀,
      (∀ l ≤ i, t₀ < (g.worldAt start steps l).clock.elapsed ∨ l = i →
        ¬(g.worldAt start steps l).keyServer.Offers kid old) →
      t₀ + max (g.lifetime : Rat) 0 ≤ (g.worldAt start steps i).clock.elapsed →
      ∀ seen c, (g.run start steps).2[i]? = some seen → seen.result = .ok (.claims c) →
        ∃ token kid' key p, g.Selects (g.worldAt start steps i) authorization token kid' key ∧
          Verification.verify token key g.issuer (g.worldAt start steps i).clock.now = .ok p ∧
          Claims.ofPayload p = .ok c ∧ ¬(kid' = kid ∧ key = old)) := by
  refine ⟨fun token kid key => Selects.last_download hempty hs, ?_⟩
  intro kid old t₀ hgone hage seen c hseen hc
  cases Option.some.inj ((run_observed hs).symm.trans hseen)
  obtain ⟨token, kid', key, p, hsel, hv, hp⟩ := claims_of_step hc
  refine ⟨token, kid', key, p, hsel, hv, hp, ?_⟩
  rintro ⟨rfl, rfl⟩
  obtain ⟨j, document, keys, hlast, hpub, hyoung⟩ := hsel.last_download hempty hs
  have hoffers : (g.worldAt start steps j).keyServer.Offers kid' key :=
    ⟨document, keys, hlast.succeeds.serves, hpub⟩
  have hj : j ≤ i := Nat.lt_succ_iff.mp hlast.before
  -- The download that `old` comes from was offered it, so it is neither this step nor after `t₀`.
  have hearly := fun h => hgone j hj h hoffers
  rcases hyoung with rfl | ⟨_, hlt⟩
  · exact hearly (.inr rfl)
  · have hle := not_lt.mp fun h => hearly (.inl h)
    have hmax := le_max_left (g.lifetime : Rat) 0
    linarith

end Run

namespace Sample

def gate : Gate := ⟨.sample, some (.whole 5), 10⟩

def modulus : Text := Text.ofString
  "122flpMj9WmUDYZZ9tYK825NU0I203Yk-hHUeoNn6PX14Wl943LIB5TG0H_NR3VJUK3M1joa0TMKqR880Pc"

def key : PublishedKey := ⟨some (Text.ofString "k"), .rsa modulus (Text.ofString "Aw")⟩

def keySet : Text :=
  Text.ofString "\x7b\"keys\":[\x7b\"kid\":\"k\",\"kty\":\"RSA\",\"e\":\"Aw\",\"n\":\"" ++
    modulus ++ Text.ofString "\"\x7d]\x7d"

/-- A header that carries a token of the key's owner for the subject `s`. -/
def authorization : Text := Text.ofString ("bearer eyJhbGciOiJSUzI1NiIsImtpZCI6ImsifQ." ++
  "eyJhdWQiOiJhIiwiZXhwIjo5LCJpc3MiOiJodHRwczovL2gvIiwic3ViIjoicyJ9." ++
  "gv6Rv1j8XvFqALVKpeluMwcOYV201j4B5s2gajphyUIU7X5S784QNml8drCCA7S0Fih6EoW4_byBVpcAaWw")

def start : World := ⟨⟨0, 0⟩, .answers 200 (keySet.map fun c => UInt8.ofNat c.val), none⟩

/-- The keys are fetched and withdrawn; the caller comes at half the lifetime and at its end. -/
def steps : List Step :=
  [.fetch false, .keyServer .hangs, .advance 5 5, .authenticate (some authorization),
    .advance 5 5, .authenticate (some authorization)]

theorem asksSomewhere : ∃ target, Target.ofText? gate.issuer.keySetUrl = some target :=
  Option.isSome_iff_exists.mp (by decide +kernel)

theorem selects : ∃ token, gate.Selects (gate.worldAt start steps 3) (some authorization) token
    (Text.ofString "k") key :=
  ⟨authorization.drop 7, ⟨by decide +kernel, ⟨some (Text.ofString "RS256"), Text.ofString "k"⟩,
    by decide +kernel, rfl⟩, by decide +kernel⟩

theorem hangs {l : Nat} (hl : l ≤ 5) (h : 0 < (gate.worldAt start steps l).clock.elapsed ∨ l = 5) :
    (gate.worldAt start steps l).keyServer = .hangs := by
  have hearly : ∀ l ≤ 2, (gate.worldAt start steps l).clock.elapsed = 0 := by
    intro l hl
    match l, hl with
    | 0, _ | 1, _ | 2, _ => rfl
  have hlate : 3 ≤ l := by
    by_contra hlt
    have hzero := hearly l (by omega)
    rcases h with h | h
    · rw [hzero] at h
      exact absurd h (lt_irrefl _)
    · omega
  match l, hlate, hl with
  | 3, _, _ | 4, _, _ | 5, _, _ => rfl

end Sample

/-- The key is used at half the lifetime, and at its end no more. -/
theorem sample_key_expires :
    (∃ j document keys, Sample.gate.LastDownload Sample.start Sample.steps 4 j document keys ∧
      KeySet.Publishes document (Text.ofString "k") Sample.key ∧
      (j = 3 ∨ 0 < Sample.gate.lifetime ∧
        (Sample.gate.worldAt Sample.start Sample.steps 3).clock.elapsed -
          (Sample.gate.worldAt Sample.start Sample.steps j).clock.elapsed <
            (Sample.gate.lifetime : Rat))) ∧
    ∀ seen c, (Sample.gate.run Sample.start Sample.steps).2[5]? = some seen →
      seen.result = .ok (.claims c) →
      ∃ token kid key p,
        Sample.gate.Selects (Sample.gate.worldAt Sample.start Sample.steps 5)
          (some Sample.authorization) token kid key ∧
        Verification.verify token key Sample.gate.issuer
          (Sample.gate.worldAt Sample.start Sample.steps 5).clock.now = .ok p ∧
        Claims.ofPayload p = .ok c ∧ ¬(kid = Text.ofString "k" ∧ key = Sample.key) := by
  obtain ⟨token, hsel⟩ := Sample.selects
  refine ⟨(withdrawn_key_expires rfl rfl).1 token _ _ hsel,
    (withdrawn_key_expires rfl rfl).2 (Text.ofString "k") Sample.key 0 ?_ ?_⟩
  · rintro l hl h ⟨_, _, ⟨_, _, _, hs, _⟩, _⟩
    rw [Sample.hangs hl h] at hs
    cases hs
  · change (0 : Rat) + max ((10 : Int) : Rat) 0 ≤ 0 + 5 + 5
    norm_num

end Gate

end BearerGate
