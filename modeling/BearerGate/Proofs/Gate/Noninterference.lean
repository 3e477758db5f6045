import BearerGate.Proofs.Gate.Accounting

namespace BearerGate

namespace Gate

variable {g : Gate} {clock : Clock} {server : KeyServer} {cache : Cache} {w : World}
  {authorization authorization' : Option Text} {token token' kid : Text}

def closingNotes {α : Type} : Except Failure α → Journal
  | .error (.rejected r) => [failedAuthenticationNote r]
  | _ => []

theorem closingNotes_map {α β : Type} {f : α → β} {result : Except Failure α} :
    closingNotes (result.map f) = closingNotes result := by
  match result with
  | .ok _ | .error (.rejected _) | .error (.faulted _) => rfl

theorem closingNotes_eq_nil {α : Type} {result : Except Failure α}
    (h : ∀ r, result ≠ .error (.rejected r)) : closingNotes result = [] := by
  match result with
  | .ok _ | .error (.faulted _) => rfl
  | .error (.rejected r) => exact absurd rfl (h r)

theorem authenticate_journal :
    (g.authenticate clock server authorization cache).journal =
      (g.verifiedPayload clock server authorization cache).journal ++
        closingNotes (g.authenticate clock server authorization cache).result := by
  unfold authenticate
  dsimp only
  split
  next payload _ => cases Claims.ofPayload payload <;> exact (List.append_nil _).symm
  next => rfl
  next => simp [closingNotes]

/-- What is added to resolving the key is the record of how the request ends. -/
theorem step_of_presents (h : Presents authorization token kid) :
    let seen := g.step w (.authenticate authorization)
    let found := g.resolveKey w.clock w.keyServer kid w.cache
    seen.1 = { w with cache := found.cache } ∧ seen.2.requests = found.requests ∧
      seen.2.journal = found.journal ++ closingNotes seen.2.result := by
  intro seen found
  have hverified : g.verifiedPayload w.clock w.keyServer authorization w.cache =
      { found with
        result := found.result.bind fun key =>
          Verification.verify token key g.issuer w.clock.now } := verifiedPayload_of_presents h
  refine ⟨?_, ?_, ?_⟩
  · change { w with cache := (g.authenticate w.clock w.keyServer authorization w.cache).cache } = _
    rw [authenticate_cache, hverified]
  · change (g.authenticate w.clock w.keyServer authorization w.cache).requests = _
    rw [authenticate_requests, hverified]
  · have hfound : (g.verifiedPayload w.clock w.keyServer authorization w.cache).journal =
        found.journal := by rw [hverified]
    change (g.authenticate w.clock w.keyServer authorization w.cache).journal = _ ++
      closingNotes ((g.authenticate w.clock w.keyServer authorization w.cache).result.map _)
    rw [authenticate_journal, closingNotes_map, hfound]

theorem failedAuthenticationNote_not_mem_resolveKey {r : Rejection} :
    failedAuthenticationNote r ∉ (g.resolveKey clock server kid cache).journal := by
  intro h
  rcases (mem_resolveKey_journal_iff.mp h).2 with ⟨hrefreshing, _⟩ | hdownload
  · cases congrArg Entry.level hrefreshing
  · cases component_of_mem_download hdownload

theorem rejected_iff_of_presents {r : Rejection} (h : Presents authorization token kid) :
    (g.step w (.authenticate authorization)).2.result = .error (.rejected r) ↔
      ((g.resolveKey w.clock w.keyServer kid w.cache).result.bind fun key =>
        Verification.verify token key g.issuer w.clock.now) = .error (.rejected r) := by
  rw [step_result_eq_rejected_iff, authenticate_result_eq_rejected_iff,
    verifiedPayload_of_presents h]

/-- Tokens that name the same key are rejected for the same reason, if both are. -/
theorem rejection_unique {r r' : Rejection} (h : Presents authorization token kid)
    (h' : Presents authorization' token' kid)
    (hr : (g.step w (.authenticate authorization)).2.result = .error (.rejected r))
    (hr' : (g.step w (.authenticate authorization')).2.result = .error (.rejected r')) :
    r = r' := by
  rw [rejected_iff_of_presents h] at hr
  rw [rejected_iff_of_presents h'] at hr'
  cases hfound : (g.resolveKey w.clock w.keyServer kid w.cache).result with
  | error e =>
    simp only [hfound, Except.bind] at hr hr'
    cases hr.symm.trans hr'
    rfl
  | ok key =>
    simp only [hfound, Except.bind] at hr hr'
    exact Verification.rejection_unique hr hr'

/-- Requests whose tokens name the same key differ for others only in whether they are rejected. -/
theorem token_leaves_no_trace (h : Presents authorization token kid)
    (h' : Presents authorization' token' kid) :
    let seen := g.step w (.authenticate authorization)
    let seen' := g.step w (.authenticate authorization')
    seen.1 = seen'.1 ∧ seen.2.requests = seen'.2.requests ∧
    (∃ common, (∀ r, failedAuthenticationNote r ∉ common) ∧
      seen.2.journal = common ++ closingNotes seen.2.result ∧
      seen'.2.journal = common ++ closingNotes seen'.2.result) ∧
    (∀ r r', seen.2.result = .error (.rejected r) → seen'.2.result = .error (.rejected r') →
      r = r') ∧
    (((∃ r, seen.2.result = .error (.rejected r)) ↔ ∃ r, seen'.2.result = .error (.rejected r)) →
      seen.2.journal = seen'.2.journal) := by
  intro seen seen'
  obtain ⟨hworld, hrequests, hjournal⟩ := step_of_presents (g := g) (w := w) h
  obtain ⟨hworld', hrequests', hjournal'⟩ := step_of_presents (g := g) (w := w) h'
  refine ⟨hworld.trans hworld'.symm, hrequests.trans hrequests'.symm,
    ⟨_, fun r => failedAuthenticationNote_not_mem_resolveKey, hjournal, hjournal'⟩,
    fun r r' => rejection_unique h h', ?_⟩
  intro hsame
  refine hjournal.trans (.trans ?_ hjournal'.symm)
  congr 1
  by_cases hr : ∃ r, seen.2.result = .error (.rejected r)
  · obtain ⟨r', hr'⟩ := hsame.mp hr
    obtain ⟨r, hr⟩ := hr
    obtain rfl := rejection_unique h h' hr hr'
    exact congrArg closingNotes (hr.trans hr'.symm)
  · have hnone' : ¬∃ r, seen'.2.result = .error (.rejected r) := mt hsame.mpr hr
    exact (closingNotes_eq_nil (not_exists.mp hr)).trans
      (closingNotes_eq_nil (not_exists.mp hnone')).symm

/-- Steps that differ at most in the token of a request, and not in the key that it names. -/
inductive AlikeSteps : Step → Step → Prop where
  | same (s : Step) : AlikeSteps s s
  | named {authorization authorization' : Option Text} {token token' kid : Text}
    (h : Presents authorization token kid) (h' : Presents authorization' token' kid) :
    AlikeSteps (.authenticate authorization) (.authenticate authorization')

/-- What others than the caller see, without the warnings of the gate, which only tell of
rejections. -/
def shown (seen : Observation) : List Text × Journal :=
  (seen.requests, seen.journal.filter fun e => e.component ≠ .gate ∨ e.level ≠ .warning)

theorem shown_step_of_presents (h : Presents authorization token kid) :
    shown (g.step w (.authenticate authorization)).2 =
      shown ⟨.ok .done, (g.resolveKey w.clock w.keyServer kid w.cache).requests,
        (g.resolveKey w.clock w.keyServer kid w.cache).journal⟩ := by
  obtain ⟨_, hrequests, hjournal⟩ := step_of_presents (g := g) (w := w) h
  have hclosing (result : Except Failure Answer) :
      (closingNotes result).filter (fun e => e.component ≠ .gate ∨ e.level ≠ .warning) = [] := by
    match result with
    | .ok _ | .error (.faulted _) => rfl
    | .error (.rejected _) => simp [closingNotes, failedAuthenticationNote]
  simp only [shown, hrequests, hjournal, List.filter_append, hclosing, List.append_nil]

theorem step_alike {s s' : Step} (h : AlikeSteps s s') :
    (g.step w s).1 = (g.step w s').1 ∧ shown (g.step w s).2 = shown (g.step w s').2 := by
  cases h with
  | same => exact ⟨rfl, rfl⟩
  | named h h' =>
    refine ⟨(step_of_presents h).1.trans (step_of_presents h').1.symm, ?_⟩
    rw [shown_step_of_presents h, shown_step_of_presents h']

/-- Of runs whose requests name the same keys nobody but the callers sees more than who was
rejected. -/
theorem run_alike {steps steps' : List Step} (h : List.Forall₂ AlikeSteps steps steps') :
    (g.run w steps).1 = (g.run w steps').1 ∧
      (g.run w steps).2.map shown = (g.run w steps').2.map shown := by
  induction h generalizing w with
  | nil => exact ⟨rfl, rfl⟩
  | @cons s s' rest rest' hs _ ih =>
    obtain ⟨hworld, hshown⟩ := step_alike (g := g) (w := w) hs
    -- The first steps lead to one world, so the rest of both runs starts in it.
    obtain ⟨hlast, hrest⟩ := @ih (g.step w s).1
    rw [hworld] at hlast hrest
    constructor
    · change (g.run (g.step w s).1 rest).1 = (g.run (g.step w s').1 rest').1
      rw [hworld, hlast]
    · change shown (g.step w s).2 :: (g.run (g.step w s).1 rest).2.map shown =
        shown (g.step w s').2 :: (g.run (g.step w s').1 rest').2.map shown
      rw [hworld, hshown, hrest]

namespace Sample

/-- A header whose token names the owner's key but is signed by nobody. -/
def forgedAuthorization : Text :=
  Text.ofString "Bearer eyJhbGciOiJSUzI1NiIsImtpZCI6ImsifQ.e30.AA"

theorem forged_presents : ∃ token, Presents (some forgedAuthorization) token
    (Text.ofString "k") :=
  ⟨forgedAuthorization.drop 7, by decide +kernel,
    ⟨some (Text.ofString "RS256"), Text.ofString "k"⟩, by decide +kernel, rfl⟩

end Sample

/-- The owner's token and the forged one ask for the same and leave the same world. -/
theorem sample_token_leaves_no_trace :
    let seen := Sample.gate.step Sample.start (.authenticate (some Sample.authorization))
    let seen' := Sample.gate.step Sample.start (.authenticate (some Sample.forgedAuthorization))
    seen.1 = seen'.1 ∧ seen.2.requests = seen'.2.requests := by
  obtain ⟨_, howner⟩ := Sample.selects
  obtain ⟨_, hforged⟩ := Sample.forged_presents
  obtain ⟨hworld, hrequests, _⟩ :=
    @token_leaves_no_trace Sample.gate Sample.start _ _ _ _ _ howner.toPresents hforged
  exact ⟨hworld, hrequests⟩

end Gate

end BearerGate
