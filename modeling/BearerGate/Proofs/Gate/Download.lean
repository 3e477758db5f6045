import BearerGate.Gate
import BearerGate.Proofs.Publication

namespace BearerGate

namespace KeyServer

theorem isSuccess_iff {status : Int} : isSuccess status = true ↔ 200 ≤ status ∧ status ≤ 299 := by
  simp [isSuccess]

/-- It answers with success, and the body is the document that these keys are read from. -/
def Serves (server : KeyServer) (document : Json) (keys : KeySet) : Prop :=
  ∃ status body text, server = .answers status body ∧ 200 ≤ status ∧ status ≤ 299 ∧
    Encoding.read? body = some text ∧ Json.read text = .ok document ∧
    KeySet.ofJson document = .ok keys

theorem Serves.unique {server : KeyServer} {document document' : Json} {keys keys' : KeySet}
    (h : server.Serves document keys) (h' : server.Serves document' keys') :
    document = document' ∧ keys = keys' := by
  obtain ⟨_, body, text, rfl, _, _, ht, hd, hk⟩ := h
  obtain ⟨_, _, text', hs, _, _, ht', hd', hk'⟩ := h'
  cases hs
  have htext : text = text' := Option.some.inj (ht.symm.trans ht')
  subst htext
  have hdocument : document = document' := Except.ok.inj (hd.symm.trans hd')
  subst hdocument
  exact ⟨rfl, Except.ok.inj (hk.symm.trans hk')⟩

/-- It answers with success, and the body nests too deep to be read. -/
def ServesTooDeep (server : KeyServer) : Prop :=
  ∃ status body text, server = .answers status body ∧ 200 ≤ status ∧ status ≤ 299 ∧
    Encoding.read? body = some text ∧ Json.read text = .error .tooDeep

end KeyServer

namespace KeySet

theorem ofBody_eq_ok_iff {body : Bytes} {keys : KeySet} :
    ofBody body = .ok keys ↔
      ∃ text document, Encoding.read? body = some text ∧ Json.read text = .ok document ∧
        ofJson document = .ok keys := by
  constructor
  · intro h
    unfold ofBody at h
    split at h
    next => simp at h
    next text ht =>
      split at h
      next => simp at h
      next => simp at h
      next document hd =>
        split at h
        next => simp at h
        next keys' hk =>
          cases h
          exact ⟨text, document, ht, hd, hk⟩
  · rintro ⟨text, document, ht, hd, hk⟩
    simp only [ofBody, ht, hd, hk]

theorem ofBody_eq_tooDeep_iff {body : Bytes} :
    ofBody body = .error .tooDeep ↔
      ∃ text, Encoding.read? body = some text ∧ Json.read text = .error .tooDeep := by
  constructor
  · intro h
    unfold ofBody at h
    split at h
    next => simp at h
    next text ht =>
      split at h
      next => simp at h
      next hd => exact ⟨text, ht, hd⟩
      next => split at h <;> simp at h
  · rintro ⟨text, ht, hd⟩
    simp only [ofBody, ht, hd]

end KeySet

namespace KeyServer

theorem exists_serves_iff {server : KeyServer} {keys : KeySet} :
    (∃ document, server.Serves document keys) ↔
      ∃ status body, server = .answers status body ∧ 200 ≤ status ∧ status ≤ 299 ∧
        KeySet.ofBody body = .ok keys := by
  constructor
  · rintro ⟨document, status, body, text, hs, hl, hu, ht, hd, hk⟩
    exact ⟨status, body, hs, hl, hu, KeySet.ofBody_eq_ok_iff.mpr ⟨text, document, ht, hd, hk⟩⟩
  · rintro ⟨status, body, hs, hl, hu, hbody⟩
    obtain ⟨text, document, ht, hd, hk⟩ := KeySet.ofBody_eq_ok_iff.mp hbody
    exact ⟨document, status, body, text, hs, hl, hu, ht, hd, hk⟩

inductive Fails : KeyServer → Prop
  | hangs : Fails .hangs
  | breaks (cause : DownloadFailure) : Fails (.fails cause)
  | refuses {status : Int} {body : Bytes} (h : status < 200 ∨ 299 < status) :
    Fails (.answers status body)
  | misleads {status : Int} {body : Bytes} {e : BodyError} (h : KeySet.ofBody body = .error e) :
    Fails (.answers status body)

theorem fails_iff {server : KeyServer} :
    server.Fails ↔ ∀ document keys, ¬server.Serves document keys := by
  constructor
  · intro h document keys hserves
    obtain ⟨status, body, rfl, hl, hu, hbody⟩ := exists_serves_iff.mp ⟨document, hserves⟩
    cases h with
    | refuses hstatus => omega
    | misleads herror => simp [hbody] at herror
  · intro h
    cases server with
    | hangs => exact .hangs
    | fails cause => exact .breaks cause
    | answers status body =>
      by_cases hstatus : 200 ≤ status ∧ status ≤ 299
      · cases hbody : KeySet.ofBody body with
        | error e => exact .misleads hbody
        | ok keys =>
          obtain ⟨document, hserves⟩ :=
            exists_serves_iff.mpr ⟨status, body, rfl, hstatus.1, hstatus.2, hbody⟩
          exact absurd hserves (h document keys)
      · exact .refuses (by omega)

end KeyServer

namespace Gate

variable {g : Gate} {clock : Clock} {server : KeyServer} {cache : Cache}

theorem ending_eq_keys_iff {target : Target} {keys : KeySet} :
    g.ending target server = .keys keys ↔
      target.hasHost = true ∧ ∃ document, server.Serves document keys := by
  constructor
  · intro h
    unfold ending at h
    split at h
    next => split at h <;> simp at h
    next => simp at h
    next => simp at h
    next => simp at h
    next => simp at h
    next status body =>
      split at h
      next => simp at h
      next hhost =>
        split at h
        next => simp at h
        next hs =>
          obtain ⟨hl, hu⟩ := KeyServer.isSuccess_iff.mp (by simpa using hs)
          split at h
          next keys' hk =>
            cases h
            exact ⟨by simpa using hhost,
              KeyServer.exists_serves_iff.mpr ⟨status, body, rfl, hl, hu, hk⟩⟩
          next => simp at h
          next => simp at h
  · rintro ⟨hhost, hserves⟩
    obtain ⟨status, body, rfl, hl, hu, hk⟩ := KeyServer.exists_serves_iff.mp hserves
    simp only [ending, hhost, KeyServer.isSuccess_iff.mpr ⟨hl, hu⟩, hk, Bool.not_true,
      Bool.false_eq_true, if_false]

theorem ending_eq_faulted_iff {target : Target} {f : Fault} :
    g.ending target server = .faulted f ↔
      (f = .unanswered ∧ g.timeout = none ∧ server = .hangs) ∨
      (∃ kind, f = .unforeseen kind ∧ server = .fails (.unforeseen kind)) ∨
      (f = .tooDeep ∧ target.hasHost = true ∧ server.ServesTooDeep) := by
  constructor
  · intro h
    unfold ending at h
    split at h
    next =>
      split at h
      next => simp at h
      next hn => exact .inl ⟨(Ending.faulted.inj h).symm, by simpa using hn, rfl⟩
    next => simp at h
    next => simp at h
    next => simp at h
    next kind => exact .inr (.inl ⟨kind, (Ending.faulted.inj h).symm, rfl⟩)
    next status body =>
      split at h
      next => simp at h
      next hhost =>
        split at h
        next => simp at h
        next hs =>
          obtain ⟨hl, hu⟩ := KeyServer.isSuccess_iff.mp (by simpa using hs)
          split at h
          next => simp at h
          next => simp at h
          next hk =>
            obtain ⟨text, ht, hd⟩ := KeySet.ofBody_eq_tooDeep_iff.mp hk
            exact .inr (.inr ⟨(Ending.faulted.inj h).symm, by simpa using hhost, status, body,
              text, rfl, hl, hu, ht, hd⟩)
  · rintro (⟨rfl, hn, rfl⟩ | ⟨kind, rfl, rfl⟩ |
      ⟨rfl, hhost, status, body, text, rfl, hl, hu, ht, hd⟩)
    · simp [ending, hn]
    · simp [ending]
    · simp only [ending, hhost, KeyServer.isSuccess_iff.mpr ⟨hl, hu⟩,
        KeySet.ofBody_eq_tooDeep_iff.mpr ⟨text, ht, hd⟩, Bool.not_true, Bool.false_eq_true,
        if_false]

def asks? (g : Gate) : Option Target :=
  if g.mayStart then Target.ofText? g.issuer.keySetUrl else none

theorem asks?_eq_some_iff {target : Target} :
    g.asks? = some target ↔
      g.mayStart = true ∧ Target.ofText? g.issuer.keySetUrl = some target := by
  unfold asks?
  split <;> simp [*]

def Receives (g : Gate) (server : KeyServer) (document : Json) (keys : KeySet) : Prop :=
  server.Serves document keys ∧ ∃ target, g.asks? = some target ∧ target.hasHost = true

theorem download_requests :
    (g.download clock server cache).requests = (g.asks?.map (·.text)).toList := by
  unfold download asks?
  cases g.mayStart with
  | false => rfl
  | true =>
    simp only [Bool.not_true, Bool.false_eq_true, if_false, if_true]
    cases Target.ofText? g.issuer.keySetUrl <;> rfl

theorem download_result_of_asks {target : Target} (h : g.asks? = some target) :
    (g.download clock server cache).result = (g.settle (g.ending target server)).1 := by
  obtain ⟨hm, ht⟩ := asks?_eq_some_iff.mp h
  simp only [download, hm, ht, Bool.not_true, Bool.false_eq_true, if_false]

theorem settle_fst_eq_ok_iff {e : Ending} {keys : KeySet} :
    (g.settle e).1 = .ok keys ↔ e = .keys keys := by
  cases e <;> simp [settle]

theorem settle_fst_eq_faulted_iff {e : Ending} {f : Fault} :
    (g.settle e).1 = .error (.faulted f) ↔ e = .faulted f := by
  cases e <;> simp [settle]

theorem download_result_eq_ok_iff {keys : KeySet} :
    (g.download clock server cache).result = .ok keys ↔
      ∃ document, g.Receives server document keys := by
  cases hasks : g.asks? with
  | some target =>
    rw [download_result_of_asks hasks, settle_fst_eq_ok_iff, ending_eq_keys_iff]
    constructor
    · rintro ⟨hhost, document, hs⟩
      exact ⟨document, hs, target, hasks, hhost⟩
    · rintro ⟨document, hs, target', ht, hhost⟩
      cases Option.some.inj (hasks.symm.trans ht)
      exact ⟨hhost, document, hs⟩
  | none =>
    have herr : ∀ keys, (g.download clock server cache).result ≠ .ok keys := by
      intro keys
      unfold asks? at hasks
      unfold download
      split
      next => simp
      next hm => simp_all
    refine ⟨fun h => absurd h (herr keys), ?_⟩
    rintro ⟨_, _, _, ht, _⟩
    simp [hasks] at ht

theorem download_result_eq_faulted_iff {f : Fault} :
    (g.download clock server cache).result = .error (.faulted f) ↔
      (f = .invalidUrl ∧ g.mayStart = true ∧ Target.ofText? g.issuer.keySetUrl = none) ∨
        ∃ target, g.asks? = some target ∧ g.ending target server = .faulted f := by
  cases hasks : g.asks? with
  | some target =>
    obtain ⟨_, ht⟩ := asks?_eq_some_iff.mp hasks
    rw [download_result_of_asks hasks, settle_fst_eq_faulted_iff]
    simp [ht]
  | none =>
    unfold asks? at hasks
    unfold download
    split at hasks
    next hm => simp [hm, hasks, eq_comm]
    next hm => simp [hm]

theorem download_cache_of_ok {keys : KeySet}
    (h : (g.download clock server cache).result = .ok keys) :
    (g.download clock server cache).cache = g.keep clock keys cache := by
  unfold download at h ⊢
  split at h
  next => simp at h
  next hm =>
    split at h
    next => simp at h
    next target ht =>
      change (g.settle (g.ending target server)).1 = _ at h
      rw [if_neg hm]
      simp only [h]

theorem download_cache_of_error {e : Failure}
    (h : (g.download clock server cache).result = .error e) :
    (g.download clock server cache).cache = cache := by
  unfold download at h ⊢
  split at h
  next hm => rw [if_pos hm]
  next hm =>
    rw [if_neg hm]
    split at h
    next => rfl
    next target ht =>
      change (g.settle (g.ending target server)).1 = _ at h
      simp only [h]

end Gate

end BearerGate
