import BearerGate.Proofs.Http.Rendering
import BearerGate.Proofs.Settings.Loading
import BearerGate.Proofs.Text.Case

namespace BearerGate

namespace Response

/-- The values of all headers of this name, which is given in small letters. -/
def valuesOf (name : String) (headers : List (Text × Text)) : List Text :=
  (headers.filter fun (k, _) => Text.lower k = Text.ofString name).map (·.2)

variable {name : String} {headers headers' : List (Text × Text)}

theorem valuesOf_append :
    valuesOf name (headers ++ headers') = valuesOf name headers ++ valuesOf name headers' := by
  simp [valuesOf]

structure Unshared (response : Response) : Prop where
  status : response.status ≠ 500
  silent : valuesOf "access-control-allow-origin" response.headers = []

theorem unshared_of_json? {status : Int} {body : Json} {response : Response}
    (h : json? status body headers = some response) (hstatus : status ≠ 500)
    (hgiven : valuesOf "access-control-allow-origin"
      (headers.map fun (k, v) => (Text.lower k, v)) = []) : response.Unshared := by
  obtain ⟨rfl, -, typed, htyped, hheaders⟩ := of_json? h
  refine ⟨hstatus, ?_⟩
  rw [hheaders, valuesOf_append, hgiven]
  rcases htyped with rfl | rfl
  · rfl
  · decide

end Response

namespace Service

variable {s : Service} {w : World} {r : Request} {response : Response}

theorem unshared_of_written {status : Int} {body : Json} {headers : List (Text × Text)}
    (h : written status body headers = .ok response) (hstatus : status ≠ 500)
    (hgiven : Response.valuesOf "access-control-allow-origin"
      (headers.map fun (k, v) => (Text.lower k, v)) = []) : response.Unshared := by
  unfold written at h
  split at h
  next hjson =>
    cases h
    exact Response.unshared_of_json? hjson hstatus hgiven
  next => cases h

theorem unshared_of_unguarded (h : s.unguarded r = .ok response) : response.Unshared := by
  have hplain {status : Int} {body : Json} (hwritten : written status body [] = .ok response)
      (hstatus : status ≠ 500) : response.Unshared :=
    unshared_of_written hwritten hstatus rfl
  have hmethod (hwritten : methodNotAllowed = .ok response) : response.Unshared :=
    unshared_of_written hwritten (by decide) (by decide)
  unfold unguarded at h
  split at h
  next =>
    split at h
    next =>
      cases h
      have hstatus : (307 : Int) ≠ 500 := by decide
      exact ⟨hstatus, rfl⟩
    next => exact hplain h (by decide)
  next route _ =>
    split at h
    next => exact hmethod h
    next =>
      cases route with
      | root => exact hplain h (by decide)
      | health => exact hplain h (by decide)
      | documentation =>
        cases h
        exact ⟨by decide, rfl⟩
      | me => exact hmethod h

theorem unshared_of_ofGate {found : Except Failure Claims} (h : ofGate found = .ok response) :
    response.Unshared := by
  unfold ofGate at h
  split at h
  next c =>
    unfold identity at h
    split at h
    next hjson =>
      cases h
      exact Response.unshared_of_json? hjson (by decide) rfl
    next => cases h
  next e =>
    split at h
    next hproblem =>
      cases h
      rw [Response.ofProblem?_problem] at hproblem
      split at hproblem
      next => cases hproblem
      next =>
        cases hproblem
        have hstatus : (401 : Int) ≠ 500 := by decide
        exact ⟨hstatus, rfl⟩
    next => cases h
  next => cases h

end Service

namespace Cors

variable {allowed : List Text} {r : Request}

/-- The origins that an answer may name. -/
structure NamesOrigin (allowed : List Text) (r : Request) (values : List Text) : Prop where
  any : ∀ origin, r.header? "origin" = some origin → anyOrigin ∈ allowed → values = [anyOrigin]
  own : ∀ origin, r.header? "origin" = some origin → anyOrigin ∉ allowed → origin ∈ allowed →
    values = [origin]
  none : (∀ origin, r.header? "origin" = some origin → anyOrigin ∉ allowed ∧ origin ∉ allowed) →
    values = []

theorem allows_iff {origin : Text} :
    allows allowed origin = true ↔ anyOrigin ∈ allowed ∨ origin ∈ allowed := by
  simp [allows, allowsAll]

theorem namesOrigin_allowOrigin :
    NamesOrigin allowed r
      (Response.valuesOf "access-control-allow-origin" (allowOrigin allowed r)) := by
  have hname : Text.lower (Text.ofString "access-control-allow-origin") =
      Text.ofString "access-control-allow-origin" := by decide
  unfold allowOrigin
  split
  next hnone =>
    refine ⟨?_, ?_, fun _ => rfl⟩
    · intro origin horigin
      cases hnone.symm.trans horigin
    · intro origin horigin
      cases hnone.symm.trans horigin
  next origin hsome =>
    refine ⟨?_, ?_, ?_⟩
    · intro origin' _ hany
      simp [allows, allowsAll, named, hany, Response.valuesOf, hname]
    · intro origin' horigin hnot hown
      cases Option.some.inj (hsome.symm.trans horigin)
      simp [allows, allowsAll, named, hnot, hown, Response.valuesOf, hname]
    · intro hnone
      obtain ⟨hnot, hown⟩ := hnone origin hsome
      simp [allows, allowsAll, hnot, hown, Response.valuesOf]

theorem namesOrigin_decorate {response : Response} (h : response.Unshared) :
    NamesOrigin allowed r (Response.valuesOf "access-control-allow-origin"
      (decorate allowed r response).headers) := by
  have hvary : Response.valuesOf "access-control-allow-origin"
      [Response.header "vary" "Origin"] = [] := by decide
  change NamesOrigin allowed r (Response.valuesOf _
    (response.headers ++ ([Response.header "vary" "Origin"] ++ allowOrigin allowed r)))
  rw [Response.valuesOf_append, Response.valuesOf_append, h.silent, hvary]
  exact namesOrigin_allowOrigin

theorem headers_preflight :
    (preflight allowed r).headers = preflightHeaders ++ allowOrigin allowed r := by
  unfold preflight
  dsimp only
  split <;> rfl

theorem namesOrigin_preflight :
    NamesOrigin allowed r (Response.valuesOf "access-control-allow-origin"
      (preflight allowed r).headers) := by
  have hown : Response.valuesOf "access-control-allow-origin" preflightHeaders = [] := by decide
  rw [headers_preflight, Response.valuesOf_append, hown]
  exact namesOrigin_allowOrigin

def AsksInAdvance (r : Request) : Prop :=
  r.method = Text.ofString "OPTIONS" ∧ (∃ origin, r.header? "origin" = some origin) ∧
    ∃ method, r.header? "access-control-request-method" = some method

theorem isPreflight_iff : isPreflight r = true ↔ AsksInAdvance r := by
  simp [isPreflight, AsksInAdvance, Option.isSome_iff_exists, and_assoc]

def headerNames : List String :=
  ["Authorization", "Accept", "Content-Type", "Accept-Language", "Content-Language"]

/-- The requests that may be sent after asking in advance. -/
structure Admits (allowed : List Text) (r : Request) : Prop where
  origin : ∃ origin, r.header? "origin" = some origin ∧ (anyOrigin ∈ allowed ∨ origin ∈ allowed)
  method : r.header? "access-control-request-method" = some (Text.ofString "GET") ∨
    r.header? "access-control-request-method" = some (Text.ofString "POST")
  headers : ∀ list, r.header? "access-control-request-headers" = some list →
    ∀ item ∈ list.splitOn (',' : CodePoint), ∃ name ∈ headerNames,
      Text.equalsIgnoringAsciiCase (Text.strip item) (Text.ofString name) = true

theorem mem_requestHeaders_iff {t : Text} :
    Text.lower t ∈ requestHeaders ↔
      ∃ name ∈ headerNames, Text.equalsIgnoringAsciiCase t (Text.ofString name) = true := by
  have hperm : requestHeaders.Perm
      (headerNames.map fun name => (Text.ofString name).map CodePoint.asciiLower) := by decide
  have hsmall : (headerNames.all fun name => ((Text.ofString name).map CodePoint.asciiLower).all
      fun l => decide (l.val < 0x80 ∧ l.val ≠ 0x6B)) = true := by decide
  -- None of the names has the letter k, which the sign of kelvin would match too.
  rw [hperm.mem_iff, List.mem_map]
  refine exists_congr fun name => and_congr_right fun hname => ?_
  rw [eq_comm]
  exact Text.lower_eq_iff rfl (List.all_eq_true.mp hsmall name hname)

theorem allowsHeaders_iff {list : Text} :
    allowsHeaders list = true ↔ ∀ item ∈ list.splitOn (',' : CodePoint),
      ∃ name ∈ headerNames,
        Text.equalsIgnoringAsciiCase (Text.strip item) (Text.ofString name) = true := by
  unfold allowsHeaders
  rw [Text.splitOn_comma_lower, List.all_map, List.all_eq_true]
  refine forall₂_congr fun item _ => ?_
  rw [Function.comp_apply, Text.strip_lower, List.contains_iff_mem, mem_requestHeaders_iff]

theorem failures_eq_nil_iff : failures allowed r = [] ↔
    (∀ origin, r.header? "origin" = some origin → allows allowed origin = true) ∧
    (∀ method, r.header? "access-control-request-method" = some method → method ∈ methods) ∧
    (∀ list, r.header? "access-control-request-headers" = some list →
      allowsHeaders list = true) ∧
    r.header? "access-control-request-private-network" = none := by
  have hhas {header : Option Text} {ok : Text → Bool} {found : String} :
      (if (header.map ok).getD true = true then [] else [found]) = [] ↔
        ∀ v, header = some v → ok v = true := by
    cases header <;> simp
  have hnone {header : Option Text} : (∀ v : Text, header = some v → false = true) ↔
      header = none := by
    cases header <;> simp
  simp only [failures, List.append_eq_nil_iff, hhas, hnone, List.contains_iff_mem, and_assoc]

theorem failures_eq_nil_iff_admits (h : AsksInAdvance r)
    (hprivate : r.header? "access-control-request-private-network" = none) :
    failures allowed r = [] ↔ Admits allowed r := by
  obtain ⟨_, ⟨origin, horigin⟩, method, hmethod⟩ := h
  have hmethods : method ∈ methods ↔
      method = Text.ofString "GET" ∨ method = Text.ofString "POST" := by simp [methods]
  rw [failures_eq_nil_iff]
  constructor
  · rintro ⟨hallows, hlisted, hheaders, _⟩
    refine ⟨⟨origin, horigin, allows_iff.mp (hallows origin horigin)⟩, ?_,
      fun list hlist => allowsHeaders_iff.mp (hheaders list hlist)⟩
    rw [hmethod, Option.some.injEq, Option.some.injEq]
    exact hmethods.mp (hlisted method hmethod)
  · rintro ⟨⟨origin', horigin', hallows⟩, hlisted, hheaders⟩
    refine ⟨?_, ?_, fun list hlist => allowsHeaders_iff.mpr (hheaders list hlist), hprivate⟩
    · intro origin'' horigin''
      cases horigin'.symm.trans horigin''
      exact allows_iff.mpr hallows
    · intro method' hmethod'
      cases hmethod.symm.trans hmethod'
      rw [hmethod, Option.some.injEq, Option.some.injEq] at hlisted
      exact hmethods.mpr hlisted

theorem status_preflight :
    (failures allowed r = [] → (preflight allowed r).status = 200) ∧
      (failures allowed r ≠ [] → (preflight allowed r).status = 400) := by
  unfold preflight
  dsimp only
  split
  next hnone => exact ⟨fun _ => rfl, fun h => absurd hnone h⟩
  next hsome => exact ⟨fun h => absurd h hsome, fun _ => rfl⟩

theorem status_preflight_ne : (preflight allowed r).status ≠ 500 := by
  by_cases h : failures allowed r = []
  · rw [status_preflight.1 h]
    decide
  · rw [status_preflight.2 h]
    decide

end Cors

namespace Service

variable {s : Service} {w : World} {r : Request}

theorem respond_of_asksInAdvance (h : Cors.AsksInAdvance r) :
    s.respond w r = (w, ⟨Cors.preflight s.settings.allowedOrigins r, none, none, [], []⟩) := by
  simp only [respond, Cors.isPreflight_iff.mpr h, if_true]

/-- An answer names the origin that may read it, unless the service fails. -/
def NamesReader (s : Service) (r : Request) (response : Response) : Prop :=
  (response.status ≠ 500 → Cors.NamesOrigin s.settings.allowedOrigins r
    (Response.valuesOf "access-control-allow-origin" response.headers)) ∧
  (response.status = 500 → Response.valuesOf "access-control-allow-origin" response.headers = [])

theorem namesReader_reply {routed : Routed} {claims : Option Claims} {requests : List Text}
    {journal : Journal} (h : ∀ response, routed = .ok response → response.Unshared) :
    s.NamesReader r (s.reply r routed claims requests journal).response := by
  cases routed with
  | ok response =>
    have hunshared := h response rfl
    exact ⟨fun _ => Cors.namesOrigin_decorate hunshared,
      fun hstatus => absurd hstatus hunshared.status⟩
  | error f =>
    have hsilent : Response.valuesOf "access-control-allow-origin" internalError.headers = [] := by
      decide
    exact ⟨fun hstatus => absurd internalError_status hstatus, fun _ => hsilent⟩

theorem namesReader_respond : s.NamesReader r (s.respond w r).2.response := by
  unfold respond
  split
  next => exact ⟨fun _ => Cors.namesOrigin_preflight, fun h => absurd h Cors.status_preflight_ne⟩
  next =>
    split
    next => exact namesReader_reply fun _ => unshared_of_ofGate
    next => exact namesReader_reply fun _ => unshared_of_unguarded

/-- Answers are shared with the configured origins and no others, on every route and whatever the
outcome. -/
theorem origins_restricted {settings : Settings} (hs : Service.start? settings = some s)
    (start : World) (events : List Event) {i : Nat} {reply : Reply}
    (hr : events[i]? = some (.request r))
    (hreply : (s.run start events).2[i]? = some (some reply)) :
    (∀ sources, Settings.load sources = .ok settings →
      Settings.ReadsOrigins sources settings.allowedOrigins) ∧
    (reply.response.status ≠ 500 → Cors.NamesOrigin settings.allowedOrigins r
      (Response.valuesOf "access-control-allow-origin" reply.response.headers)) ∧
    (reply.response.status = 500 →
      Response.valuesOf "access-control-allow-origin" reply.response.headers = []) ∧
    (Cors.AsksInAdvance r →
      (r.header? "access-control-request-private-network" = none →
        (Cors.Admits settings.allowedOrigins r → reply.response.status = 200) ∧
        (¬Cors.Admits settings.allowedOrigins r → reply.response.status = 400)) ∧
      (reply.claims = none ∧ reply.requests = [] ∧ reply.journal = []) ∧
      ∀ (s' : Service) (w' : World), s'.settings.allowedOrigins = settings.allowedOrigins →
        s'.respond w' r = (w', reply)) := by
  obtain rfl := settings_of_start? hs
  cases Option.some.inj (Option.some.inj ((run_replied hr).symm.trans hreply))
  obtain ⟨hnames, hsilent⟩ := namesReader_respond (s := s) (w := s.worldAt start events i) (r := r)
  refine ⟨fun _ h => (Settings.load_eq_ok_iff.mp h).allowedOrigins, hnames, hsilent, ?_⟩
  intro hasks
  rw [respond_of_asksInAdvance hasks]
  refine ⟨?_, ⟨rfl, rfl, rfl⟩, ?_⟩
  · intro hprivate
    rw [← Cors.failures_eq_nil_iff_admits hasks hprivate]
    exact Cors.status_preflight
  · intro s' w' hsame
    rw [respond_of_asksInAdvance hasks, hsame]

namespace Sample

def sources : Settings.Sources where
  given := [("AUTH0_AUDIENCE", "a"), ("AUTH0_DOMAIN", "h"),
    ("ALLOWED_ORIGINS", "http://a, http://b")].map fun (k, v) =>
      (Text.ofString k, .str (Text.ofString v))
  environment := []
  file := none

def sharing : Settings :=
  ⟨Text.ofString "Bookshelf API", false, Text.ofString "a", Text.ofString "h", Binary64.ofInt 5, 0,
    [Text.ofString "http://a", Text.ofString "http://b"], Text.ofString "INFO"⟩

theorem sharing_loads : Settings.load sources = .ok sharing := by decide +kernel

/-- A page at the second origin asks whether it may send its token. -/
def inAdvance : Request where
  method := Text.ofString "OPTIONS"
  path := Text.ofString "/me"
  query := []
  headers := [("origin", "http://b"), ("access-control-request-method", "GET"),
    ("access-control-request-headers", "accept, AUTHORIZATION ")].map fun (k, v) =>
      Response.header k v

theorem inAdvance_asks : Cors.AsksInAdvance inAdvance :=
  Cors.isPreflight_iff.mp (by decide)

theorem inAdvance_admitted : Cors.Admits sharing.allowedOrigins inAdvance :=
  (Cors.failures_eq_nil_iff_admits inAdvance_asks (by decide)).mp (by decide)

end Sample

/-- The page may: the settings are loaded from a text with commas. -/
theorem sample_origins_restricted :
    Settings.ReadsOrigins Sample.sources Sample.sharing.allowedOrigins ∧
    ((⟨Sample.sharing⟩ : Service).respond Sample.start Sample.inAdvance).2.response.status = 200 ∧
    Response.valuesOf "access-control-allow-origin"
      ((⟨Sample.sharing⟩ : Service).respond Sample.start Sample.inAdvance).2.response.headers =
        [Text.ofString "http://b"] := by
  have hs : Service.start? Sample.sharing = some ⟨Sample.sharing⟩ := rfl
  have hr : ([.request Sample.inAdvance] : List Event)[0]? = some (.request Sample.inAdvance) := rfl
  obtain ⟨hreads, hnames, _, hasked⟩ :=
    origins_restricted hs Sample.start _ hr (run_replied hr)
  obtain ⟨hgranted, _⟩ := (hasked Sample.inAdvance_asks).1 (by decide)
  have hstatus := hgranted Sample.inAdvance_admitted
  have hsound : (200 : Int) ≠ 500 := by decide
  exact ⟨hreads _ Sample.sharing_loads, hstatus,
    (hnames (hstatus ▸ hsound)).own _ (by decide) (by decide) (by decide)⟩

end Service

end BearerGate
