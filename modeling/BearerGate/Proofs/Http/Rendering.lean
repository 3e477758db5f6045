import BearerGate.Http.Session

namespace BearerGate

theorem CodePoint.isSurrogate_of_val_lt {c : CodePoint} (h : c.val < 0x80) :
    c.isSurrogate = false := by
  simp only [isSurrogate, Bool.and_eq_false_iff, decide_eq_false_iff_not]
  omega

theorem Text.hasSurrogate_append {t u : Text} :
    (t ++ u).hasSurrogate = (t.hasSurrogate || u.hasSurrogate) := List.any_append

namespace Json

theorem val_hexDigit_lt {n : Nat} (h : n < 16) : (hexDigit n).val < 0x80 := by
  unfold hexDigit CodePoint.ofNat
  dsimp only
  split <;> omega

theorem hasSurrogate_escape (c : CodePoint) : (escape c).hasSurrogate = c.isSurrogate := by
  have hb : CodePoint.backslash.isSurrogate = false := by decide
  unfold escape
  split
  case h_1 | h_2 => simp [Text.hasSurrogate, hb]
  case h_3 h | h_4 h | h_5 h | h_6 h | h_7 h =>
    rw [CodePoint.isSurrogate_of_val_lt (c := c) (by omega)]
    decide
  next =>
    split
    next hlt =>
      rw [CodePoint.isSurrogate_of_val_lt (c := c) (by omega)]
      have hhigh := CodePoint.isSurrogate_of_val_lt (val_hexDigit_lt (n := c.val / 16) (by omega))
      have hlow := CodePoint.isSurrogate_of_val_lt (val_hexDigit_lt (n := c.val % 16) (by omega))
      have hu : CodePoint.isSurrogate (CodePoint.ofChar 'u') = false := by decide
      have hz : CodePoint.isSurrogate (CodePoint.ofChar '0') = false := by decide
      simp [Text.hasSurrogate, hb, hu, hz, hhigh, hlow]
    next => simp [Text.hasSurrogate]

theorem hasSurrogate_writeString (t : Text) : (writeString t).hasSurrogate = t.hasSurrogate := by
  have hq : CodePoint.quote.isSurrogate = false := by decide
  have hbody : (t.flatMap escape).any CodePoint.isSurrogate = t.any CodePoint.isSurrogate := by
    induction t with
    | nil => rfl
    | cons c t ih =>
      have hc : (escape c).any CodePoint.isSurrogate = c.isSurrogate := hasSurrogate_escape c
      rw [List.flatMap_cons, List.any_append, List.any_cons, hc, ih]
  simp [writeString, Text.hasSurrogate, hq, hbody]

theorem hasSurrogate_writeMembers (members : List (Text × Text)) :
    (writeMembers (members.map fun (k, v) => (k, .str v))).hasSurrogate =
      members.any fun (k, v) => k.hasSurrogate || v.hasSurrogate := by
  have hcolon : (Text.ofString ":").hasSurrogate = false := by decide
  have hcomma : (Text.ofString ",").hasSurrogate = false := by decide
  induction members with
  | nil => rfl
  | cons m rest ih =>
    obtain ⟨k, v⟩ := m
    cases rest with
    | nil =>
      simp [writeMembers, write, Text.hasSurrogate_append, hasSurrogate_writeString, hcolon]
    | cons m' rest =>
      simp only [List.map_cons, writeMembers, write, Text.hasSurrogate_append,
        hasSurrogate_writeString, hcolon, hcomma, Bool.or_false] at ih ⊢
      simp only [ih, List.any_cons]

theorem hasSurrogate_write (members : List (Text × Text)) :
    (write (.obj (members.map fun (k, v) => (k, .str v)))).hasSurrogate =
      members.any fun (k, v) => k.hasSurrogate || v.hasSurrogate := by
  have hopen : (Text.ofString "\x7b").hasSurrogate = false := by decide
  have hclose : (Text.ofString "\x7d").hasSurrogate = false := by decide
  simp only [write, Text.hasSurrogate_append, hasSurrogate_writeMembers, hopen, hclose,
    Bool.false_or, Bool.or_false]

end Json

/-- Only the family of a published key is not this library's own text. -/
theorem Rejection.hasSurrogate_body {e : Rejection} :
    (Json.write e.problem.body).hasSurrogate = true ↔
      ∃ family, e = .unsupportedAlgorithm family ∧ family.hasSurrogate = true := by
  rw [Problem.body, Json.hasSurrogate_write]
  cases e with
  | unsupportedAlgorithm family =>
    have herror : (Text.ofString "error").hasSurrogate = false := by decide
    have hdescription : (Text.ofString "error_description").hasSurrogate = false := by decide
    have hmessage : (Text.ofString "message").hasSurrogate = false := by decide
    have htoken : Problem.invalidToken.hasSurrogate = false := by decide
    have hbad : Problem.badCredentials.hasSurrogate = false := by decide
    have hexpected : (Text.ofString
        "Unsupported encryption algorithm expected RSA got ").hasSurrogate = false := by decide
    simp [problem, Problem.unauthenticated, Problem.members, description?, Text.hasSurrogate_append,
      herror, hdescription, hmessage, htoken, hbad, hexpected]
  | _ =>
    refine iff_of_false ?_ (by simp)
    decide

namespace Response

section

variable {status : Int} {body : Json} {headers : List (Text × Text)} {response : Response}

/-- An answer has its body in UTF-8 and its headers in Latin-1. -/
theorem exists_json?_iff : (∃ response, json? status body headers = some response) ↔
    (Json.write body).hasSurrogate = false ∧
      ∀ m ∈ headers, isLatin1 (Text.lower m.1) = true ∧ isLatin1 m.2 = true := by
  have hlatin : ((headers.map fun (k, v) => (Text.lower k, v)).all fun (k, v) =>
      isLatin1 k && isLatin1 v) = true ↔
      ∀ m ∈ headers, isLatin1 (Text.lower m.1) = true ∧ isLatin1 m.2 = true := by
    simp only [List.all_map, List.all_eq_true, Function.comp_apply, Bool.and_eq_true]
  rw [← hlatin]
  simp only [json?]
  split
  next h =>
    refine iff_of_false (by simp) ?_
    rintro ⟨hbody, hheaders⟩
    simp [hbody, hheaders] at h
  next h =>
    refine iff_of_true ⟨_, rfl⟩ ?_
    simpa using h

theorem of_json? (h : json? status body headers = some response) :
    response.status = status ∧ response.body = Json.write body ∧ ∃ typed,
      (typed = [] ∨ typed = [header "content-type" "application/json"]) ∧
        response.headers = (headers.map fun (k, v) => (Text.lower k, v)) ++ typed := by
  simp only [json?] at h
  split at h
  next => cases h
  next =>
    cases h
    refine ⟨rfl, rfl, ?_⟩
    split
    next => exact ⟨[], .inl rfl, (List.append_nil _).symm⟩
    next => exact ⟨_, .inr rfl, rfl⟩

end

theorem ofProblem?_problem (e : Rejection) :
    ofProblem? e.problem =
      if (Json.write e.problem.body).hasSurrogate then none
      else some ⟨401, [header "www-authenticate" "Bearer",
        header "content-type" "application/json"], Json.write e.problem.body⟩ := by
  have hstatus : e.problem.status = 401 := by cases e <;> rfl
  have hheaders : e.problem.headers =
      some [(Text.ofString "WWW-Authenticate", Text.ofString "Bearer")] := by cases e <;> rfl
  have hgiven : ((e.problem.headers.getD []).map fun (k, v) => (Text.lower k, v)) =
      [header "www-authenticate" "Bearer"] := by
    rw [hheaders]
    decide
  have hlatin : ([header "www-authenticate" "Bearer"].all fun (k, v) =>
      isLatin1 k && isLatin1 v) = true := by decide
  have huntyped : ([header "www-authenticate" "Bearer"].any fun (k, _) =>
      k = Text.ofString "content-type") = false := by decide
  simp only [ofProblem?, json?, hstatus, hgiven, hlatin, huntyped, Bool.not_true, Bool.or_false]
  rfl

theorem json?_plain (status : Int) (body : Json) :
    json? status body [] =
      if (Json.write body).hasSurrogate then none
      else some ⟨status, [header "content-type" "application/json"], Json.write body⟩ := by
  simp [json?]

end Response

namespace Service

theorem hasSurrogate_identity (c : Claims) :
    (Json.write (object [("id", c.subject)])).hasSurrogate = c.subject.hasSurrogate := by
  have hid : (Text.ofString "id").hasSurrogate = false := by decide
  have hwrite := Json.hasSurrogate_write [(Text.ofString "id", c.subject)]
  simpa [object, hid] using hwrite

section

variable {s : Service} {w : World} {r : Request}

/-- What the gate finds for a request that arrives in this world. -/
def found (s : Service) (w : World) (r : Request) : Except Failure Claims :=
  (s.gate.authenticate w.clock w.keyServer (r.header? "authorization") w.cache).result

theorem response_of_me (hget : r.method = Text.ofString "GET")
    (hme : Route.ofPath? r.path = some .me) :
    (s.respond w r).2.response =
      match ofGate (s.found w r) with
      | .ok response => Cors.decorate s.settings.allowedOrigins r response
      | .error _ => internalError := by
  have hmethod : (Text.ofString "GET" == Text.ofString "OPTIONS") = false := by decide
  have hpreflight : Cors.isPreflight r = false := by simp [Cors.isPreflight, hget, hmethod]
  have hguarded : isGuarded r = true := by simp [isGuarded, hpreflight, hget, hme]
  simp only [respond, hpreflight, hguarded, Bool.false_eq_true, if_false, if_true, reply, found]
  cases ofGate (s.gate.authenticate w.clock w.keyServer (r.header? "authorization") w.cache).result
    <;> rfl

theorem settings_of_start? {settings : Settings} (h : start? settings = some s) :
    s.settings = settings := by
  unfold start? at h
  split at h
  next => cases h
  next =>
    cases h
    rfl

def worldAt (s : Service) (start : World) (events : List Event) (i : Nat) : World :=
  (s.run start (events.take i)).1

theorem run_replied {start : World} {events : List Event} {i : Nat}
    (h : events[i]? = some (.request r)) :
    (s.run start events).2[i]? = some (some (s.respond (s.worldAt start events i) r).2) := by
  induction events generalizing start i with
  | nil => simp at h
  | cons e rest ih =>
    cases i with
    | zero =>
      obtain rfl : e = .request r := by simpa using h
      rfl
    | succ i => exact ih (by simpa using h)

theorem rejection_rendered (hget : r.method = Text.ofString "GET")
    (hme : Route.ofPath? r.path = some .me) {e : Rejection}
    (h : s.found w r = .error (.rejected e)) :
    (s.respond w r).2.response =
      if (Json.write e.problem.body).hasSurrogate then internalError
      else Cors.decorate s.settings.allowedOrigins r
        ⟨401, [Response.header "www-authenticate" "Bearer",
          Response.header "content-type" "application/json"], Json.write e.problem.body⟩ := by
  rw [response_of_me hget hme, h, ofGate, Response.ofProblem?_problem]
  cases (Json.write e.problem.body).hasSurrogate <;> rfl

theorem claims_rendered (hget : r.method = Text.ofString "GET")
    (hme : Route.ofPath? r.path = some .me) {c : Claims} (h : s.found w r = .ok c) :
    (s.respond w r).2.response =
      if c.subject.hasSurrogate then internalError
      else Cors.decorate s.settings.allowedOrigins r
        ⟨200, [Response.header "content-type" "application/json"],
          Json.write (object [("id", c.subject)])⟩ := by
  rw [response_of_me hget hme, h, ofGate, identity, Response.json?_plain, hasSurrogate_identity]
  cases c.subject.hasSurrogate <;> rfl

theorem fault_rendered (hget : r.method = Text.ofString "GET")
    (hme : Route.ofPath? r.path = some .me) {f : Fault} (h : s.found w r = .error (.faulted f)) :
    (s.respond w r).2.response = internalError := by
  rw [response_of_me hget hme, h, ofGate]

theorem internalError_status : internalError.status = 500 := rfl

theorem rejection_promised_iff (hget : r.method = Text.ofString "GET")
    (hme : Route.ofPath? r.path = some .me) {e : Rejection}
    (h : s.found w r = .error (.rejected e)) :
    ((s.respond w r).2.response.status = 401 ∧
        Response.header "www-authenticate" "Bearer" ∈ (s.respond w r).2.response.headers ∧
        (s.respond w r).2.response.body = Json.write e.problem.body) ↔
      ∀ family, e = .unsupportedAlgorithm family → family.hasSurrogate = false := by
  rw [rejection_rendered hget hme h]
  have hbody := Rejection.hasSurrogate_body (e := e)
  cases hs : (Json.write e.problem.body).hasSurrogate with
  | true =>
    obtain ⟨family, hfamily, hf⟩ := hbody.mp hs
    refine iff_of_false (by simp [internalError_status]) ?_
    intro hall
    simp [hall family hfamily] at hf
  | false =>
    refine iff_of_true ⟨rfl, by simp [Cors.decorate], rfl⟩ ?_
    intro family hfamily
    cases hf : family.hasSurrogate with
    | false => rfl
    | true =>
      rw [hbody.mpr ⟨family, hfamily, hf⟩] at hs
      cases hs

theorem claims_promised_iff (hget : r.method = Text.ofString "GET")
    (hme : Route.ofPath? r.path = some .me) {c : Claims} (h : s.found w r = .ok c) :
    ((s.respond w r).2.response.status = 200 ∧
        (s.respond w r).2.response.body = Json.write (object [("id", c.subject)])) ↔
      c.subject.hasSurrogate = false := by
  rw [claims_rendered hget hme h]
  cases hs : c.subject.hasSurrogate with
  | true => simp [internalError_status]
  | false => exact iff_of_true ⟨rfl, rfl⟩ rfl

theorem internal_iff (hget : r.method = Text.ofString "GET")
    (hme : Route.ofPath? r.path = some .me) :
    (s.respond w r).2.response.status = 500 ↔
      (∃ f, s.found w r = .error (.faulted f)) ∨
      (∃ family, s.found w r = .error (.rejected (.unsupportedAlgorithm family)) ∧
        family.hasSurrogate = true) ∨
      ∃ c, s.found w r = .ok c ∧ c.subject.hasSurrogate = true := by
  cases hfound : s.found w r with
  | error failure =>
    cases failure with
    | faulted f => simp [fault_rendered hget hme hfound, internalError_status]
    | rejected e =>
      have hbody := Rejection.hasSurrogate_body (e := e)
      rw [rejection_rendered hget hme hfound]
      cases hs : (Json.write e.problem.body).hasSurrogate with
      | true =>
        obtain ⟨family, rfl, hf⟩ := hbody.mp hs
        simp [internalError_status, hf]
      | false =>
        refine iff_of_false (by simp [Cors.decorate]) ?_
        rintro (⟨f, hf⟩ | ⟨family, hf, hsurrogate⟩ | ⟨c, hc, _⟩)
        · cases hf
        · cases hf
          rw [hbody.mpr ⟨family, rfl, hsurrogate⟩] at hs
          cases hs
        · cases hc
  | ok c =>
    rw [claims_rendered hget hme hfound]
    cases hs : c.subject.hasSurrogate <;> simp [Cors.decorate, internalError_status, hs]

/-- Rejections and claims are rendered as promised unless a family or a subject cannot be written.
-/
theorem outcomes_rendered {start : World} {events : List Event} {i : Nat} {reply : Reply}
    (hr : events[i]? = some (.request r)) (hget : r.method = Text.ofString "GET")
    (hme : Route.ofPath? r.path = some .me)
    (hreply : (s.run start events).2[i]? = some (some reply)) :
    (∀ e, s.found (s.worldAt start events i) r = .error (.rejected e) →
      ((reply.response.status = 401 ∧
          Response.header "www-authenticate" "Bearer" ∈ reply.response.headers ∧
          reply.response.body = Json.write e.problem.body) ↔
        ∀ family, e = .unsupportedAlgorithm family → family.hasSurrogate = false)) ∧
    (∀ c, s.found (s.worldAt start events i) r = .ok c →
      ((reply.response.status = 200 ∧
          reply.response.body = Json.write (object [("id", c.subject)])) ↔
        c.subject.hasSurrogate = false)) ∧
    (reply.response.status = 500 ↔
      (∃ f, s.found (s.worldAt start events i) r = .error (.faulted f)) ∨
      (∃ family, s.found (s.worldAt start events i) r =
        .error (.rejected (.unsupportedAlgorithm family)) ∧ family.hasSurrogate = true) ∨
      ∃ c, s.found (s.worldAt start events i) r = .ok c ∧ c.subject.hasSurrogate = true) := by
  cases Option.some.inj (Option.some.inj ((run_replied hr).symm.trans hreply))
  exact ⟨fun _ he => rejection_promised_iff hget hme he,
    fun _ hc => claims_promised_iff hget hme hc, internal_iff hget hme⟩

end

namespace Sample

def service : Service :=
  ⟨⟨Text.ofString "b", false, Text.ofString "a", Text.ofString "h", Binary64.ofInt 5, 0, [],
    Text.ofString "INFO"⟩⟩

def keySet : Text := Text.ofString
  "\x7b\"keys\":[\x7b\"kid\":\"k\",\"kty\":\"EC\",\"crv\":\"\\ud800\"\x7d]\x7d"

def start : World := ⟨⟨0, 0⟩, .answers 200 (keySet.map fun c => UInt8.ofNat c.val), none⟩

def request : Request where
  method := Text.ofString "GET"
  path := Text.ofString "/me"
  query := []
  headers := [(Text.ofString "authorization",
    Text.ofString "Bearer eyJhbGciOiJSUzI1NiIsImtpZCI6ImsifQ.e30.AA")]

def family : Text := Text.ofString "EC (" ++ CodePoint.ofNat 0xD800 :: Text.ofString ")"

theorem refuses : service.found start request =
    .error (.rejected (.unsupportedAlgorithm family)) := by decide +kernel

end Sample

/-- A rejection that is answered with status 500. -/
theorem unwritable_rejection :
    ∃ e, Sample.service.found Sample.start Sample.request = .error (.rejected e) ∧
      (Sample.service.respond Sample.start Sample.request).2.response.status = 500 :=
  ⟨_, Sample.refuses,
    (internal_iff rfl (by decide)).mpr (.inr (.inl ⟨_, Sample.refuses, by decide⟩))⟩

theorem sample_outcome_rendered :
    (∃ f, Sample.service.found Sample.start Sample.request = .error (.faulted f)) ∨
    (∃ family, Sample.service.found Sample.start Sample.request =
      .error (.rejected (.unsupportedAlgorithm family)) ∧ family.hasSurrogate = true) ∨
    ∃ c, Sample.service.found Sample.start Sample.request = .ok c ∧
      c.subject.hasSurrogate = true := by
  have hr : ([.request Sample.request] : List Event)[0]? = some (.request Sample.request) := rfl
  obtain ⟨_, _, hinternal⟩ := outcomes_rendered hr rfl (by decide) (run_replied hr)
  exact hinternal.mp ((internal_iff rfl (by decide)).mpr
    (.inr (.inl ⟨_, Sample.refuses, by decide⟩)))

end Service

end BearerGate
