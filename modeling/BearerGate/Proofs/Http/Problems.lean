import BearerGate.Proofs.Http.Rendering
import BearerGate.Proofs.Json.Documents
import BearerGate.Proofs.Text.Utf8
import BearerGate.Record

namespace BearerGate

namespace Problem

variable {p q : Problem} {r : Response}

structure IsWritable (p : Problem) : Prop where
  error : ∀ t ∈ p.error, t.hasSurrogate = false
  description : ∀ t ∈ p.description, t.hasSurrogate = false
  message : p.message.hasSurrogate = false

def HasPlainHeaders (p : Problem) : Prop :=
  ∀ m ∈ p.headers.getD [],
    Response.isLatin1 (Text.lower m.1) = true ∧ Response.isLatin1 m.2 = true

def fields (p : Problem) : List (Text × Option Text) :=
  [(Text.ofString "error", p.error), (Text.ofString "error_description", p.description),
    (Text.ofString "message", some p.message)]

def told (p : Problem) : Members := p.fields.filterMap fun (k, v) => v.map fun t => (k, .str t)

def recorded (p : Problem) : Record := p.fields.map fun (k, v) => (k, (v.map .str).getD .null)

theorem told_eq (p : Problem) : p.told = Json.ofTexts p.members := by
  obtain ⟨message, status, error, description, headers⟩ := p
  cases error <;> cases description <;> rfl

theorem members_nodup (p : Problem) : (p.members.map Prod.fst).Nodup := by
  have hnames : [Text.ofString "error", Text.ofString "error_description",
      Text.ofString "message"].Nodup := by decide
  have hmembers : (p.members.map Prod.fst).Sublist [Text.ofString "error",
      Text.ofString "error_description", Text.ofString "message"] := by
    obtain ⟨message, status, error, description, headers⟩ := p
    cases error <;> cases description <;> simp [members]
  exact hnames.sublist hmembers

theorem write_body (p : Problem) : Json.write p.body = Json.write (.obj (Json.ofTexts p.members)) :=
  rfl

theorem read_body (p : Problem) : Json.read (Json.write p.body) = .ok (.obj p.told) := by
  rw [write_body, told_eq]
  exact Json.read_write_ofTexts p.members_nodup

/-- The names in the body are ASCII. -/
theorem isWritable_iff : p.IsWritable ↔ (Json.write p.body).hasSurrogate = false := by
  have herror : (Text.ofString "error").hasSurrogate = false := by decide
  have hdescription : (Text.ofString "error_description").hasSurrogate = false := by decide
  have hmessage : (Text.ofString "message").hasSurrogate = false := by decide
  have htexts : p.IsWritable ↔ (∀ t ∈ p.error, t.hasSurrogate = false) ∧
      (∀ t ∈ p.description, t.hasSurrogate = false) ∧ p.message.hasSurrogate = false := by
    constructor
    · intro h
      exact ⟨h.error, h.description, h.message⟩
    · rintro ⟨he, hd, hm⟩
      exact ⟨he, hd, hm⟩
  rw [htexts, body, Json.hasSurrogate_write]
  obtain ⟨message, status, error, description, headers⟩ := p
  cases error <;> cases description <;> simp [members, herror, hdescription, hmessage]

theorem get?_told (p : Problem) :
    Table.get? (Text.ofString "error") p.told = p.error.map .str ∧
    Table.get? (Text.ofString "error_description") p.told = p.description.map .str ∧
    Table.get? (Text.ofString "message") p.told = some (.str p.message) := by
  have hdescription : Text.ofString "error" ≠ Text.ofString "error_description" := by decide
  have hmessage : Text.ofString "error" ≠ Text.ofString "message" := by decide
  have hother : Text.ofString "error_description" ≠ Text.ofString "message" := by decide
  obtain ⟨message, status, error, description, headers⟩ := p
  cases error <;> cases description <;>
    simp [told, fields, Table.get?, hdescription, hmessage, hother, hdescription.symm,
      hmessage.symm, hother.symm]

theorem readField_optionalText {given : Table Json} {name : String} {v : Option Text}
    (h : Table.get? (Text.ofString name) given = v.map .str) :
    Schema.readField given (Schema.field name .optionalText false) =
      .ok ((v.map .str).getD .null) := by
  unfold Schema.readField Schema.field
  dsimp only
  rw [h]
  cases v <;> rfl

theorem readField_text {given : Table Json} {name : String} {required : Bool} {t : Text}
    (h : Table.get? (Text.ofString name) given = some (.str t)) :
    Schema.readField given (Schema.field name .text required) = .ok (.str t) := by
  unfold Schema.readField Schema.field
  dsimp only
  rw [h]
  rfl

/-- A record of what is told has all fields. -/
theorem build_told (p : Problem) : Schema.problemBody.build p.told = .ok p.recorded := by
  obtain ⟨herror, hdescription, hmessage⟩ := p.get?_told
  simp only [Schema.build, Schema.problemBody, Schema.readFields, readField_optionalText herror,
    readField_optionalText hdescription, readField_text hmessage]
  rfl

theorem recorded_injective (h : p.recorded = q.recorded) :
    p.error = q.error ∧ p.description = q.description ∧ p.message = q.message := by
  have hvalue : ∀ v w : Option Text, (v.map Json.str).getD .null = (w.map Json.str).getD .null →
      v = w := by
    intro v w hvw
    cases v with
    | none =>
      cases w with
      | none => rfl
      | some u => cases hvw
    | some t =>
      cases w with
      | none => cases hvw
      | some u => exact congrArg some (Json.str.inj hvw)
  simp only [recorded, fields, List.map_cons, List.map_nil, List.cons.injEq, Prod.mk.injEq,
    true_and, and_true] at h
  obtain ⟨herror, hdescription, hmessage⟩ := h
  exact ⟨hvalue _ _ herror, hvalue _ _ hdescription, Option.some.inj (hvalue _ _ hmessage)⟩

/-- Equal bodies are read as one object, and the record of it has the fields of both. -/
theorem body_injective (h : Json.write p.body = Json.write q.body) :
    p.error = q.error ∧ p.description = q.description ∧ p.message = q.message := by
  -- The fields are compared in the records: in what is read some may be left out.
  have htold : p.told = q.told := by
    have hread := p.read_body
    rw [h, q.read_body] at hread
    exact (Json.obj.inj (Except.ok.inj hread)).symm
  have hrecord := p.build_told
  rw [htold, q.build_told] at hrecord
  exact recorded_injective (Except.ok.inj hrecord).symm

theorem exists_answer_iff :
    (∃ r, Response.ofProblem? p = some r) ↔ p.IsWritable ∧ p.HasPlainHeaders := by
  rw [isWritable_iff]
  exact Response.exists_json?_iff

theorem of_answer (h : Response.ofProblem? p = some r) :
    r.status = p.status ∧ r.body = Json.write p.body := by
  obtain ⟨hstatus, hbody, -⟩ := Response.of_json? h
  exact ⟨hstatus, hbody⟩

theorem plainHeaders_unauthenticated (message : Text) (error description : Option Text) :
    (unauthenticated message error description).HasPlainHeaders := by
  unfold HasPlainHeaders
  change ∀ m ∈ [(Text.ofString "WWW-Authenticate", Text.ofString "Bearer")], _
  decide

theorem write_body_head (p : Problem) : ∃ rest,
    Json.write p.body = ('{' : CodePoint) :: CodePoint.quote :: rest := by
  obtain ⟨m, ms, hmembers⟩ : ∃ m ms, p.members = m :: ms := by
    obtain ⟨message, status, error, description, headers⟩ := p
    cases error <;> cases description <;> exact ⟨_, _, rfl⟩
  obtain ⟨rest, hrest⟩ := Json.writeMembers_head m ms
  have hwrite : Json.write p.body = ('{' : CodePoint) ::
      (Json.writeMembers (Json.ofTexts p.members) ++ [('}' : CodePoint)]) := rfl
  rw [hwrite, hmembers, hrest]
  exact ⟨_, rfl⟩

theorem answer_arrives (h : Response.ofProblem? p = some r) :
    ∃ bytes, Utf8.encode? r.body = some bytes ∧ Encoding.read? bytes = some r.body := by
  have hwritable : p.IsWritable := (exists_answer_iff.mp ⟨r, h⟩).1
  obtain ⟨rest, hrest⟩ := p.write_body_head
  obtain ⟨bytes, hbytes⟩ := Utf8.exists_encode? (isWritable_iff.mp hwritable)
  have hread := hbytes
  rw [hrest] at hread
  rw [(of_answer h).2]
  refine ⟨bytes, hbytes, ?_⟩
  rw [hrest]
  exact Encoding.read?_encode?_object hread

/-- A problem arrives as it is, unless its texts or headers cannot be written. -/
theorem answered_faithfully (p : Problem) :
    ((∃ r, Response.ofProblem? p = some r) ↔ p.IsWritable ∧ p.HasPlainHeaders) ∧
    (∀ message error description, p = unauthenticated message error description →
      p.HasPlainHeaders) ∧
    ∀ r, Response.ofProblem? p = some r →
      r.status = p.status ∧
      (∃ bytes, Utf8.encode? r.body = some bytes ∧ Encoding.read? bytes = some r.body) ∧
      Json.read r.body = .ok (.obj p.told) ∧ Schema.problemBody.build p.told = .ok p.recorded ∧
      ∀ q r', Response.ofProblem? q = some r' → r.body = r'.body →
        p.error = q.error ∧ p.description = q.description ∧ p.message = q.message := by
  refine ⟨exists_answer_iff, ?_, ?_⟩
  · rintro message error description rfl
    exact plainHeaders_unauthenticated message error description
  · intro r h
    obtain ⟨hstatus, hbody⟩ := of_answer h
    have hread : Json.read r.body = .ok (.obj p.told) := by
      rw [hbody]
      exact p.read_body
    refine ⟨hstatus, answer_arrives h, hread, p.build_told, ?_⟩
    intro q r' h' hsame
    rw [hbody, (of_answer h').2] at hsame
    exact body_injective hsame

namespace Sample

def wide : Problem := ⟨Text.ofString "m", 500, none, none,
  some [(Text.ofString "X", [CodePoint.ofNat 0x20AC])]⟩

def forged : Problem :=
  (Rejection.unsupportedAlgorithm (Text.ofString "EC (\",\"message\":\"Welcome\")")).problem

end Sample

theorem wide_header_unanswered :
    ¬∀ p : Problem, p.IsWritable → ∃ r, Response.ofProblem? p = some r := by
  intro h
  have hwritable : Sample.wide.IsWritable := isWritable_iff.mpr (by decide)
  obtain ⟨_, hheaders⟩ := exists_answer_iff.mp (h _ hwritable)
  exact absurd (hheaders _ List.mem_cons_self).2 (by decide)

/-- A published key cannot put a message of its own into the body. -/
theorem sample_answered_faithfully :
    ∃ r, Response.ofProblem? Sample.forged = some r ∧ r.status = 401 ∧
      Json.read r.body = .ok (.obj Sample.forged.told) := by
  obtain ⟨hanswered, hplain, htells⟩ := answered_faithfully Sample.forged
  have hwritable : Sample.forged.IsWritable := isWritable_iff.mpr (by decide)
  obtain ⟨r, hr⟩ := hanswered.mpr ⟨hwritable, hplain _ _ _ rfl⟩
  obtain ⟨hstatus, _, hread, _⟩ := htells r hr
  exact ⟨r, hr, hstatus, hread⟩

end Problem

namespace ProblemClass

variable {c : ProblemClass} {args : List Json} {p : Problem}

/-- A class is made without arguments exactly if all of its parameters have defaults. -/
theorem made_by_default_iff (c : ProblemClass) :
    (∃ args p, c.arguments? [] [] = some args ∧ c.made? args = some p) ↔
      ∀ q ∈ c.parameters, q.default ≠ none := by
  cases c with
  | general | unknownKey | unsupportedAlgorithm =>
    refine iff_of_false ?_ fun hall => hall _ List.mem_cons_self rfl
    rintro ⟨args, p, hargs, _⟩
    cases hargs
  | _ => exact iff_of_true ⟨_, _, rfl, rfl⟩ (by simp [parameters])

/-- Whatever is made of a class below that of authentication asks for a bearer token. -/
theorem unauthenticated_of_made (hc : .authentication ∈ c.lineage) (h : c.made? args = some p) :
    ∃ message error description, p = Problem.unauthenticated message error description := by
  unfold made? at h
  split at h
  next => simp [lineage] at hc
  next message error description =>
    obtain ⟨e, _, h⟩ := Option.bind_eq_some_iff.mp h
    obtain ⟨d, _, h⟩ := Option.bind_eq_some_iff.mp h
    exact ⟨message, e, d, (Option.some.inj h).symm⟩
  all_goals first | exact ⟨_, _, _, (Option.some.inj h).symm⟩ | cases h

/-- Problems of authentication are answered with status 401, unless a text cannot be written. -/
theorem authentication_answered (hc : .authentication ∈ c.lineage) (h : c.made? args = some p) :
    ((∃ r, Response.ofProblem? p = some r) ↔ p.IsWritable) ∧
      ∀ r, Response.ofProblem? p = some r → r.status = 401 := by
  obtain ⟨message, error, description, rfl⟩ := unauthenticated_of_made hc h
  have hplain := Problem.plainHeaders_unauthenticated message error description
  refine ⟨?_, fun r hr => (Problem.of_answer hr).1⟩
  rw [Problem.exists_answer_iff, and_iff_left hplain]

end ProblemClass

namespace Rejection

def arguments (r : Rejection) : List Json :=
  match r with
  | unsupportedAlgorithm a => [.str a]
  | noKeyNamed | keyNotPublished => (r.description?.map .str).toList
  | _ => []

/-- Every rejection is a problem of a class below that of authentication. -/
theorem made_problem (r : Rejection) :
    .authentication ∈ r.problemClass.lineage ∧
      r.problemClass.made? r.arguments = some r.problem := by
  cases r <;> exact ⟨by simp [problemClass, ProblemClass.lineage], rfl⟩

end Rejection

end BearerGate
