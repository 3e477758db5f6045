import BearerGate.Proofs.Gate.Authentication
import Mathlib.Data.List.Forall2

namespace BearerGate

namespace PublishedKey

def IsRsa (ms : Members) : Prop :=
  Table.get? (Text.ofString "kty") ms = some (.str (Text.ofString "RSA"))

def HasComponents (ms : Members) : Prop :=
  (∃ n, Table.get? (Text.ofString "n") ms = some (.str n)) ∧
    ∃ e, Table.get? (Text.ofString "e") ms = some (.str e)

/-- An entry is read as this key. -/
inductive Describes : Json → PublishedKey → Prop
  | rsa {ms : Members} {n e : Text} (kty : IsRsa ms)
    (modulus : Table.get? (Text.ofString "n") ms = some (.str n))
    (exponent : Table.get? (Text.ofString "e") ms = some (.str e)) :
    Describes (.obj ms) ⟨text? "kid" ms, .rsa n e⟩
  | other {ms : Members} (kty : ¬IsRsa ms) :
    Describes (.obj ms)
      ⟨text? "kid" ms, .other ((text? "kty" ms).getD (Text.ofString "unknown")) (text? "crv" ms)⟩

def Legible (v : Json) : Prop := ∃ ms, v = .obj ms ∧ (IsRsa ms → HasComponents ms)

/-- Why an entry cannot be read. -/
inductive Offends : Json → KeySetError → Prop
  | notObject {v : Json} (h : ∀ ms, v ≠ .obj ms) : Offends v .entryNotObject
  | withoutComponents {ms : Members} (kty : IsRsa ms) (h : ¬HasComponents ms) :
    Offends (.obj ms) .rsaWithoutComponents

def Names (v : Json) (kid : Text) : Prop :=
  ∃ ms, v = .obj ms ∧ Table.get? (Text.ofString "kid") ms = some (.str kid)

/-- Two entries agree in all that a key is read from. -/
def Alike (v w : Json) : Prop :=
  ∃ ms ms', v = .obj ms ∧ w = .obj ms' ∧ ∀ name ∈ ["kty", "n", "e", "crv", "kid"],
    Table.get? (Text.ofString name) ms = Table.get? (Text.ofString name) ms'

theorem text?_eq_some_iff {name : String} {ms : Members} {t : Text} :
    text? name ms = some t ↔ Table.get? (Text.ofString name) ms = some (.str t) := by
  unfold text?
  cases Table.get? (Text.ofString name) ms with
  | none => simp
  | some v => cases v <;> simp [Json.str?]

theorem kidOf?_eq_some_iff {v : Json} {kid : Text} : kidOf? v = some kid ↔ Names v kid := by
  cases v <;> simp [kidOf?, Names, text?_eq_some_iff]

theorem ofJson_obj {ms : Members} :
    ofJson (.obj ms) = (parametersOf ms).map fun p => ⟨text? "kid" ms, p⟩ := rfl

theorem ofJson_cases (v : Json) :
    (∃ key, ofJson v = .ok key ∧ Describes v key) ∨ ∃ e, ofJson v = .error e ∧ Offends v e := by
  cases v with
  | obj ms =>
    rw [ofJson_obj]
    by_cases kty : IsRsa ms
    · have hkty : text? "kty" ms = some (Text.ofString "RSA") := text?_eq_some_iff.mpr kty
      by_cases hcomponents : HasComponents ms
      · obtain ⟨⟨n, hn⟩, ⟨e, he⟩⟩ := hcomponents
        refine .inl ⟨⟨text? "kid" ms, .rsa n e⟩, ?_, .rsa kty hn he⟩
        simp [parametersOf, hkty, text?_eq_some_iff.mpr hn, text?_eq_some_iff.mpr he, Except.map]
      · refine .inr ⟨.rsaWithoutComponents, ?_, .withoutComponents kty hcomponents⟩
        simp only [parametersOf, hkty, if_true]
        split
        next n e hn he =>
          exact absurd ⟨⟨n, text?_eq_some_iff.mp hn⟩, ⟨e, text?_eq_some_iff.mp he⟩⟩ hcomponents
        next => rfl
    · have hkty : text? "kty" ms ≠ some (Text.ofString "RSA") := mt text?_eq_some_iff.mp kty
      refine .inl ⟨_, ?_, .other kty⟩
      simp [parametersOf, hkty, Except.map]
  | _ => exact .inr ⟨_, rfl, .notObject (by simp)⟩

theorem Describes.unique {v : Json} {key key' : PublishedKey} (h : Describes v key)
    (h' : Describes v key') : key = key' := by
  cases h with
  | rsa kty hn he =>
    cases h' with
    | rsa _ hn' he' =>
      cases hn.symm.trans hn'
      cases he.symm.trans he'
      rfl
    | other hno => exact absurd kty hno
  | other hno =>
    cases h' with
    | rsa kty => exact absurd kty hno
    | other => rfl

theorem exists_describes_iff {v : Json} : (∃ key, Describes v key) ↔ Legible v := by
  constructor
  · rintro ⟨key, h⟩
    cases h with
    | rsa _ hn he => exact ⟨_, rfl, fun _ => ⟨⟨_, hn⟩, ⟨_, he⟩⟩⟩
    | other hno => exact ⟨_, rfl, fun kty => absurd kty hno⟩
  · rintro ⟨ms, rfl, h⟩
    by_cases kty : IsRsa ms
    · obtain ⟨⟨n, hn⟩, ⟨e, he⟩⟩ := h kty
      exact ⟨_, .rsa kty hn he⟩
    · exact ⟨_, .other kty⟩

theorem Offends.not_legible {v : Json} {e : KeySetError} (h : Offends v e) : ¬Legible v := by
  rintro ⟨ms, rfl, hrsa⟩
  cases h with
  | notObject hv => exact hv ms rfl
  | withoutComponents kty hno => exact hno (hrsa kty)

theorem Offends.unique {v : Json} {e e' : KeySetError} (h : Offends v e) (h' : Offends v e') :
    e = e' := by
  cases h with
  | notObject hv =>
    cases h' with
    | notObject => rfl
    | withoutComponents => exact absurd rfl (hv _)
  | withoutComponents =>
    cases h' with
    | notObject hv => exact absurd rfl (hv _)
    | withoutComponents => rfl

theorem ofJson_eq_ok_iff_describes {v : Json} {key : PublishedKey} :
    ofJson v = .ok key ↔ Describes v key := by
  rcases ofJson_cases v with ⟨key', hk, hd⟩ | ⟨e, he, ho⟩
  · rw [hk]
    exact ⟨fun h => Except.ok.inj h ▸ hd, fun h => by rw [hd.unique h]⟩
  · rw [he]
    exact iff_of_false (by simp) fun h => ho.not_legible (exists_describes_iff.mp ⟨key, h⟩)

theorem Describes.exists_rsa_iff {ms : Members} {key : PublishedKey} (h : Describes (.obj ms) key) :
    (∃ n e, key.parameters = .rsa n e) ↔ IsRsa ms := by
  cases h with
  | rsa kty => exact iff_of_true ⟨_, _, rfl⟩ kty
  | other hno => exact iff_of_false (by simp) hno

theorem Alike.describes {v w : Json} {key : PublishedKey} (h : Alike v w) (hv : Describes v key) :
    Describes w key := by
  obtain ⟨ms, ms', rfl, rfl, hsame⟩ := h
  simp only [List.forall_mem_cons, List.not_mem_nil, false_imp_iff, implies_true, and_true]
    at hsame
  obtain ⟨hkty, hn, he, hcrv, hkid⟩ := hsame
  have htext : ∀ name, Table.get? (Text.ofString name) ms = Table.get? (Text.ofString name) ms' →
      text? name ms = text? name ms' := fun name h => by rw [text?, h, text?]
  cases hv with
  | rsa kty modulus exponent =>
    rw [htext _ hkid]
    exact .rsa (hkty.symm.trans kty) (hn.symm.trans modulus) (he.symm.trans exponent)
  | other hno =>
    rw [htext _ hkid, htext _ hkty, htext _ hcrv]
    exact .other fun kty => hno (hkty.trans kty)

end PublishedKey

namespace KeySet

open PublishedKey

def Lists (document : Json) (entries : List Json) : Prop :=
  ∃ members, document = .obj members ∧
    Table.get? (Text.ofString "keys") members = some (.arr entries)

section

variable {document : Json} {entries : List Json} {keys : KeySet} {e : KeySetError}

theorem Lists.unique {entries' : List Json} (h : Lists document entries)
    (h' : Lists document entries') : entries = entries' := by
  obtain ⟨ms, rfl, he⟩ := h
  obtain ⟨ms', hms, he'⟩ := h'
  cases hms
  cases he.symm.trans he'
  rfl

theorem ofEntries_eq_ok_iff_describes :
    ofEntries entries = .ok keys ↔ List.Forall₂ Describes entries keys := by
  induction entries generalizing keys with
  | nil => simp [ofEntries, eq_comm]
  | cons v vs ih =>
    simp only [ofEntries_cons_eq_ok_iff, ih, PublishedKey.ofJson_eq_ok_iff_describes,
      List.forall₂_cons_left_iff]

theorem exists_forall₂_describes_iff :
    (∃ keys, List.Forall₂ Describes entries keys) ↔ ∀ v ∈ entries, Legible v := by
  induction entries with
  | nil => simp
  | cons v vs ih =>
    rw [List.forall_mem_cons, ← ih, ← exists_describes_iff]
    constructor
    · rintro ⟨_, h⟩
      cases h with
      | cons hk hks => exact ⟨⟨_, hk⟩, ⟨_, hks⟩⟩
    · rintro ⟨⟨key, hk⟩, ⟨keys, hks⟩⟩
      exact ⟨key :: keys, .cons hk hks⟩

/-- A list is refused for the first entry that cannot be read. -/
theorem ofEntries_eq_error_iff :
    ofEntries entries = .error e ↔
      ∃ before v after, entries = before ++ v :: after ∧ (∀ w ∈ before, Legible w) ∧
        Offends v e := by
  induction entries with
  | nil => simp [ofEntries]
  | cons v vs ih =>
    rcases ofJson_cases v with ⟨key, hk, hd⟩ | ⟨e', he, ho⟩
    · have hstep : ofEntries (v :: vs) = .error e ↔ ofEntries vs = .error e := by
        simp only [ofEntries, hk]
        cases ofEntries vs <;> simp [Except.map]
      rw [hstep, ih]
      constructor
      · rintro ⟨before, w, after, rfl, hb, hw⟩
        exact ⟨v :: before, w, after, rfl,
          List.forall_mem_cons.mpr ⟨exists_describes_iff.mp ⟨key, hd⟩, hb⟩, hw⟩
      · rintro ⟨before, w, after, hsplit, hb, hw⟩
        cases before with
        | nil =>
          obtain ⟨rfl, _⟩ := List.cons.inj hsplit
          exact absurd (exists_describes_iff.mp ⟨key, hd⟩) hw.not_legible
        | cons u us =>
          obtain ⟨rfl, rfl⟩ := List.cons.inj hsplit
          exact ⟨us, w, after, rfl, (List.forall_mem_cons.mp hb).2, hw⟩
    · have hstep : ofEntries (v :: vs) = .error e' := by simp only [ofEntries, he]
      rw [hstep]
      constructor
      · intro h
        cases h
        exact ⟨[], v, vs, rfl, by simp, ho⟩
      · rintro ⟨before, w, after, hsplit, hb, hw⟩
        cases before with
        | nil =>
          obtain ⟨rfl, _⟩ := List.cons.inj hsplit
          rw [ho.unique hw]
        | cons u us =>
          obtain ⟨rfl, _⟩ := List.cons.inj hsplit
          exact absurd (List.forall_mem_cons.mp hb).1 ho.not_legible

theorem ofJson_of_lists (h : Lists document entries) : ofJson document = ofEntries entries := by
  obtain ⟨ms, rfl, he⟩ := h
  simp only [ofJson, he]

theorem ofJson_of_not_lists (h : ∀ entries, ¬Lists document entries) :
    ofJson document = .error .noKeyList := by
  unfold ofJson
  split
  next ms =>
    split
    next entries he => exact absurd ⟨ms, rfl, he⟩ (h entries)
    next => rfl
  next => rfl

theorem ofJson_eq_ok_iff_describes :
    ofJson document = .ok keys ↔
      ∃ entries, Lists document entries ∧ List.Forall₂ Describes entries keys := by
  by_cases hl : ∃ entries, Lists document entries
  · obtain ⟨entries, hl⟩ := hl
    rw [ofJson_of_lists hl, ofEntries_eq_ok_iff_describes]
    constructor
    · exact fun h => ⟨entries, hl, h⟩
    · rintro ⟨entries', hl', h⟩
      exact hl.unique hl' ▸ h
  · rw [ofJson_of_not_lists (not_exists.mp hl)]
    refine iff_of_false (by simp) ?_
    rintro ⟨entries, hentries, _⟩
    exact hl ⟨entries, hentries⟩

theorem ofJson_eq_error_iff :
    ofJson document = .error e ↔
      (e = .noKeyList ∧ ∀ entries, ¬Lists document entries) ∨
        ∃ before v after, Lists document (before ++ v :: after) ∧ (∀ w ∈ before, Legible w) ∧
          Offends v e := by
  by_cases hl : ∃ entries, Lists document entries
  · obtain ⟨entries, hl⟩ := hl
    rw [ofJson_of_lists hl, ofEntries_eq_error_iff]
    constructor
    · rintro ⟨before, v, after, rfl, h⟩
      exact .inr ⟨before, v, after, hl, h⟩
    · rintro (⟨_, hno⟩ | ⟨before, v, after, hl', h⟩)
      · exact absurd hl (hno entries)
      · exact ⟨before, v, after, hl.unique hl', h⟩
  · have hno := not_exists.mp hl
    rw [ofJson_of_not_lists hno]
    constructor
    · intro h
      exact .inl ⟨(Except.error.inj h).symm, hno⟩
    · rintro (⟨rfl, _⟩ | ⟨before, v, after, hl', _⟩)
      · rfl
      · exact absurd hl' (hno _)

/-- Entries and keys have the same places. -/
theorem getElem?_of_describes (h : List.Forall₂ Describes entries keys) {i : Nat} {v : Json}
    (hv : entries[i]? = some v) : ∃ key, keys[i]? = some key ∧ Describes v key := by
  induction h generalizing i with
  | nil => simp at hv
  | @cons w key _ _ hd _ ih =>
    cases i with
    | zero =>
      obtain rfl : w = v := by simpa using hv
      exact ⟨key, rfl, hd⟩
    | succ i => simpa using ih (by simpa using hv)

theorem find?_eq_some_iff_names (h : List.Forall₂ Describes entries keys) {kid : Text}
    {key : PublishedKey} :
    keys.find? kid = some key ↔
      ∃ before v after, entries = before ++ v :: after ∧ (∀ w ∈ before, ¬Names w kid) ∧
        Names v kid ∧ Describes v key := by
  rw [find?_eq_some_iff_of_ofEntries (ofEntries_eq_ok_iff_describes.mpr h)]
  simp only [ne_eq, kidOf?_eq_some_iff, PublishedKey.ofJson_eq_ok_iff_describes]

theorem find?_eq_none_iff_names (h : List.Forall₂ Describes entries keys) {kid : Text} :
    keys.find? kid = none ↔ ∀ v ∈ entries, ¬Names v kid := by
  induction h with
  | nil => simp [find?]
  | @cons v key _ _ hd _ ih =>
    have hkid := PublishedKey.kid_of_ofJson (PublishedKey.ofJson_eq_ok_iff_describes.mpr hd)
    rw [List.forall_mem_cons, ← ih, ← kidOf?_eq_some_iff, ← hkid]
    by_cases hm : key.kid = some kid <;> simp [find?, hm]

theorem findKey_eq_keyNotPublished_iff {kid : Text} :
    Gate.findKey kid keys = .error (.rejected .keyNotPublished) ↔ keys.find? kid = none := by
  unfold Gate.findKey
  cases keys.find? kid <;> simp

/-- A document is read as the keys of its entries, or refused for the first that offends. -/
theorem key_sets_read_exactly (document : Json) :
    ((∃ keys, ofJson document = .ok keys) ↔
      ∃ entries, Lists document entries ∧ ∀ v ∈ entries, Legible v) ∧
    (∀ e, ofJson document = .error e ↔
      (e = .noKeyList ∧ ∀ entries, ¬Lists document entries) ∨
        ∃ before v after, Lists document (before ++ v :: after) ∧ (∀ w ∈ before, Legible w) ∧
          Offends v e) ∧
    ∀ entries keys, Lists document entries → ofJson document = .ok keys →
      List.Forall₂ Describes entries keys ∧
      (∀ (i : Nat) ms, entries[i]? = some (.obj ms) → ∃ key, keys[i]? = some key ∧
        ((∃ n e, key.parameters = .rsa n e) ↔ IsRsa ms)) ∧
      (∀ document' entries' keys', Lists document' entries' → ofJson document' = .ok keys' →
        ∀ (i j : Nat) v w, entries[i]? = some v → entries'[j]? = some w → Alike v w →
          keys[i]? = keys'[j]?) ∧
      ∀ kid,
        (∀ key, Gate.findKey kid keys = .ok key ↔
          ∃ before v after, entries = before ++ v :: after ∧ (∀ w ∈ before, ¬Names w kid) ∧
            Names v kid ∧ Describes v key) ∧
        (Gate.findKey kid keys = .error (.rejected .keyNotPublished) ↔
          ∀ v ∈ entries, ¬Names v kid) := by
  have hread : ∀ {document entries keys}, Lists document entries → ofJson document = .ok keys →
      List.Forall₂ Describes entries keys := by
    intro document entries keys hl hk
    exact ofEntries_eq_ok_iff_describes.mp ((ofJson_of_lists hl).symm.trans hk)
  refine ⟨?_, fun e => ofJson_eq_error_iff, fun entries keys hl hk => ?_⟩
  · simp only [ofJson_eq_ok_iff_describes, ← exists_forall₂_describes_iff]
    exact ⟨fun ⟨keys, entries, hl, h⟩ => ⟨entries, hl, keys, h⟩,
      fun ⟨entries, hl, keys, h⟩ => ⟨keys, entries, hl, h⟩⟩
  · have hd := hread hl hk
    refine ⟨hd, fun i ms hi => ?_, fun document' entries' keys' hl' hk' i j v w hi hj halike => ?_,
      fun kid => ⟨fun key => ?_, ?_⟩⟩
    · obtain ⟨key, hkey, hdesc⟩ := getElem?_of_describes hd hi
      exact ⟨key, hkey, hdesc.exists_rsa_iff⟩
    · obtain ⟨key, hkey, hv⟩ := getElem?_of_describes hd hi
      obtain ⟨key', hkey', hw⟩ := getElem?_of_describes (hread hl' hk') hj
      rw [hkey, hkey', (halike.describes hv).unique hw]
    · exact Gate.findKey_eq_ok_iff.trans (find?_eq_some_iff_names hd)
    · exact findKey_eq_keyNotPublished_iff.trans (find?_eq_none_iff_names hd)

end

namespace Sample

def member (name value : String) : Text × Json := (Text.ofString name, .str (Text.ofString value))

/-- A key on a curve, an RSA key of the same name, and a key with a number for a name. -/
def entries : List Json :=
  [.obj [member "kid" "a", member "kty" "EC", member "crv" "P-256"],
    .obj [member "kid" "a", member "kty" "RSA", member "n" "x", member "e" "y"],
    .obj [(Text.ofString "kid", .num (.whole 7))]]

def document : Json := .obj [(Text.ofString "keys", .arr entries)]

/-- The key on the curve again, behind another one and with more said of it. -/
def rotated : List Json :=
  [.obj [], .obj [member "crv" "P-256", member "use" "sig", member "kty" "EC", member "kid" "a"]]

def rotatedDocument : Json := .obj [(Text.ofString "keys", .arr rotated)]

def curveKey : PublishedKey :=
  ⟨some (Text.ofString "a"), .other (Text.ofString "EC") (some (Text.ofString "P-256"))⟩

def keys : KeySet :=
  [curveKey, ⟨some (Text.ofString "a"), .rsa (Text.ofString "x") (Text.ofString "y")⟩,
    ⟨none, .other (Text.ofString "unknown") none⟩]

def rotatedKeys : KeySet := [⟨none, .other (Text.ofString "unknown") none⟩, curveKey]

theorem read : ofJson document = .ok keys := by decide

theorem read_rotated : ofJson rotatedDocument = .ok rotatedKeys := by decide

end Sample

/-- Of two keys of one name the first is found although it is of no use. -/
theorem sample_key_sets_read_exactly :
    Gate.findKey (Text.ofString "a") Sample.keys = .ok Sample.curveKey ∧
    Gate.findKey (Text.ofString "7") Sample.keys = .error (.rejected .keyNotPublished) ∧
    Sample.keys[0]? = Sample.rotatedKeys[1]? := by
  obtain ⟨_, _, hread⟩ := key_sets_read_exactly Sample.document
  obtain ⟨_, _, hsame, hfind⟩ := hread Sample.entries Sample.keys ⟨_, rfl, rfl⟩ Sample.read
  refine ⟨((hfind _).1 _).mpr ⟨[], _, _, rfl, by simp, ⟨_, rfl, by decide⟩, ?_⟩,
    (hfind _).2.mpr ?_, ?_⟩
  · exact PublishedKey.ofJson_eq_ok_iff_describes.mp (by decide)
  · simp only [← kidOf?_eq_some_iff]
    decide
  · exact hsame Sample.rotatedDocument Sample.rotated Sample.rotatedKeys ⟨_, rfl, rfl⟩
      Sample.read_rotated 0 1 _ _ rfl rfl ⟨_, _, rfl, rfl, by decide⟩

end KeySet

end BearerGate
