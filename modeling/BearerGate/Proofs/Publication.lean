import BearerGate.KeyServer

namespace BearerGate

def PublishedKey.kidOf? : Json → Option Text
  | .obj ms => text? "kid" ms
  | _ => none

theorem PublishedKey.kid_of_ofJson {v : Json} {key : PublishedKey} (h : ofJson v = .ok key) :
    key.kid = kidOf? v := by
  cases v with
  | obj ms =>
    simp only [ofJson] at h
    cases hp : parametersOf ms with
    | error e => simp [hp, Except.map] at h
    | ok p =>
      obtain rfl := by simpa [hp, Except.map] using h
      rfl
  | _ => simp [ofJson] at h

namespace KeySet

/-- The first entry with the identifier `kid` in the list of the document reads as `key`. -/
def Publishes (document : Json) (kid : Text) (key : PublishedKey) : Prop :=
  ∃ members before entry after, document = .obj members ∧
    Table.get? (Text.ofString "keys") members = some (.arr (before ++ entry :: after)) ∧
    (∀ v ∈ before, PublishedKey.kidOf? v ≠ some kid) ∧ PublishedKey.kidOf? entry = some kid ∧
    PublishedKey.ofJson entry = .ok key

theorem ofEntries_cons_eq_ok_iff {v : Json} {vs : List Json} {keys : KeySet} :
    ofEntries (v :: vs) = .ok keys ↔
      ∃ k ks, PublishedKey.ofJson v = .ok k ∧ ofEntries vs = .ok ks ∧ keys = k :: ks := by
  cases hv : PublishedKey.ofJson v with
  | error e => simp [ofEntries, hv]
  | ok k =>
    cases hvs : ofEntries vs with
    | error e => simp [ofEntries, hv, hvs, Except.map]
    | ok ks => simp [ofEntries, hv, hvs, Except.map, eq_comm]

theorem find?_eq_some_iff_of_ofEntries {entries : List Json} {keys : KeySet}
    (h : ofEntries entries = .ok keys) {kid : Text} {key : PublishedKey} :
    keys.find? kid = some key ↔
      ∃ before entry after, entries = before ++ entry :: after ∧
        (∀ v ∈ before, PublishedKey.kidOf? v ≠ some kid) ∧
        PublishedKey.kidOf? entry = some kid ∧ PublishedKey.ofJson entry = .ok key := by
  induction entries generalizing keys with
  | nil =>
    cases h
    simp [find?]
  | cons v vs ih =>
    obtain ⟨k, ks, hk, hks, rfl⟩ := ofEntries_cons_eq_ok_iff.mp h
    have hkid := PublishedKey.kid_of_ofJson hk
    by_cases hm : k.kid = some kid
    · have hfind : find? kid (k :: ks) = some k := by simp [find?, hm]
      constructor
      · intro hf
        cases Option.some.inj (hfind.symm.trans hf)
        exact ⟨[], v, vs, rfl, by simp, hkid ▸ hm, hk⟩
      · rintro ⟨before, entry, after, he, hb, _, hj⟩
        cases before with
        | nil =>
          obtain ⟨rfl, rfl⟩ := List.cons.inj he
          rw [hfind, Except.ok.inj (hk.symm.trans hj)]
        | cons w ws =>
          obtain ⟨rfl, _⟩ := List.cons.inj he
          exact absurd (hkid ▸ hm) (hb v List.mem_cons_self)
    · have hfind : find? kid (k :: ks) = find? kid ks := by simp [find?, hm]
      rw [hfind, ih hks]
      constructor
      · rintro ⟨before, entry, after, rfl, hb, he, hj⟩
        refine ⟨v :: before, entry, after, rfl, ?_, he, hj⟩
        intro w hw
        rcases List.mem_cons.mp hw with rfl | hw
        · exact hkid ▸ hm
        · exact hb w hw
      · rintro ⟨before, entry, after, he, hb, hent, hj⟩
        cases before with
        | nil =>
          obtain ⟨rfl, rfl⟩ := List.cons.inj he
          exact absurd (hkid.trans hent) hm
        | cons w ws =>
          obtain ⟨rfl, rfl⟩ := List.cons.inj he
          exact ⟨ws, entry, after, rfl, fun u hu => hb u (List.mem_cons_of_mem _ hu), hent, hj⟩

theorem ofJson_eq_ok_iff {document : Json} {keys : KeySet} :
    ofJson document = .ok keys ↔
      ∃ members entries, document = .obj members ∧
        Table.get? (Text.ofString "keys") members = some (.arr entries) ∧
        ofEntries entries = .ok keys := by
  constructor
  · intro h
    unfold ofJson at h
    split at h
    next members =>
      split at h
      next entries he => exact ⟨members, entries, rfl, he, h⟩
      next => simp at h
    next => simp at h
  · rintro ⟨members, entries, rfl, he, h⟩
    simp only [ofJson, he, h]

/-- A key is found in the set exactly if the document has it first under its identifier. -/
theorem find?_eq_some_iff_publishes {document : Json} {keys : KeySet}
    (h : ofJson document = .ok keys) {kid : Text} {key : PublishedKey} :
    keys.find? kid = some key ↔ Publishes document kid key := by
  obtain ⟨members, entries, rfl, he, h⟩ := ofJson_eq_ok_iff.mp h
  rw [find?_eq_some_iff_of_ofEntries h]
  constructor
  · rintro ⟨before, entry, after, rfl, hb, hent, hj⟩
    exact ⟨members, before, entry, after, rfl, he, hb, hent, hj⟩
  · rintro ⟨members', before, entry, after, hm, he', hb, hent, hj⟩
    cases hm
    rw [he] at he'
    cases he'
    exact ⟨before, entry, after, rfl, hb, hent, hj⟩

theorem kid_of_publishes {document : Json} {kid : Text} {key : PublishedKey}
    (h : Publishes document kid key) : key.kid = some kid := by
  obtain ⟨_, _, entry, _, _, _, _, hkid, hj⟩ := h
  rw [PublishedKey.kid_of_ofJson hj, hkid]

end KeySet

end BearerGate
