import BearerGate.Proofs.Token.Acceptance
import Mathlib.Data.List.Lex
import Mathlib.Data.List.Sort

namespace BearerGate

theorem Text.lt_iff {a b : Text} : Text.lt a b = true ↔ a < b := by
  induction a generalizing b with
  | nil => cases b <;> simp [Text.lt]
  | cons x xs ih =>
    cases b with
    | nil => simp [Text.lt]
    | cons y ys =>
      have hval : x.val = y.val ↔ x = y := Fin.ext_iff.symm
      simp only [Text.lt, Bool.or_eq_true, Bool.and_eq_true, decide_eq_true_eq, beq_iff_eq, ih,
        List.cons_lt_cons_iff, hval, Fin.lt_def]

namespace TextSet

variable {t u : Text} {s : TextSet} {ts us : List Text}

theorem mem_insert_iff : u ∈ insert t s ↔ u = t ∨ u ∈ s := by
  induction s with
  | nil => simp [insert]
  | cons v s ih =>
    simp only [insert]
    split
    next htv =>
      subst v
      simp
    next =>
      split
      next => exact List.mem_cons
      next => simp only [List.mem_cons, ih, or_left_comm]

theorem pairwise_insert (h : s.Pairwise (· < ·)) : (insert t s).Pairwise (· < ·) := by
  induction s with
  | nil => simp [insert]
  | cons v s ih =>
    obtain ⟨hv, hs⟩ := List.pairwise_cons.mp h
    simp only [insert]
    split
    next => exact h
    next hne =>
      split
      next hlt =>
        have htv : t < v := Text.lt_iff.mp hlt
        apply List.pairwise_cons.mpr
        refine ⟨?_, h⟩
        intro u hu
        rcases List.mem_cons.mp hu with rfl | hu
        · exact htv
        · exact htv.trans (hv u hu)
      next hlt =>
        have hvt : v < t := lt_of_le_of_ne (not_lt.mp (mt Text.lt_iff.mpr hlt)) (Ne.symm hne)
        apply List.pairwise_cons.mpr
        refine ⟨?_, ih hs⟩
        intro u hu
        rcases mem_insert_iff.mp hu with rfl | hu
        · exact hvt
        · exact hv u hu

theorem mem_ofList_iff : u ∈ ofList ts ↔ u ∈ ts := by
  have hfold : ∀ s : TextSet, u ∈ ts.foldl (fun s t => insert t s) s ↔ u ∈ s ∨ u ∈ ts := by
    induction ts with
    | nil => simp
    | cons t ts ih =>
      intro s
      rw [List.foldl_cons, ih, mem_insert_iff, List.mem_cons]
      exact or_assoc.trans or_left_comm
  simpa [ofList] using hfold []

theorem pairwise_ofList (ts : List Text) : (ofList ts).Pairwise (· < ·) := by
  have hfold : ∀ s : TextSet, s.Pairwise (· < ·) →
      (ts.foldl (fun s t => insert t s) s).Pairwise (· < ·) := by
    induction ts with
    | nil => exact fun _ hs => hs
    | cons t ts ih => exact fun s hs => ih _ (pairwise_insert hs)
  exact hfold [] List.Pairwise.nil

/-- Order and repetition in a list leave no trace in its set. -/
theorem ofList_eq_iff : ofList ts = ofList us ↔ ∀ t, t ∈ ts ↔ t ∈ us := by
  constructor
  · intro h t
    rw [← mem_ofList_iff, h, mem_ofList_iff]
  · intro h
    apply (pairwise_ofList ts).eq_of_mem_iff (pairwise_ofList us)
    intro t
    rw [mem_ofList_iff, mem_ofList_iff, h]

end TextSet

namespace Claims

variable {p p' : Payload} {items items' : List Json}

theorem mem_texts_iff {t : Text} : t ∈ items.filterMap Json.str? ↔ .str t ∈ items := by
  simp only [List.mem_filterMap, Json.str?_eq_some_iff, exists_eq_right]

theorem permissionsOf_of_list (h : p.claim? "permissions" = some (.arr items)) :
    permissionsOf p = some (TextSet.ofList (items.filterMap Json.str?)) := by
  simp only [permissionsOf, h]

theorem permissionsOf_eq_none_iff :
    permissionsOf p = none ↔ ¬∃ items, p.claim? "permissions" = some (.arr items) := by
  unfold permissionsOf
  split
  next items h => simp [h]
  next hno =>
    refine iff_of_true rfl ?_
    rintro ⟨items, h⟩
    exact hno items h

theorem ofPayload_eq_ok_iff {c : Claims} :
    ofPayload p = .ok c ↔
      p.claim? "sub" = some (.str c.subject) ∧ c.permissions = permissionsOf p := by
  obtain ⟨subject, permissions⟩ := c
  unfold ofPayload
  split
  next h => simp [h]
  next t h => simp [h, eq_comm]
  next v hno h =>
    refine iff_of_false (by simp) ?_
    rintro ⟨hsub, _⟩
    exact hno subject (Option.some.inj (h.symm.trans hsub))

/-- Verified payloads have claims: their subject, and exactly the texts among the permissions
listed. -/
theorem verified_payload_projects {token : Text} {key : PublishedKey} {issuer : Issuer} {now : Int}
    (h : Verification.verify token key issuer now = .ok p) :
    ∃ c, ofPayload p = .ok c ∧
      p.claim? "sub" = some (.str c.subject) ∧
      (c.permissions = none ↔ ¬∃ items, p.claim? "permissions" = some (.arr items)) ∧
      ∀ items, p.claim? "permissions" = some (.arr items) →
        (∃ granted, c.permissions = some granted ∧ ∀ t, t ∈ granted ↔ .str t ∈ items) ∧
        ∀ p' items', p'.claim? "sub" = p.claim? "sub" →
          p'.claim? "permissions" = some (.arr items') →
          (∀ t, .str t ∈ items' ↔ .str t ∈ items) → ofPayload p' = .ok c := by
  obtain ⟨_, _, _, _, _, _, hacceptable⟩ := Verification.verify_eq_ok_iff.mp h
  obtain ⟨c, hc⟩ := exists_ofPayload hacceptable
  obtain ⟨hsub, hperm⟩ := ofPayload_eq_ok_iff.mp hc
  refine ⟨c, hc, hsub, hperm ▸ permissionsOf_eq_none_iff, ?_⟩
  intro items hitems
  have hgranted := hperm.trans (permissionsOf_of_list hitems)
  refine ⟨⟨_, hgranted, fun t => TextSet.mem_ofList_iff.trans mem_texts_iff⟩, ?_⟩
  intro p' items' hsub' hitems' hsame
  have hset : TextSet.ofList (items'.filterMap Json.str?) =
      TextSet.ofList (items.filterMap Json.str?) := by
    apply TextSet.ofList_eq_iff.mpr
    intro t
    rw [mem_texts_iff, mem_texts_iff, hsame]
  apply ofPayload_eq_ok_iff.mpr
  exact ⟨hsub'.trans hsub, by rw [hgranted, permissionsOf_of_list hitems', hset]⟩

namespace Sample

def key : PublishedKey := ⟨some (Text.ofString "k"), .rsa
  (Text.ofString
    "pBvrGJIV9SD3ZMluIvPs1FSQ-yCo9PzR5F24j3Ind5pznsNgswrGFBVizP_8sLJ56qm5Pz7NuQa6uZ1t0jk")
  (Text.ofString "Aw")⟩

def token : Text := Text.ofString ("eyJhbGciOiJSUzI1NiIsImtpZCI6ImsifQ." ++
  "eyJhdWQiOiJhIiwiZXhwIjo5LCJpc3MiOiJodHRwczovL2gvIiwicGVybWlzc2lvbnMiOlsiYiIsMSwiYSIsImIiXSwi" ++
  "c3ViIjoicyJ9." ++
  "AAAAAAAAAAAAAAAAAAAAAAAAAAAAAAAAAAAAAAAAAAAAAAAAAAAAAAAiw5xvNYYn6BGJL5Ar0j8IJBKLLzM")

def listed : List Json :=
  [.str (Text.ofString "b"), .num (.whole 1), .str (Text.ofString "a"), .str (Text.ofString "b")]

def payload : Payload :=
  [("aud", .str (Text.ofString "a")), ("exp", .num (.whole 9)),
    ("iss", .str (Text.ofString "https://h/")), ("permissions", .arr listed),
    ("sub", .str (Text.ofString "s"))].map fun (name, value) => (Text.ofString name, value)

theorem verified : Verification.verify token key .sample 0 = .ok payload := by decide +kernel

end Sample

/-- A permission listed twice and a number among the permissions change nothing. -/
theorem sample_payload_projects :
    ∃ c, ofPayload Sample.payload = .ok c ∧
      (∃ granted, c.permissions = some granted ∧ ∀ t, t ∈ granted ↔ .str t ∈ Sample.listed) ∧
      ofPayload [(Text.ofString "permissions",
          .arr [.str (Text.ofString "a"), .str (Text.ofString "b")]),
        (Text.ofString "sub", .str (Text.ofString "s"))] = .ok c := by
  obtain ⟨c, hc, _, _, hlisted⟩ := verified_payload_projects Sample.verified
  obtain ⟨hgranted, hsame⟩ := hlisted Sample.listed rfl
  refine ⟨c, hc, hgranted, hsame _ _ rfl rfl ?_⟩
  intro t
  simp only [Sample.listed, List.mem_cons, List.not_mem_nil, Json.str.injEq, reduceCtorEq, or_false,
    false_or]
  rw [or_left_comm, or_self]

end Claims

end BearerGate
