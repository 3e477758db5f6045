import BearerGate.Proofs.Json.Documents
import BearerGate.Proofs.Settings.Domain

namespace BearerGate

namespace Origins

variable {s t : Text} {allowed pieces : List Text} {v w : Json}

/-- What an origin has to be to stand between commas. -/
structure IsPlain (t : Text) : Prop where
  nonempty : t ≠ []
  commaless : (',' : CodePoint) ∉ t
  trimmed : Text.Trimmed CodePoint.isBlank t

/-- The pieces of a text with commas: items between blanks, and blank pieces. -/
inductive Padded : List Text → List Text → Prop
  | nil : Padded [] []
  | blank {b : Text} {pieces ts : List Text} (hb : ∀ c ∈ b, c.isBlank = true)
    (h : Padded pieces ts) : Padded (b :: pieces) ts
  | item {left t right : Text} {pieces ts : List Text} (hleft : ∀ c ∈ left, c.isBlank = true)
    (hright : ∀ c ∈ right, c.isBlank = true) (h : Padded pieces ts) :
    Padded ((left ++ t ++ right) :: pieces) (t :: ts)

/-- A text with commas parts plain origins only, and does not begin with a bracket. -/
inductive Form (allowed : List Text) : Json → Prop
  | list : Form allowed (.arr (allowed.map .str))
  | document {left document right : Text} (h : Json.ListOf document allowed)
    (hleft : ∀ c ∈ left, c.isBlank = true) (hright : ∀ c ∈ right, c.isBlank = true) :
    Form allowed (.str (left ++ document ++ right))
  | commas {pieces : List Text} (hplain : ∀ t ∈ allowed, IsPlain t)
    (hfirst : ∀ t, allowed.head? = some t → t.head? ≠ some ('[' : CodePoint))
    (h : Padded pieces allowed) : Form allowed (.str ((Text.ofString ",").intercalate pieces))

theorem items_text (i : Nat) (ts : List Text) :
    Field.items Field.text i (ts.map .str) = .ok ts := by
  induction ts generalizing i with
  | nil => rfl
  | cons t ts ih =>
    apply Checked.map_eq_ok_iff.mpr
    refine ⟨(t, ts), Checked.both_eq_ok_iff.mpr ⟨?_, ih (i + 1)⟩, rfl⟩
    exact Field.inside_eq_ok_iff.mpr rfl

theorem textList_map_str (ts : List Text) : Field.textList (.arr (ts.map .str)) = .ok ts :=
  items_text 0 ts

theorem strip_document {left document right : Text} (h : Json.ListOf document allowed)
    (hleft : ∀ c ∈ left, c.isBlank = true) (hright : ∀ c ∈ right, c.isBlank = true) :
    Text.strip (left ++ document ++ right) = document := by
  have htrimmed : Text.Trimmed CodePoint.isBlank document := by
    constructor
    · intro c hc
      cases h.head?.symm.trans hc
      decide
    · intro c hc
      cases h.getLast?.symm.trans hc
      decide
  exact Text.trim_eq_iff.mpr ⟨htrimmed, left, right, rfl, hleft, hright⟩

theorem ofText_document {left document right : Text} (h : Json.ListOf document allowed)
    (hleft : ∀ c ∈ left, c.isBlank = true) (hright : ∀ c ∈ right, c.isBlank = true) :
    ofText (left ++ document ++ right) = .ok (.ok allowed) := by
  simp only [ofText, strip_document h hleft hright, if_pos h.head?, h.read, textList_map_str]

theorem comma_not_mem_of_blank {b : Text} (hb : ∀ c ∈ b, c.isBlank = true) :
    (',' : CodePoint) ∉ b := by
  intro hmem
  exact absurd (hb _ hmem) (by decide)

theorem ofCommas_append_left {left : Text} (hleft : ∀ c ∈ left, c.isBlank = true) (t : Text) :
    ofCommas (left ++ t) = ofCommas t := by
  obtain ⟨p, ps, hparts⟩ := List.exists_cons_of_ne_nil (List.splitOn_ne_nil (',' : CodePoint) t)
  have happend := Text.splitOn_append_left (comma_not_mem_of_blank hleft) hparts
  have hstrip : Text.strip (left ++ p) = Text.strip p := by
    have htrim := @Text.trim_surround _ _ p [] left hleft (by simp)
    rwa [List.append_nil] at htrim
  rw [ofCommas, ofCommas, happend, hparts, List.map_cons, List.map_cons, hstrip]

theorem ofCommas_append_right {right : Text} (hright : ∀ c ∈ right, c.isBlank = true) (t : Text) :
    ofCommas (t ++ right) = ofCommas t := by
  obtain ⟨ps, p, hparts, happend⟩ := Text.splitOn_append_right (comma_not_mem_of_blank hright) t
  have hstrip : Text.strip (p ++ right) = Text.strip p :=
    @Text.trim_surround _ _ p right [] (by simp) hright
  rw [ofCommas, ofCommas, happend, hparts, List.map_append, List.map_append, List.map_singleton,
    List.map_singleton, hstrip]

/-- Blanks around the whole are blanks around its first and its last piece. -/
theorem ofCommas_strip (t : Text) : ofCommas (Text.strip t) = ofCommas t := by
  obtain ⟨left, right, he, hleft, hright⟩ := Text.trim_append CodePoint.isBlank t
  calc ofCommas (Text.strip t) = ofCommas (left ++ Text.strip t) :=
        (ofCommas_append_left hleft _).symm
    _ = ofCommas (left ++ Text.strip t ++ right) := (ofCommas_append_right hright _).symm
    _ = ofCommas t := congrArg ofCommas he.symm

theorem Padded.commaless (h : Padded pieces allowed) (hplain : ∀ t ∈ allowed, IsPlain t) :
    ∀ p ∈ pieces, (',' : CodePoint) ∉ p := by
  induction h with
  | nil => simp
  | blank hb _ ih => exact List.forall_mem_cons.mpr ⟨comma_not_mem_of_blank hb, ih hplain⟩
  | @item left t right pieces ts hleft hright _ ih =>
    obtain ⟨ht, hts⟩ := List.forall_mem_cons.mp hplain
    refine List.forall_mem_cons.mpr ⟨?_, ih hts⟩
    rw [List.mem_append, List.mem_append]
    rintro ((hmem | hmem) | hmem)
    · exact comma_not_mem_of_blank hleft hmem
    · exact ht.commaless hmem
    · exact comma_not_mem_of_blank hright hmem

theorem strip_blank {b : Text} (hb : ∀ c ∈ b, c.isBlank = true) : Text.strip b = [] :=
  Text.trim_eq_iff.mpr ⟨⟨by simp, by simp⟩, b, [], by simp, hb, by simp⟩

theorem IsPlain.strip_eq {left right : Text} (h : IsPlain t) (hleft : ∀ c ∈ left, c.isBlank = true)
    (hright : ∀ c ∈ right, c.isBlank = true) : Text.strip (left ++ t ++ right) = t :=
  Text.trim_eq_iff.mpr ⟨h.trimmed, left, right, rfl, hleft, hright⟩

theorem Padded.filter_strip (h : Padded pieces allowed) (hplain : ∀ t ∈ allowed, IsPlain t) :
    (pieces.map Text.strip).filter (· ≠ []) = allowed := by
  induction h with
  | nil => rfl
  | blank hb _ ih =>
    rw [List.map_cons, strip_blank hb, List.filter_cons_of_neg (by simp)]
    exact ih hplain
  | item hleft hright _ ih =>
    obtain ⟨ht, hts⟩ := List.forall_mem_cons.mp hplain
    rw [List.map_cons, ht.strip_eq hleft hright,
      List.filter_cons_of_pos (by simpa using ht.nonempty), ih hts]

theorem ofCommas_intercalate (h : Padded pieces allowed) (hplain : ∀ t ∈ allowed, IsPlain t) :
    ofCommas ((Text.ofString ",").intercalate pieces) = allowed := by
  have hcomma : Text.ofString "," = [(',' : CodePoint)] := rfl
  by_cases hpieces : pieces = []
  · subst hpieces
    cases h
    rfl
  · have hsplit := List.splitOn_intercalate (',' : CodePoint) (h.commaless hplain) hpieces
    rw [ofCommas, hcomma, hsplit, h.filter_strip hplain]

theorem prefix_intercalate (sep t : Text) (ts : List Text) : t <+: sep.intercalate (t :: ts) := by
  by_cases hts : ts = []
  · rw [hts]
    exact ⟨[], by rw [List.append_nil, List.intercalate_singleton]⟩
  · rw [List.intercalate_cons_of_ne_nil hts, List.append_assoc]
    exact List.prefix_append _ _

/-- What comes first behind blanks is a comma or the beginning of the first item. -/
theorem head?_strip_intercalate (h : Padded pieces allowed) (hplain : ∀ t ∈ allowed, IsPlain t)
    (hfirst : ∀ t, allowed.head? = some t → t.head? ≠ some ('[' : CodePoint)) :
    (Text.strip ((Text.ofString ",").intercalate pieces)).head? ≠ some ('[' : CodePoint) := by
  intro hbracket
  have hhead : (((Text.ofString ",").intercalate pieces).dropWhile CodePoint.isBlank).head? =
      some ('[' : CodePoint) := Text.head?_trimEnd hbracket
  cases h with
  | nil => cases hhead
  | @blank b pieces _ hb _ =>
    by_cases hpieces : pieces = []
    · rw [hpieces, List.intercalate_singleton, List.dropWhile_eq_nil_iff.mpr hb] at hhead
      cases hhead
    · have hcomma : ('[' : CodePoint) ≠ ',' := by decide
      rw [List.intercalate_cons_of_ne_nil hpieces, List.append_assoc,
        List.dropWhile_append_of_pos hb] at hhead
      exact hcomma (Option.some.inj hhead).symm
  | @item left t right pieces ts hleft hright h =>
    have ht : IsPlain t := hplain t List.mem_cons_self
    cases t with
    | nil => exact ht.nonempty rfl
    | cons c t =>
      have hc : c.isBlank = false := ht.trimmed.head c rfl
      obtain ⟨rest, hrest⟩ :=
        prefix_intercalate (Text.ofString ",") (left ++ c :: t ++ right) pieces
      rw [← hrest, List.append_assoc, List.append_assoc, List.dropWhile_append_of_pos hleft,
        List.cons_append, List.dropWhile_cons_of_neg (by simp [hc])] at hhead
      exact hfirst _ rfl hhead

theorem ofText_commas (h : Padded pieces allowed) (hplain : ∀ t ∈ allowed, IsPlain t)
    (hfirst : ∀ t, allowed.head? = some t → t.head? ≠ some ('[' : CodePoint)) :
    ofText ((Text.ofString ",").intercalate pieces) = .ok (.ok allowed) := by
  simp only [ofText, if_neg (head?_strip_intercalate h hplain hfirst), ofCommas_strip,
    ofCommas_intercalate h hplain]

theorem Form.ofJson_eq (h : Form allowed v) : ofJson v = .ok (.ok allowed) := by
  cases h with
  | list => exact congrArg Except.ok (textList_map_str allowed)
  | document h hleft hright => exact ofText_document h hleft hright
  | commas hplain hfirst h => exact ofText_commas h hplain hfirst

theorem form_write (allowed : List Text) :
    Form allowed (.str (Json.write (.arr (allowed.map .str)))) := by
  have hdocument := @Form.document allowed [] _ [] (Json.listOf_write allowed) (by simp) (by simp)
  simpa using hdocument

end Origins

namespace Settings

variable {s s' : Sources} {settings : Settings} {allowed : List Text} {v w : Json}

theorem readsOrigins_of_form (hs : s.value? (Text.ofString "ALLOWED_ORIGINS") = some v)
    (hv : Origins.Form allowed v) : ReadsOrigins s allowed :=
  .inr ⟨v, hs, hv.ofJson_eq⟩

theorem allowedOrigins_of_form (hs : s.value? (Text.ofString "ALLOWED_ORIGINS") = some v)
    (hv : Origins.Form allowed v) (hload : load s = .ok settings) :
    settings.allowedOrigins = allowed := by
  rcases (load_eq_ok_iff.mp hload).allowedOrigins with ⟨hnone, _⟩ | ⟨w, hw, hread⟩
  · cases hnone.symm.trans hs
  · cases hs.symm.trans hw
    exact Except.ok.inj (Except.ok.inj (hread.symm.trans hv.ofJson_eq))

theorem load_of_form (hs : s.value? (Text.ofString "ALLOWED_ORIGINS") = some v)
    (hv : Origins.Form allowed v) (hagree : s'.AgreeBeside "ALLOWED_ORIGINS" s)
    (hload : load s' = .ok settings) : load s = .ok { settings with allowedOrigins := allowed } :=
  load_eq_ok_iff.mpr
    ((load_eq_ok_iff.mp hload).replace_origins hagree (readsOrigins_of_form hs hv))

theorem load_of_both_forms (hs : s.value? (Text.ofString "ALLOWED_ORIGINS") = some v)
    (hs' : s'.value? (Text.ofString "ALLOWED_ORIGINS") = some w) (hv : Origins.Form allowed v)
    (hw : Origins.Form allowed w) (hagree : s.AgreeBeside "ALLOWED_ORIGINS" s')
    (hload : load s = .ok settings) : load s' = .ok settings := by
  have hallowed : settings.allowedOrigins = allowed := allowedOrigins_of_form hs hv hload
  have hload' := load_of_form hs' hw hagree hload
  rwa [← hallowed] at hload'

/-- All forms of a list of origins make the same settings, which have exactly this list. -/
theorem forms_agree (hs : s.value? (Text.ofString "ALLOWED_ORIGINS") = some v)
    (hv : Origins.Form allowed v) :
    (∀ settings, load s = .ok settings → settings.allowedOrigins = allowed) ∧
    (∀ s' settings, s'.AgreeBeside "ALLOWED_ORIGINS" s → load s' = .ok settings →
      load s = .ok { settings with allowedOrigins := allowed }) ∧
    ∀ s' w settings, s.AgreeBeside "ALLOWED_ORIGINS" s' →
      s'.value? (Text.ofString "ALLOWED_ORIGINS") = some w → Origins.Form allowed w →
      (load s = .ok settings ↔ load s' = .ok settings) := by
  refine ⟨?_, ?_, ?_⟩
  · intro settings hload
    exact allowedOrigins_of_form hs hv hload
  · intro s' settings hagree hload
    exact load_of_form hs hv hagree hload
  · intro s' w settings hagree hs' hw
    constructor
    · exact load_of_both_forms hs hs' hv hw hagree
    · exact load_of_both_forms hs' hs hw hv hagree.symm

namespace Sample

def origins : List Text := [Text.ofString "a", Text.ofString "b"]

/-- The origins with blanks around them and an empty piece between them. -/
def commas : Text := (Text.ofString ",").intercalate
  [Text.ofString " " ++ Text.ofString "a" ++ Text.ofString " ", [],
    Text.ofString " " ++ Text.ofString "b" ++ Text.ofString " "]

def document : Text := Json.write (.arr (origins.map .str))

def originsPut (t : Text) : Sources :=
  { sources "h" with
    environment := (Text.ofString "ALLOWED_ORIGINS", t) :: (sources "h").environment }

def originsGiven : Sources :=
  { sources "h" with given := [(Text.ofString "ALLOWED_ORIGINS", .arr (origins.map .str))] }

def withOrigins : Settings := { Sample.settings "h" with allowedOrigins := origins }

theorem commas_form : Origins.Form origins (.str commas) := by
  have hblank : ∀ c ∈ Text.ofString " ", c.isBlank = true := List.all_eq_true.mp (by decide)
  have hitems : ∀ t ∈ origins, t ≠ [] ∧ (',' : CodePoint) ∉ t ∧ Text.strip t = t := by decide
  have hplain : ∀ t ∈ origins, Origins.IsPlain t := by
    intro t ht
    obtain ⟨hne, hcomma, hstrip⟩ := hitems t ht
    exact ⟨hne, hcomma, Text.trim_eq_self_iff.mp hstrip⟩
  apply Origins.Form.commas hplain (by decide)
  exact .item hblank hblank (.blank (List.forall_mem_nil _) (.item hblank hblank .nil))

end Sample

/-- Two origins between commas, in a document and in a list. -/
theorem sample_forms_agree :
    load (Sample.originsPut Sample.commas) = .ok Sample.withOrigins ∧
    load (Sample.originsPut Sample.document) = .ok Sample.withOrigins ∧
    load Sample.originsGiven = .ok Sample.withOrigins := by
  have hcommas : (Sample.originsPut Sample.commas).value? (Text.ofString "ALLOWED_ORIGINS") =
      some (.str Sample.commas) := by decide +kernel
  have hagree : ∀ s ∈ [Sample.sources "h", Sample.originsPut Sample.document, Sample.originsGiven],
      s.AgreeBeside "ALLOWED_ORIGINS" (Sample.originsPut Sample.commas) := by
    unfold Sources.AgreeBeside
    decide +kernel
  obtain ⟨-, hothers, hforms⟩ := forms_agree hcommas Sample.commas_form
  have hload : load (Sample.originsPut Sample.commas) = .ok Sample.withOrigins :=
    hothers (Sample.sources "h") (Sample.settings "h") (hagree _ (by simp)) (by decide +kernel)
  have hdocument := hforms _ _ Sample.withOrigins
    (hagree (Sample.originsPut Sample.document) (by simp)).symm (by decide +kernel)
    (Origins.form_write Sample.origins)
  have hlist := hforms _ _ Sample.withOrigins (hagree Sample.originsGiven (by simp)).symm
    (by decide +kernel) .list
  exact ⟨hload, hdocument.mp hload, hlist.mp hload⟩

end Settings

end BearerGate
