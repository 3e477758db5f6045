import BearerGate.Proofs.Settings.Loading
import BearerGate.Proofs.Text.Cuts

namespace BearerGate

namespace Domain

variable {t v d r rest : Text}

structure IsBare (d : Text) : Prop where
  secure : ¬Text.ofString "https://" <+: d
  plain : ¬Text.ofString "http://" <+: d
  slashless : d.getLast? ≠ some ('/' : CodePoint)
  trimmed : Text.Trimmed CodePoint.isBlank d

def isSlash (c : CodePoint) : Bool := c == ('/' : CodePoint)

theorem isSlash_eq_true_iff {c : CodePoint} : isSlash c = true ↔ c = ('/' : CodePoint) := beq_iff_eq

theorem isSlash_eq_false_iff {c : CodePoint} : isSlash c = false ↔ c ≠ ('/' : CodePoint) :=
  beq_eq_false_iff_ne

theorem isSlash_of_isBlank {c : CodePoint} (hc : c.isBlank = true) : isSlash c = false := by
  apply isSlash_eq_false_iff.mpr
  rintro rfl
  exact absurd hc (by decide)

theorem slashless_iff :
    d.getLast? ≠ some ('/' : CodePoint) ↔ ∀ c, d.getLast? = some c → isSlash c = false := by
  constructor
  · intro h c hc
    apply isSlash_eq_false_iff.mpr
    rintro rfl
    exact h hc
  · intro h hslash
    exact isSlash_eq_false_iff.mp (h _ hslash) rfl

def dropSchemes (t : Text) : Text :=
  Text.dropHead (Text.ofString "http://") (Text.dropHead (Text.ofString "https://") t)

theorem bare_eq : bare v = Text.trimEnd isSlash (dropSchemes (Text.strip v)) := rfl

theorem slashless_bare : (bare v).getLast? ≠ some ('/' : CodePoint) :=
  slashless_iff.mpr fun _ hc => Text.last_trimEnd hc

/-- Of what is reduced to itself no stage takes anything off. -/
theorem bare_eq_self_iff : bare d = d ↔ IsBare d := by
  constructor
  · intro h
    have hslash : (bare d).Sublist (dropSchemes (Text.strip d)) := Text.trimEnd_sublist
    have hplain : (dropSchemes (Text.strip d)).Sublist
        (Text.dropHead (Text.ofString "https://") (Text.strip d)) := Text.dropHead_sublist
    have hsecure : (Text.dropHead (Text.ofString "https://") (Text.strip d)).Sublist
        (Text.strip d) := Text.dropHead_sublist
    have hstrip : (Text.strip d).Sublist d := Text.trim_sublist
    rw [h] at hslash
    have hstripped : Text.strip d = d :=
      hstrip.antisymm ((hslash.trans hplain).trans hsecure)
    have hsecured : Text.dropHead (Text.ofString "https://") (Text.strip d) = d :=
      (hsecure.trans hstrip).antisymm (hslash.trans hplain)
    have hplained : dropSchemes (Text.strip d) = d :=
      ((hplain.trans hsecure).trans hstrip).antisymm hslash
    refine ⟨?_, ?_, ?_, Text.trim_eq_self_iff.mp hstripped⟩
    · rw [hstripped] at hsecured
      exact (Text.dropHead_eq_self_iff (by decide)).mp hsecured
    · rw [dropSchemes, hsecured] at hplained
      exact (Text.dropHead_eq_self_iff (by decide)).mp hplained
    · rw [← h]
      exact slashless_bare
  · intro h
    have hstripped : Text.strip d = d := Text.trim_eq_self_iff.mpr h.trimmed
    have hsecured : Text.dropHead (Text.ofString "https://") d = d :=
      (Text.dropHead_eq_self_iff (by decide)).mpr h.secure
    have hplained : Text.dropHead (Text.ofString "http://") d = d :=
      (Text.dropHead_eq_self_iff (by decide)).mpr h.plain
    rw [bare_eq, hstripped, dropSchemes, hsecured, hplained]
    exact Text.trimEnd_eq_self_iff.mpr (slashless_iff.mp h.slashless)

theorem plain_not_prefix : ¬Text.ofString "http://" <+: Text.ofString "https://" ++ t := by
  intro h
  have hshort := List.prefix_of_prefix_length_le h (List.prefix_append _ _) (by decide)
  exact absurd hshort (by decide)

theorem secure_not_prefix : ¬Text.ofString "https://" <+: Text.ofString "http://" ++ t := by
  intro h
  have hshort := List.prefix_of_prefix_length_le (List.prefix_append _ _) h (by decide)
  exact absurd hshort (by decide)

theorem dropSchemes_eq_iff :
    dropSchemes t = r ↔
      t = Text.ofString "https://" ++ (Text.ofString "http://" ++ r) ∨
      t = Text.ofString "http://" ++ r ∨
      (t = Text.ofString "https://" ++ r ∨ t = r ∧ ¬Text.ofString "https://" <+: r) ∧
        ¬Text.ofString "http://" <+: r := by
  simp only [dropSchemes, Text.dropHead_eq_iff, secure_not_prefix, not_false_eq_true, and_true,
    or_assoc]

/-- The schemes that can be taken off, as they stand in front of what is left. -/
def fronts : List Text :=
  [Text.ofString "https://http://", Text.ofString "http://", Text.ofString "https://"]

/-- The runs of schemes of which the last is left. -/
def runs : List Text :=
  [Text.ofString "https://http://https://", Text.ofString "http://https://",
    Text.ofString "https://https://", Text.ofString "https://http://http://",
    Text.ofString "http://http://"]

/-- What shows only when something else is taken off. -/
inductive Hides (v : Text) : Prop
  /-- A scheme too many, and more than slashes behind it. -/
  | scheme {run rest : Text} (h : Text.strip v = run ++ rest) (hrun : run ∈ runs)
    (hrest : ∃ c ∈ rest, c ≠ ('/' : CodePoint))
  | blankInFront {front rest : Text} {c : CodePoint} (h : Text.strip v = front ++ c :: rest)
    (hfront : front ∈ fronts) (hc : c.isBlank = true)
  | blankBehind {rest slashes : Text} {c : CodePoint} (h : Text.strip v = rest ++ c :: slashes)
    (hslashes : ∀ x ∈ slashes, x = ('/' : CodePoint)) (hc : c.isBlank = true)

theorem runs_eq :
    runs = [Text.ofString "https://" ++ (Text.ofString "http://" ++ Text.ofString "https://"),
      Text.ofString "http://" ++ Text.ofString "https://",
      Text.ofString "https://" ++ Text.ofString "https://",
      Text.ofString "https://" ++ (Text.ofString "http://" ++ Text.ofString "http://"),
      Text.ofString "http://" ++ Text.ofString "http://"] := by decide

theorem fronts_eq :
    fronts = [Text.ofString "https://" ++ Text.ofString "http://", Text.ofString "http://",
      Text.ofString "https://"] := by decide

theorem scheme_left_iff :
    (dropSchemes t = Text.ofString "https://" ++ rest ∨
      dropSchemes t = Text.ofString "http://" ++ rest) ↔
      ∃ run ∈ runs, t = run ++ rest := by
  simp only [dropSchemes_eq_iff, plain_not_prefix, secure_not_prefix, List.prefix_append,
    not_true_eq_false, not_false_eq_true, and_true, and_false, or_false, runs_eq, List.mem_cons,
    List.not_mem_nil, exists_eq_or_imp, exists_eq_left, List.append_assoc, or_assoc]

theorem scheme_not_prefix_blank {scheme : Text} {c : CodePoint} (hc : c.isBlank = true)
    (hscheme : scheme.head? = some ('h' : CodePoint)) : ¬scheme <+: c :: rest := by
  rintro ⟨more, he⟩
  have hhead := congrArg List.head? he
  rw [List.head?_append, hscheme] at hhead
  cases Option.some.inj hhead
  exact absurd hc (by decide)

/-- A blank comes first if it stands behind the schemes or came first before. -/
theorem blank_first_iff {c : CodePoint} (hc : c.isBlank = true) :
    dropSchemes t = c :: rest ↔ (∃ front ∈ fronts, t = front ++ c :: rest) ∨ t = c :: rest := by
  have hsecure := @scheme_not_prefix_blank rest (Text.ofString "https://") c hc (by decide)
  have hplain := @scheme_not_prefix_blank rest (Text.ofString "http://") c hc (by decide)
  simp only [dropSchemes_eq_iff, hsecure, hplain, not_false_eq_true, and_true, fronts_eq,
    List.mem_cons, List.not_mem_nil, or_false, exists_eq_or_imp, exists_eq_left, List.append_assoc,
    or_assoc]

theorem dropSchemes_append (t : Text) :
    ∃ front, t = front ++ dropSchemes t ∧ ∀ c ∈ front, c.isBlank = false := by
  have hblank : ∀ front : Text, (front.all fun c => !c.isBlank) = true →
      ∀ c ∈ front, c.isBlank = false := by
    intro front hall c hc
    simpa using List.all_eq_true.mp hall c hc
  rcases dropSchemes_eq_iff.mp (rfl : dropSchemes t = dropSchemes t) with
    h | h | ⟨h | ⟨h, _⟩, _⟩
  · exact ⟨Text.ofString "https://" ++ Text.ofString "http://", by rwa [List.append_assoc],
      hblank _ (by decide)⟩
  · exact ⟨_, h, hblank _ (by decide)⟩
  · exact ⟨_, h, hblank _ (by decide)⟩
  · exact ⟨[], h, hblank _ (by decide)⟩

/-- No scheme has a blank in it. -/
theorem blank_before_iff {slashes : Text} {c : CodePoint} (hc : c.isBlank = true) :
    (∃ rest, dropSchemes t = rest ++ c :: slashes) ↔ ∃ rest, t = rest ++ c :: slashes := by
  obtain ⟨front, hfront, hblank⟩ := dropSchemes_append t
  constructor
  · rintro ⟨rest, hrest⟩
    exact ⟨front ++ rest, by rw [List.append_assoc, ← hrest, ← hfront]⟩
  · rintro ⟨rest, hrest⟩
    rw [hfront] at hrest
    rcases List.append_eq_append_iff.mp hrest with ⟨more, _, hmore⟩ | ⟨more, hmore, hbehind⟩
    · exact ⟨more, hmore⟩
    · cases more with
      | nil => exact ⟨[], hbehind.symm⟩
      | cons x more =>
        obtain ⟨rfl, _⟩ := List.cons.inj hbehind
        have hmem : c ∈ front := by simp [hmore]
        simp [hblank c hmem] at hc

theorem scheme_prefix_bare_iff {scheme : Text}
    (hscheme : scheme.getLast? = some ('/' : CodePoint)) :
    scheme <+: bare v ↔ ∃ rest, dropSchemes (Text.strip v) = scheme ++ rest ∧
      ∃ c ∈ rest, c ≠ ('/' : CodePoint) := by
  rw [bare_eq, Text.prefix_trimEnd_iff hscheme (by decide)]
  simp only [isSlash_eq_false_iff]

theorem head?_bare_iff {c : CodePoint} (hc : c.isBlank = true) :
    (bare v).head? = some c ↔ ∃ rest, dropSchemes (Text.strip v) = c :: rest := by
  rw [bare_eq, Text.head?_trimEnd_iff (isSlash_of_isBlank hc), List.head?_eq_some_iff]

theorem getLast?_bare_iff {c : CodePoint} (hc : c.isBlank = true) :
    (bare v).getLast? = some c ↔ ∃ slashes : Text, (∀ x ∈ slashes, x = ('/' : CodePoint)) ∧
      ∃ rest, dropSchemes (Text.strip v) = rest ++ c :: slashes := by
  rw [bare_eq]
  constructor
  · intro h
    obtain ⟨slashes, he, hslashes⟩ := Text.trimEnd_append isSlash (dropSchemes (Text.strip v))
    obtain ⟨rest, hrest⟩ := List.getLast?_eq_some_iff.mp h
    refine ⟨slashes, fun x hx => isSlash_eq_true_iff.mp (hslashes x hx), rest, ?_⟩
    rw [he, hrest, List.append_assoc]
    rfl
  · rintro ⟨slashes, hslashes, rest, hrest⟩
    have hbare : Text.trimEnd isSlash (dropSchemes (Text.strip v)) = rest ++ [c] := by
      apply Text.trimEnd_eq_iff.mpr
      refine ⟨⟨slashes, by simpa using hrest, fun x hx => isSlash_eq_true_iff.mpr (hslashes x hx)⟩,
        ?_⟩
      intro x hx
      obtain rfl : c = x := by simpa using hx
      exact isSlash_of_isBlank hc
    simp [hbare]

theorem isBare_bare_iff : IsBare (bare v) ↔ ¬Hides v := by
  have hends : ∀ c, (Text.strip v).head? = some c → c.isBlank = false :=
    (Text.trimmed_trim : Text.Trimmed CodePoint.isBlank (Text.strip v)).head
  constructor
  · intro hbare hides
    cases hides with
    | @scheme run rest h hrun hrest =>
      rcases scheme_left_iff.mpr ⟨run, hrun, h⟩ with hleft | hleft
      · exact hbare.secure ((scheme_prefix_bare_iff (by decide)).mpr ⟨rest, hleft, hrest⟩)
      · exact hbare.plain ((scheme_prefix_bare_iff (by decide)).mpr ⟨rest, hleft, hrest⟩)
    | @blankInFront front rest c h hfront hc =>
      have hleft := (blank_first_iff hc).mpr (.inl ⟨front, hfront, h⟩)
      have hhead := hbare.trimmed.head c ((head?_bare_iff hc).mpr ⟨rest, hleft⟩)
      simp [hc] at hhead
    | @blankBehind rest slashes c h hslashes hc =>
      have hleft := (blank_before_iff hc).mpr ⟨rest, h⟩
      have hlast := hbare.trimmed.last c ((getLast?_bare_iff hc).mpr ⟨slashes, hslashes, hleft⟩)
      simp [hc] at hlast
  · intro hno
    refine ⟨?_, ?_, slashless_bare, ?_, ?_⟩
    · intro hprefix
      obtain ⟨rest, hleft, hrest⟩ := (scheme_prefix_bare_iff (by decide)).mp hprefix
      obtain ⟨run, hrun, h⟩ := scheme_left_iff.mp (.inl hleft)
      exact hno (.scheme h hrun hrest)
    · intro hprefix
      obtain ⟨rest, hleft, hrest⟩ := (scheme_prefix_bare_iff (by decide)).mp hprefix
      obtain ⟨run, hrun, h⟩ := scheme_left_iff.mp (.inr hleft)
      exact hno (.scheme h hrun hrest)
    · intro c hhead
      by_contra hblank
      have hc : c.isBlank = true := by simpa using hblank
      obtain ⟨rest, hleft⟩ := (head?_bare_iff hc).mp hhead
      rcases (blank_first_iff hc).mp hleft with ⟨front, hfront, h⟩ | h
      · exact hno (.blankInFront h hfront hc)
      · exact hblank (hends c (by rw [h]; rfl))
    · intro c hlast
      by_contra hblank
      have hc : c.isBlank = true := by simpa using hblank
      obtain ⟨slashes, hslashes, hleft⟩ := (getLast?_bare_iff hc).mp hlast
      obtain ⟨rest, h⟩ := (blank_before_iff hc).mp hleft
      exact hno (.blankBehind h hslashes hc)

end Domain

namespace Settings

/-- A domain is loaded as a bare host name exactly if the configured text hides nothing. -/
theorem domain_bare_exactly {s : Sources} {settings : Settings} (h : load s = .ok settings) :
    settings.domain.getLast? ≠ some ('/' : CodePoint) ∧
    ∃ v, s.value? (Text.ofString "AUTH0_DOMAIN") = some (.str v) ∧
      (Domain.IsBare settings.domain ↔ ¬Domain.Hides v) ∧
      (Domain.bare settings.domain = settings.domain ↔ ¬Domain.Hides v) ∧
      ∀ s' settings', load s' = .ok settings' →
        s'.value? (Text.ofString "AUTH0_DOMAIN") = some (.str settings.domain) →
        (settings'.issuer.url = settings.issuer.url ↔ ¬Domain.Hides v) ∧
        (settings'.issuer.keySetUrl = settings.issuer.keySetUrl ↔ ¬Domain.Hides v) := by
  obtain ⟨v, hv, hdomain⟩ := domain_of_load h
  have hbare : Domain.IsBare settings.domain ↔ ¬Domain.Hides v := hdomain ▸ Domain.isBare_bare_iff
  have hagain := Domain.bare_eq_self_iff.trans hbare
  refine ⟨hdomain ▸ Domain.slashless_bare, v, hv, hbare, hagain, ?_⟩
  intro s' settings' h' hv'
  obtain ⟨_, hw, hdomain'⟩ := domain_of_load h'
  cases hv'.symm.trans hw
  rw [← hagain, ← hdomain']
  constructor
  · exact ⟨Issuer.url_injective, fun hsame => by simp only [Issuer.url, issuer, hsame]⟩
  · exact ⟨Issuer.keySetUrl_injective, fun hsame => by simp only [Issuer.keySetUrl, issuer, hsame]⟩

namespace Sample

def sources (domain : String) : Sources where
  given := []
  environment := [("AUTH0_AUDIENCE", "a"), ("AUTH0_DOMAIN", domain)].map fun (k, v) =>
    (Text.ofString k, Text.ofString v)
  file := none

def settings (domain : String) : Settings :=
  ⟨Text.ofString "Bookshelf API", false, Text.ofString "a", Text.ofString domain, Binary64.ofInt 5,
    0, [], Text.ofString "INFO"⟩

theorem stacked_loads : load (sources "http://https://h") = .ok (settings "https://h") := by
  decide +kernel

theorem left_loads : load (sources "https://h") = .ok (settings "h") := by decide +kernel

end Sample

theorem second_scheme_stays :
    ¬∀ settings, load (Sample.sources "http://https://h") = .ok settings →
      Domain.IsBare settings.domain := by
  intro h
  have hprefix : Text.ofString "https://" <+: (Sample.settings "https://h").domain :=
    ⟨Text.ofString "h", by decide⟩
  exact (h _ Sample.stacked_loads).secure hprefix

/-- Of two schemes one stays, and taking it off as well makes another issuer. -/
theorem sample_domain_bare_exactly :
    (Sample.settings "https://h").domain.getLast? ≠ some ('/' : CodePoint) ∧
    ¬Domain.IsBare (Sample.settings "https://h").domain ∧
    (Sample.settings "h").issuer.url ≠ (Sample.settings "https://h").issuer.url := by
  obtain ⟨hslashless, v, hv, hbare, _, hagain⟩ := domain_bare_exactly Sample.stacked_loads
  obtain rfl : Text.ofString "http://https://h" = v := by
    have hvalue : (Sample.sources "http://https://h").value? (Text.ofString "AUTH0_DOMAIN") =
        some (.str (Text.ofString "http://https://h")) := by decide +kernel
    cases hvalue.symm.trans hv
    rfl
  have hides : Domain.Hides (Text.ofString "http://https://h") :=
    @Domain.Hides.scheme _ (Text.ofString "http://https://") (Text.ofString "h") (by decide)
      (by decide) ⟨_, List.mem_singleton_self _, by decide⟩
  refine ⟨hslashless, fun h => hbare.mp h hides, fun h => ?_⟩
  exact (hagain _ _ Sample.left_loads (by decide +kernel)).1.mp h hides

end Settings

end BearerGate
