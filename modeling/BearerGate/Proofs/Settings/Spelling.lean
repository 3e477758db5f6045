import BearerGate.Proofs.Settings.Domain

namespace BearerGate

namespace Domain

variable {h v r slashes : Text}

/-- What stands for a host: no slash, no blanks at the ends, no colon at the end. -/
structure IsHost (h : Text) : Prop where
  slashless : ('/' : CodePoint) ∉ h
  trimmed : Text.Trimmed CodePoint.isBlank h
  colonless : h.getLast? ≠ some (':' : CodePoint)

def schemes : List Text := [[], Text.ofString "https://", Text.ofString "http://"]

/-- A host with a scheme or none in front, slashes behind and blanks around. -/
inductive Spells (h : Text) : Text → Prop
  | mk {left scheme slashes right : Text} (hscheme : scheme ∈ schemes)
    (hslashes : ∀ c ∈ slashes, c = ('/' : CodePoint)) (hleft : ∀ c ∈ left, c.isBlank = true)
    (hright : ∀ c ∈ right, c.isBlank = true) :
    Spells h (left ++ (scheme ++ h ++ slashes) ++ right)

theorem not_isBlank_of_mem_schemes {scheme : Text} (h : scheme ∈ schemes) :
    ∀ c ∈ scheme, c.isBlank = false := by
  have hall : (schemes.all fun scheme => scheme.all fun c => !c.isBlank) = true := by decide
  intro c hc
  simpa using List.all_eq_true.mp (List.all_eq_true.mp hall scheme h) c hc

/-- The colon of the scheme would have to end the host. -/
theorem IsHost.scheme_not_prefix (stem : Text) (hh : IsHost h)
    (hslashes : ∀ c ∈ slashes, c = ('/' : CodePoint)) (hstem : ('/' : CodePoint) ∉ stem)
    (hcolon : stem.getLast? = some (':' : CodePoint)) :
    ¬stem ++ Text.ofString "//" <+: h ++ slashes := by
  rintro ⟨rest, hrest⟩
  have hcut : Text.cut? ('/' : CodePoint) (h ++ slashes) =
      some (stem, ('/' : CodePoint) :: rest) := by
    refine Text.cut?_eq_some_iff.mpr ⟨?_, hstem⟩
    rw [← hrest, List.append_assoc]
    rfl
  cases slashes with
  | nil =>
    have hmem : ('/' : CodePoint) ∈ h := by
      rw [List.append_nil] at hrest
      rw [← hrest]
      simp [Text.ofString]
    exact hh.slashless hmem
  | cons c slashes =>
    obtain rfl := hslashes c List.mem_cons_self
    have hhost : Text.cut? ('/' : CodePoint) (h ++ ('/' : CodePoint) :: slashes) =
        some (h, slashes) := Text.cut?_eq_some_iff.mpr ⟨rfl, hh.slashless⟩
    have hsame : h = stem := congrArg Prod.fst (Option.some.inj (hhost.symm.trans hcut))
    apply hh.colonless
    rw [hsame]
    exact hcolon

theorem IsHost.secure_not_prefix (hh : IsHost h) (hslashes : ∀ c ∈ slashes, c = ('/' : CodePoint)) :
    ¬Text.ofString "https://" <+: h ++ slashes :=
  hh.scheme_not_prefix (Text.ofString "https:") hslashes (by decide) (by decide)

theorem IsHost.plain_not_prefix (hh : IsHost h) (hslashes : ∀ c ∈ slashes, c = ('/' : CodePoint)) :
    ¬Text.ofString "http://" <+: h ++ slashes :=
  hh.scheme_not_prefix (Text.ofString "http:") hslashes (by decide) (by decide)

theorem IsHost.dropSchemes_eq {scheme : Text} (hh : IsHost h)
    (hscheme : scheme ∈ schemes)
    (hslashes : ∀ c ∈ slashes, c = ('/' : CodePoint)) :
    dropSchemes (scheme ++ (h ++ slashes)) = h ++ slashes := by
  have hsecure := hh.secure_not_prefix hslashes
  have hplain := hh.plain_not_prefix hslashes
  apply dropSchemes_eq_iff.mpr
  simp only [schemes, List.mem_cons, List.not_mem_nil, or_false] at hscheme
  rcases hscheme with rfl | rfl | rfl
  · exact .inr (.inr ⟨.inr ⟨rfl, hsecure⟩, hplain⟩)
  · exact .inr (.inr ⟨.inl rfl, hplain⟩)
  · exact .inr (.inl rfl)

theorem IsHost.strip_eq {left scheme right : Text} (hh : IsHost h)
    (hscheme : scheme ∈ schemes)
    (hslashes : ∀ c ∈ slashes, c = ('/' : CodePoint))
    (hleft : ∀ c ∈ left, c.isBlank = true) (hright : ∀ c ∈ right, c.isBlank = true) :
    Text.strip (left ++ (scheme ++ h ++ slashes) ++ right) = scheme ++ h ++ slashes := by
  have hslashes' : ∀ c ∈ slashes, c.isBlank = false := by
    intro c hc
    rw [hslashes c hc]
    decide
  have htrimmed : Text.Trimmed CodePoint.isBlank (scheme ++ h ++ slashes) :=
    hh.trimmed.surround (not_isBlank_of_mem_schemes hscheme) hslashes'
  exact Text.trim_eq_iff.mpr ⟨htrimmed, left, right, rfl, hleft, hright⟩

theorem Spells.bare_eq (hv : Spells h v) (hh : IsHost h) : bare v = h := by
  obtain ⟨hscheme, hslashes, hleft, hright⟩ := hv
  rename_i left scheme slashes right
  have hlast : ∀ c, h.getLast? = some c → isSlash c = false := by
    intro c hc
    apply isSlash_eq_false_iff.mpr
    rintro rfl
    exact hh.slashless (List.mem_of_getLast? hc)
  have hend : Text.trimEnd isSlash (h ++ slashes) = h := by
    apply Text.trimEnd_eq_iff.mpr
    exact ⟨⟨slashes, rfl, fun c hc => isSlash_eq_true_iff.mpr (hslashes c hc)⟩, hlast⟩
  rw [Domain.bare_eq, hh.strip_eq hscheme hslashes hleft hright, List.append_assoc,
    hh.dropSchemes_eq hscheme hslashes, hend]

theorem Spells.refl (h : Text) : Spells h h := by
  have hplain := @Spells.mk h [] [] [] [] (by decide) (by simp) (by simp) (by simp)
  simpa using hplain

end Domain

namespace Settings

variable {s s' : Sources} {settings : Settings} {h v : Text}

theorem domain_of_spells (hh : Domain.IsHost h) (hv : Domain.Spells h v)
    (hs : s.value? (Text.ofString "AUTH0_DOMAIN") = some (.str v)) (hload : load s = .ok settings) :
    settings.domain = h := by
  obtain ⟨w, hw, hbare⟩ := domain_of_load hload
  cases hs.symm.trans hw
  rw [hbare, hv.bare_eq hh]

theorem load_of_spells (hh : Domain.IsHost h) (hv : Domain.Spells h v)
    (hs : s.value? (Text.ofString "AUTH0_DOMAIN") = some (.str v))
    (hagree : s'.AgreeBeside "AUTH0_DOMAIN" s) (hload : load s' = .ok settings) :
    load s = .ok { settings with domain := h } := by
  have hreplaced := (load_eq_ok_iff.mp hload).replace_domain hagree hs
  rw [hv.bare_eq hh] at hreplaced
  exact load_eq_ok_iff.mpr hreplaced

theorem load_iff_of_spells {w : Text} (hh : Domain.IsHost h) (hv : Domain.Spells h v)
    (hw : Domain.Spells h w) (hs : s.value? (Text.ofString "AUTH0_DOMAIN") = some (.str v))
    (hs' : s'.value? (Text.ofString "AUTH0_DOMAIN") = some (.str w))
    (hagree : s.AgreeBeside "AUTH0_DOMAIN" s') :
    load s = .ok settings ↔ load s' = .ok settings := by
  constructor
  · intro hload
    have hdomain : settings.domain = h := domain_of_spells hh hv hs hload
    have hload' := load_of_spells hh hw hs' hagree hload
    rwa [← hdomain] at hload'
  · intro hload
    have hdomain : settings.domain = h := domain_of_spells hh hw hs' hload
    have hload' := load_of_spells hh hv hs hagree.symm hload
    rwa [← hdomain] at hload'

/-- Every spelling of a host makes the settings of that host, and no others make its issuer. -/
theorem spellings_configure_alike (hh : Domain.IsHost h) (hv : Domain.Spells h v)
    (hs : s.value? (Text.ofString "AUTH0_DOMAIN") = some (.str v)) :
    (∀ settings, load s = .ok settings →
      settings.issuer = ⟨settings.audience, h⟩ ∧
      settings.issuer.url = Text.ofString "https://" ++ h ++ Text.ofString "/" ∧
      settings.issuer.keySetUrl =
        Text.ofString "https://" ++ h ++ Text.ofString "/.well-known/jwks.json") ∧
    (∀ s' settings, s.AgreeBeside "AUTH0_DOMAIN" s' →
      s'.value? (Text.ofString "AUTH0_DOMAIN") = some (.str h) →
      (load s = .ok settings ↔ load s' = .ok settings)) ∧
    (∀ s' settings, s'.AgreeBeside "AUTH0_DOMAIN" s → load s' = .ok settings →
      load s = .ok { settings with domain := h }) ∧
    ∀ k w s' settings settings', Domain.IsHost k → Domain.Spells k w →
      s'.value? (Text.ofString "AUTH0_DOMAIN") = some (.str w) → load s = .ok settings →
      load s' = .ok settings' → (settings.issuer.url = settings'.issuer.url ↔ h = k) := by
  refine ⟨?_, ?_, ?_, ?_⟩
  · intro settings hload
    have hissuer : settings.issuer = ⟨settings.audience, h⟩ := by
      rw [issuer, domain_of_spells hh hv hs hload]
    rw [hissuer]
    exact ⟨rfl, rfl, rfl⟩
  · intro s' settings hagree hs'
    exact load_iff_of_spells hh hv (.refl h) hs hs' hagree
  · intro s' settings hagree hload
    exact load_of_spells hh hv hs hagree hload
  · intro k w s' settings settings' hk hw hs' hload hload'
    have hdomain : settings.issuer.domain = h := domain_of_spells hh hv hs hload
    have hdomain' : settings'.issuer.domain = k := domain_of_spells hk hw hs' hload'
    rw [← hdomain, ← hdomain']
    exact ⟨Issuer.url_injective, fun hsame => by rw [Issuer.url, Issuer.url, hsame]⟩

/-- A spelling with all there may be around a host. -/
theorem sample_spelling_configures :
    load (Sample.sources " http://h// ") = .ok (Sample.settings "h") ∧
    (Sample.settings "h").issuer.url = Text.ofString "https://h/" ∧
    load (Sample.sources "h") = .ok (Sample.settings "h") := by
  have hh : Domain.IsHost (Text.ofString "h") :=
    ⟨by decide, Text.trim_eq_self_iff.mp (by decide), by decide⟩
  have hv : Domain.Spells (Text.ofString "h") (Text.ofString " http://h// ") := by
    have hpieces : Text.ofString " http://h// " = Text.ofString " " ++
        (Text.ofString "http://" ++ Text.ofString "h" ++ Text.ofString "//") ++
        Text.ofString " " := by decide
    have hblank : ∀ c ∈ Text.ofString " ", c.isBlank = true := List.all_eq_true.mp (by decide)
    rw [hpieces]
    exact .mk (by decide) (by simp [Text.ofString]) hblank hblank
  have hvalue : ∀ d ∈ ["h", " http://h// "],
      (Sample.sources d).value? (Text.ofString "AUTH0_DOMAIN") = some (.str (Text.ofString d)) := by
    decide +kernel
  have hagree : ∀ d ∈ ["h", "https://h"],
      (Sample.sources d).AgreeBeside "AUTH0_DOMAIN" (Sample.sources " http://h// ") := by
    unfold Sources.AgreeBeside
    decide +kernel
  obtain ⟨hissuer, hhost, hother, _⟩ := spellings_configure_alike hh hv (hvalue _ (by decide))
  have hload := hother _ _ (hagree _ (by decide)) Sample.left_loads
  exact ⟨hload, (hissuer _ hload).2.1,
    (hhost _ _ (hagree _ (by decide)).symm (hvalue _ (by decide))).mp hload⟩

end Settings

end BearerGate
