import BearerGate.Proofs.Gate.Authentication
import BearerGate.Proofs.Token.Credential

namespace BearerGate

namespace Gate

theorem authenticate_of_no_token {g : Gate} {clock : Clock} {server : KeyServer} {cache : Cache}
    {authorization : Option Text} (h : Bearer.token? authorization = none) :
    g.authenticate clock server authorization cache =
      ⟨.error (.rejected .missingCredentials), cache, [],
        [failedAuthenticationNote .missingCredentials]⟩ := by
  apply authenticate_of_rejected
  simp only [verifiedPayload, h]

/-- The credentials of all header values; without one every gate asks for credentials and does
nothing else. -/
theorem credentials_taken_exactly :
    (∀ t, Text.lower t = Bearer.scheme ↔
      Text.equalsIgnoringAsciiCase t (Text.ofString "Bearer") = true) ∧
    (∀ authorization token, Bearer.token? authorization = some token ↔
      ∃ value, authorization = some value ∧ Bearer.Carries value token) ∧
    (∀ authorization, (¬∃ value token, authorization = some value ∧ Bearer.Carries value token) →
      ∀ (g : Gate) clock server cache, g.authenticate clock server authorization cache =
        ⟨.error (.rejected .missingCredentials), cache, [],
          [failedAuthenticationNote .missingCredentials]⟩) ∧
    (∀ authorization token, Bearer.token? authorization = some token →
      Text.Trimmed CodePoint.isBlank token ∧
      ∀ first right, Text.equalsIgnoringAsciiCase first (Text.ofString "Bearer") = true →
        (∀ c ∈ right, c.isBlank = true) →
        Bearer.token? (some (first ++ (' ' : CodePoint) :: (token ++ right))) = some token) := by
  refine ⟨fun _ => Bearer.lower_eq_scheme_iff, fun _ _ => Bearer.token?_eq_some_iff_carries, ?_, ?_⟩
  · intro authorization hno g clock server cache
    apply authenticate_of_no_token
    apply Option.eq_none_iff_forall_ne_some.mpr
    intro token htoken
    obtain ⟨value, hvalue, hcarries⟩ := Bearer.token?_eq_some_iff_carries.mp htoken
    exact hno ⟨value, token, hvalue, hcarries⟩
  · intro authorization token htoken
    obtain ⟨value, _, hcarries⟩ := Bearer.token?_eq_some_iff_carries.mp htoken
    have htrimmed : Text.Trimmed CodePoint.isBlank token := by
      obtain ⟨_, _, _, _, _, _, htrimmed, _⟩ := hcarries
      exact htrimmed
    refine ⟨htrimmed, ?_⟩
    intro first right hfirst hright
    exact Bearer.token?_eq_some_iff_carries.mpr ⟨_, rfl, hcarries.rewrite hfirst hright⟩

/-- A space may stand inside a token, but no tab for the space in front of it. -/
theorem sample_credentials_taken :
    Bearer.token? (some (Text.ofString "bEaReR \t a b\u00a0")) = some (Text.ofString "a b") ∧
    Bearer.token? (some (Text.ofString "BEARER a b\u3000")) = some (Text.ofString "a b") ∧
    ((⟨⟨[], []⟩, none, 0⟩ : Gate).authenticate ⟨0, 0⟩ .hangs (some (Text.ofString "Bearer\ta"))
      none).result = .error (.rejected .missingCredentials) := by
  obtain ⟨_, htaken, hasked, hagain⟩ := credentials_taken_exactly
  have hcarries : Bearer.Carries (Text.ofString "bEaReR \t a b\u00a0") (Text.ofString "a b") :=
    ⟨Text.ofString "bEaReR", Text.ofString "\t ", Text.ofString "\u00a0", by decide, by decide,
      List.all_eq_true.mp (by decide), Text.trim_eq_self_iff.mp (by decide), by decide⟩
  have htoken := (htaken _ _).mpr ⟨_, rfl, hcarries⟩
  have hrewritten := (hagain _ _ htoken).2 (Text.ofString "BEARER") (Text.ofString "\u3000")
    (by decide) (List.all_eq_true.mp (by decide))
  have hno : Bearer.token? (some (Text.ofString "Bearer\ta")) = none := by decide
  refine ⟨htoken, hrewritten, ?_⟩
  rw [hasked]
  rintro ⟨value, token, hvalue, hcarries⟩
  cases hno.symm.trans ((htaken _ _).mpr ⟨value, hvalue, hcarries⟩)

end Gate

end BearerGate
