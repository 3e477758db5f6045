import BearerGate.Token.Bearer
import BearerGate.Proofs.Text.Case

namespace BearerGate

namespace Bearer

theorem lower_eq_scheme_iff {t : Text} :
    Text.lower t = scheme ↔ Text.equalsIgnoringAsciiCase t (Text.ofString "Bearer") = true :=
  Text.lower_eq_iff (by decide) (by decide)

theorem space_not_mem_of_lower_eq {t : Text} (h : Text.lower t = scheme) :
    (' ' : CodePoint) ∉ t := by
  intro hm
  have hs : CodePoint.lower (' ' : CodePoint) ∈ scheme := by
    rw [← h]
    exact List.mem_map_of_mem hm
  exact absurd hs (by decide)

theorem token?_eq_some_iff {authorization : Option Text} {token : Text} :
    token? authorization = some token ↔
      ∃ first rest, authorization = some (first ++ (' ' : CodePoint) :: rest) ∧
        Text.equalsIgnoringAsciiCase first (Text.ofString "Bearer") = true ∧
        token = Text.strip rest ∧ token ≠ [] := by
  cases authorization with
  | none => simp [token?]
  | some value =>
    constructor
    · intro h
      simp only [token?] at h
      split at h
      next => simp at h
      next first rest hcut =>
        split at h
        next hgood =>
          obtain ⟨rfl, _⟩ := Text.cut?_eq_some_iff.mp hcut
          cases Option.some.inj h
          exact ⟨first, rest, rfl, lower_eq_scheme_iff.mp hgood.1, rfl, hgood.2⟩
        next => simp at h
    · rintro ⟨first, rest, hv, hfirst, rfl, hne⟩
      cases Option.some.inj hv
      have hlower := lower_eq_scheme_iff.mpr hfirst
      have hcut := Text.cut?_eq_some_iff.mpr
        ⟨(rfl : first ++ (' ' : CodePoint) :: rest = _), space_not_mem_of_lower_eq hlower⟩
      simp only [token?, hcut, if_pos (And.intro hlower hne)]

/-- The scheme in any case, one space, and the token with nothing but blanks around it. -/
def Carries (value token : Text) : Prop :=
  ∃ first left right, value = first ++ (' ' : CodePoint) :: (left ++ token ++ right) ∧
    Text.equalsIgnoringAsciiCase first (Text.ofString "Bearer") = true ∧
    (∀ c ∈ left ++ right, c.isBlank = true) ∧
    Text.Trimmed CodePoint.isBlank token ∧ token ≠ []

theorem token?_eq_some_iff_carries {authorization : Option Text} {token : Text} :
    token? authorization = some token ↔
      ∃ value, authorization = some value ∧ Carries value token := by
  rw [token?_eq_some_iff]
  constructor
  · rintro ⟨first, rest, rfl, hfirst, rfl, hne⟩
    obtain ⟨htrimmed, left, right, he, hl, hr⟩ :=
      Text.trim_eq_iff.mp (rfl : Text.trim CodePoint.isBlank rest = Text.strip rest)
    have hblank : ∀ c ∈ left ++ right, c.isBlank = true := List.forall_mem_append.mpr ⟨hl, hr⟩
    exact ⟨_, rfl, first, left, right, he ▸ rfl, hfirst, hblank, htrimmed, hne⟩
  · rintro ⟨_, rfl, first, left, right, rfl, hfirst, hblank, htrimmed, hne⟩
    obtain ⟨hl, hr⟩ := List.forall_mem_append.mp hblank
    have hstrip : Text.strip (left ++ token ++ right) = token :=
      Text.trim_eq_iff.mpr ⟨htrimmed, left, right, rfl, hl, hr⟩
    exact ⟨first, _, rfl, hfirst, hstrip.symm, hne⟩

/-- Behind the scheme in any other case, with any blanks behind it, a token is a credential again.
-/
theorem Carries.rewrite {value token first right : Text} (h : Carries value token)
    (hfirst : Text.equalsIgnoringAsciiCase first (Text.ofString "Bearer") = true)
    (hright : ∀ c ∈ right, c.isBlank = true) :
    Carries (first ++ (' ' : CodePoint) :: (token ++ right)) token := by
  obtain ⟨_, _, _, _, _, _, htrimmed, hne⟩ := h
  exact ⟨first, [], right, rfl, hfirst, hright, htrimmed, hne⟩

theorem grammar_of_token? {authorization : Option Text} {token : Text}
    (h : token? authorization = some token) :
    ∃ first left right,
      authorization = some (first ++ (' ' : CodePoint) :: (left ++ token ++ right)) ∧
        Text.equalsIgnoringAsciiCase first (Text.ofString "Bearer") = true ∧
        ∀ c ∈ left ++ right, c.isBlank = true := by
  obtain ⟨_, rfl, first, left, right, rfl, hfirst, hblank, _⟩ := token?_eq_some_iff_carries.mp h
  exact ⟨first, left, right, rfl, hfirst, hblank⟩

end Bearer

end BearerGate
