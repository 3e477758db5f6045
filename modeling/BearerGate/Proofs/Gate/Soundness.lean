import BearerGate.Proofs.Gate.Provenance
import BearerGate.Proofs.Token.Credential
import BearerGate.Proofs.Token.Verdict

namespace BearerGate

namespace Gate

section

variable {g : Gate} {start : World} {steps : List Step} {i : Nat} {authorization : Option Text}

/-- Claims rest on a credential, a key that was published in the run, its signature and an
acceptable payload. -/
theorem claims_sound (hempty : start.cache = none)
    (hs : steps[i]? = some (.authenticate authorization)) {seen : Observation} {c : Claims}
    (hseen : (g.run start steps).2[i]? = some seen) (hc : seen.result = .ok (.claims c)) :
    ∃ first left token right h p s kid modulus exponent payload j document keys,
      authorization = some (first ++ (' ' : CodePoint) :: (left ++ token ++ right)) ∧
      Text.equalsIgnoringAsciiCase first (Text.ofString "Bearer") = true ∧
      (∀ c ∈ left ++ right, c.isBlank = true) ∧
      Compact.Segmented token h p s ∧
      Compact.Announces h kid ∧
      j ≤ i ∧ g.DownloadsAt start steps j document keys ∧
      KeySet.Publishes document kid ⟨some kid, .rsa modulus exponent⟩ ∧
      Compact.SignedUnder modulus exponent h p s ∧
      Compact.Tells p payload ∧
      Payload.Acceptable g.issuer (g.worldAt start steps i).clock.now payload ∧
      Claims.ofPayload payload = .ok c := by
  cases Option.some.inj ((run_observed hs).symm.trans hseen)
  obtain ⟨token, kid, ⟨keyKid, parameters⟩, payload, hsel, hv, hp⟩ := claims_of_step hc
  obtain ⟨first, left, right, hcred, hfirst, hblank⟩ := Bearer.grammar_of_token? hsel.credential
  obtain ⟨header, hh, rfl⟩ := hsel.named
  obtain ⟨j, document, keys, hlast, hpub, _⟩ := hsel.last_download hempty hs
  obtain ⟨modulus, exponent, compact, hrsa, hsigned, hread, hok⟩ :=
    Verification.verify_eq_ok_iff.mp hv
  obtain ⟨h, p, s, hseg, hann, hund, htell⟩ := Compact.segments_of_signed hh hsigned hread
  obtain rfl : keyKid = some header.kid := KeySet.kid_of_publishes hpub
  obtain rfl : parameters = .rsa modulus exponent := hrsa
  exact ⟨first, left, token, right, h, p, s, header.kid, modulus, exponent, payload, j, document,
    keys, hcred, hfirst, hblank, hseg, hann, Nat.lt_succ_iff.mp hlast.before, hlast.succeeds, hpub,
    hund, htell, hok, hp⟩

end

theorem Sample.accepts :
    (gate.step (gate.worldAt start steps 3) (.authenticate (some authorization))).2.result =
      .ok (.claims ⟨Text.ofString "s", none⟩) := by decide +kernel

/-- The sample's caller is let in with a kept key, which a download of the run has brought. -/
theorem sample_claims_sound :
    ∃ first left token right h p s kid modulus exponent payload j document keys,
      some Sample.authorization =
        some (first ++ (' ' : CodePoint) :: (left ++ token ++ right)) ∧
      Text.equalsIgnoringAsciiCase first (Text.ofString "Bearer") = true ∧
      (∀ c ∈ left ++ right, c.isBlank = true) ∧
      Compact.Segmented token h p s ∧
      Compact.Announces h kid ∧
      j ≤ 3 ∧ Sample.gate.DownloadsAt Sample.start Sample.steps j document keys ∧
      KeySet.Publishes document kid ⟨some kid, .rsa modulus exponent⟩ ∧
      Compact.SignedUnder modulus exponent h p s ∧
      Compact.Tells p payload ∧
      Payload.Acceptable Sample.gate.issuer
        (Sample.gate.worldAt Sample.start Sample.steps 3).clock.now payload ∧
      Claims.ofPayload payload = .ok ⟨Text.ofString "s", none⟩ :=
  claims_sound rfl rfl (run_observed rfl) Sample.accepts

end Gate

end BearerGate
