import BearerGate.Settings

namespace BearerGate

theorem Checked.both_eq_ok_iff {α β : Type} {x : Checked α} {y : Checked β} {ab : α × β} :
    Checked.both x y = .ok ab ↔ x = .ok ab.1 ∧ y = .ok ab.2 := by
  obtain ⟨a, b⟩ := ab
  cases x <;> cases y <;> simp [Checked.both]

theorem Checked.map_eq_ok_iff {α β : Type} {x : Checked α} {f : α → β} {b : β} :
    x.map f = .ok b ↔ ∃ a, x = .ok a ∧ f a = b := by
  cases x <;> simp [Except.map]

theorem mapError_eq_ok_iff {ε ε' α : Type} {f : ε → ε'} {x : Except ε α} {a : α} :
    x.mapError f = .ok a ↔ x = .ok a := by
  cases x with
  | error e => exact iff_of_false nofun nofun
  | ok b => exact Iff.intro (fun h => congrArg _ (Except.ok.inj h)) (congrArg _)

theorem Field.inside_eq_ok_iff {α : Type} {p : Place} {v : Checked α} {a : α} :
    Field.inside p v = .ok a ↔ v = .ok a := mapError_eq_ok_iff

theorem Field.text_eq_ok_iff {v : Json} {t : Text} : Field.text v = .ok t ↔ v = .str t := by
  cases v <;> simp [Field.text, Field.fail]

namespace Settings

variable {s : Sources} {settings : Settings}

/-- The setting of this name reads as `a`; a default stands in where no source has it. -/
def Reads {α : Type} (s : Sources) (name : String) (default? : Option α) (read : Json → Checked α)
    (a : α) : Prop :=
  (s.value? (Text.ofString name) = none ∧ default? = some a) ∨
    ∃ v, s.value? (Text.ofString name) = some v ∧ read v = .ok a

theorem withDefault_eq_ok_iff {α : Type} {name : String} {default a : α}
    {read : Json → Checked α} :
    withDefault s name default read = .ok a ↔ Reads s name (some default) read a := by
  unfold withDefault Reads
  cases s.value? (Text.ofString name) <;> simp [Field.inside_eq_ok_iff]

theorem withoutDefault_eq_ok_iff {α : Type} {name : String} {a : α} {read : Json → Checked α} :
    withoutDefault s name read = .ok a ↔ Reads s name none read a := by
  unfold withoutDefault Reads
  rw [Field.inside_eq_ok_iff]
  cases s.value? (Text.ofString name) <;> simp [Field.fail]

def ReadsOrigins (s : Sources) (allowed : List Text) : Prop :=
  (s.value? (Text.ofString "ALLOWED_ORIGINS") = none ∧ allowed = []) ∨
    ∃ v, s.value? (Text.ofString "ALLOWED_ORIGINS") = some v ∧ Origins.ofJson v = .ok (.ok allowed)

theorem origins_eq_ok_iff {allowed : List Text} :
    origins s = .ok (.ok allowed) ↔ ReadsOrigins s allowed := by
  unfold origins ReadsOrigins
  dsimp only
  cases s.value? (Text.ofString "ALLOWED_ORIGINS") with
  | none => simp [eq_comm]
  | some v => cases hv : Origins.ofJson v <;> simp [hv, Except.map, Field.inside_eq_ok_iff]

/-- Each setting is what the first source that has it says, or its default. -/
structure LoadsFrom (s : Sources) (settings : Settings) : Prop where
  projectName : Reads s "PROJECT_NAME" (some (Text.ofString "Bookshelf API")) Field.text
    settings.projectName
  debug : Reads s "DEBUG" (some false) Field.truth settings.debug
  audience : Reads s "AUTH0_AUDIENCE" none Field.text settings.audience
  domain : Reads s "AUTH0_DOMAIN" none (fun v => (Field.text v).map Domain.bare) settings.domain
  timeout : Reads s "JWKS_TIMEOUT_SECONDS" (some (Binary64.ofInt 5)) Field.real settings.timeout
  lifetime : Reads s "JWKS_CACHE_TTL" (some 0) Field.whole settings.lifetime
  allowedOrigins : ReadsOrigins s settings.allowedOrigins
  logLevel : Reads s "LOG_LEVEL" (some (Text.ofString "INFO")) Field.text settings.logLevel

theorem load_eq_ok_iff_assemble : load s = .ok settings ↔
    ∃ found, origins s = .ok found ∧ assemble s found = .ok settings := by
  unfold load
  cases origins s with
  | error e => simp
  | ok found => simp [mapError_eq_ok_iff]

theorem load_eq_ok_iff : load s = .ok settings ↔ LoadsFrom s settings := by
  rw [load_eq_ok_iff_assemble]
  constructor
  · rintro ⟨found, hfound, h⟩
    obtain ⟨all, hall, rfl⟩ := Checked.map_eq_ok_iff.mp h
    simp only [Checked.both_eq_ok_iff, withDefault_eq_ok_iff, withoutDefault_eq_ok_iff] at hall
    obtain ⟨hname, hdebug, haudience, hdomain, htimeout, hlifetime, rfl, hlevel⟩ := hall
    exact ⟨hname, hdebug, haudience, hdomain, htimeout, hlifetime, origins_eq_ok_iff.mp hfound,
      hlevel⟩
  · intro h
    refine ⟨_, origins_eq_ok_iff.mpr h.allowedOrigins, Checked.map_eq_ok_iff.mpr
      ⟨(settings.projectName, settings.debug, settings.audience, settings.domain, settings.timeout,
        settings.lifetime, settings.allowedOrigins, settings.logLevel), ?_, rfl⟩⟩
    simp only [Checked.both_eq_ok_iff, withDefault_eq_ok_iff, withoutDefault_eq_ok_iff]
    exact ⟨h.projectName, h.debug, h.audience, h.domain, h.timeout, h.lifetime, trivial,
      h.logLevel⟩

theorem domain_of_load (h : load s = .ok settings) :
    ∃ v, s.value? (Text.ofString "AUTH0_DOMAIN") = some (.str v) ∧
      settings.domain = Domain.bare v := by
  rcases (load_eq_ok_iff.mp h).domain with ⟨_, hnone⟩ | ⟨w, hw, hread⟩
  · cases hnone
  · obtain ⟨v, hv, hbare⟩ := Checked.map_eq_ok_iff.mp hread
    obtain rfl := Field.text_eq_ok_iff.mp hv
    exact ⟨v, hw, hbare.symm⟩

def names : List String :=
  ["PROJECT_NAME", "DEBUG", "AUTH0_AUDIENCE", "AUTH0_DOMAIN", "JWKS_TIMEOUT_SECONDS",
    "JWKS_CACHE_TTL", "ALLOWED_ORIGINS", "LOG_LEVEL"]

/-- Both sources agree in every setting but the one of this name. -/
def Sources.AgreeBeside (name : String) (s s' : Sources) : Prop :=
  ∀ other ∈ names, other ≠ name → s.value? (Text.ofString other) = s'.value? (Text.ofString other)

theorem Sources.AgreeBeside.symm {name : String} {s s' : Sources} (h : s.AgreeBeside name s') :
    s'.AgreeBeside name s :=
  fun other hmem hother => (h other hmem hother).symm

theorem Reads.congr {α : Type} {s s' : Sources} {name : String} {default? : Option α}
    {read : Json → Checked α} {a : α} (h : Reads s name default? read a)
    (hsame : s.value? (Text.ofString name) = s'.value? (Text.ofString name)) :
    Reads s' name default? read a := by
  unfold Reads at h ⊢
  rwa [← hsame]

theorem ReadsOrigins.congr {s s' : Sources} {allowed : List Text} (h : ReadsOrigins s allowed)
    (hsame : s.value? (Text.ofString "ALLOWED_ORIGINS") =
      s'.value? (Text.ofString "ALLOWED_ORIGINS")) : ReadsOrigins s' allowed := by
  unfold ReadsOrigins at h ⊢
  rwa [← hsame]

theorem LoadsFrom.replace {s s' : Sources} {domain : Text} {allowed : List Text}
    (h : LoadsFrom s settings)
    (hsame : ∀ name ∈ names, name ≠ "AUTH0_DOMAIN" → name ≠ "ALLOWED_ORIGINS" →
      s.value? (Text.ofString name) = s'.value? (Text.ofString name))
    (hdomain : Reads s' "AUTH0_DOMAIN" none (fun v => (Field.text v).map Domain.bare) domain)
    (hallowed : ReadsOrigins s' allowed) :
    LoadsFrom s' { settings with domain := domain, allowedOrigins := allowed } where
  projectName := h.projectName.congr (hsame _ (by decide) (by decide) (by decide))
  debug := h.debug.congr (hsame _ (by decide) (by decide) (by decide))
  audience := h.audience.congr (hsame _ (by decide) (by decide) (by decide))
  domain := hdomain
  timeout := h.timeout.congr (hsame _ (by decide) (by decide) (by decide))
  lifetime := h.lifetime.congr (hsame _ (by decide) (by decide) (by decide))
  allowedOrigins := hallowed
  logLevel := h.logLevel.congr (hsame _ (by decide) (by decide) (by decide))

theorem LoadsFrom.replace_domain {s s' : Sources} {v : Text} (h : LoadsFrom s settings)
    (hagree : s.AgreeBeside "AUTH0_DOMAIN" s')
    (hv : s'.value? (Text.ofString "AUTH0_DOMAIN") = some (.str v)) :
    LoadsFrom s' { settings with domain := Domain.bare v } :=
  h.replace (fun name hmem hname _ => hagree name hmem hname) (.inr ⟨_, hv, rfl⟩)
    (h.allowedOrigins.congr (hagree _ (by decide) (by decide)))

theorem LoadsFrom.replace_origins {s s' : Sources} {allowed : List Text} (h : LoadsFrom s settings)
    (hagree : s.AgreeBeside "ALLOWED_ORIGINS" s') (hallowed : ReadsOrigins s' allowed) :
    LoadsFrom s' { settings with allowedOrigins := allowed } :=
  h.replace (fun name hmem _ hname => hagree name hmem hname)
    (h.domain.congr (hagree _ (by decide) (by decide))) hallowed

end Settings

end BearerGate
