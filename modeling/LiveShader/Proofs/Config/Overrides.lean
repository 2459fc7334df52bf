import LiveShader.Config.Settings
import LiveShader.Proofs.GlVersion
import LiveShader.Proofs.Size
/-!
# Proofs.Config.Overrides — settings under command-line arguments

Settings are checked and turned into options after the arguments were laid over them.  Sizes and versions that were
parsed are valid, and a version goes through its text and back, so arguments mend what they replace, and the options
are the arguments where given and the settings elsewhere (`override_resolves`).
-/
namespace LiveShader
namespace Config

/-- An extension that is not blank and has no dot in front. -/
structure Proper (extension : String) : Prop where
  named : ∃ c ∈ extension.toList, Text.isBlank c = false
  undotted : extension.toList.head? ≠ some '.'

/-- Arguments whose size and version, if given, are what some text was parsed as. -/
structure Arguments.Parsed (a : Arguments) : Prop where
  size : ∀ z ∈ a.size, ∃ text, Size.parse text = .ok z
  version : ∀ v ∈ a.version, ∃ text, GlVersion.parse text = .ok v

namespace Settings

variable {s c : Settings} {a : Arguments} {version : GlVersion} {options : Window.Options}

/-! ## Checked settings -/

theorem extensionFlaw?_eq_none_iff {field value : String} : extensionFlaw? field value = none ↔ Proper value := by
  unfold extensionFlaw?
  constructor
  · intro h
    split at h
    · cases h
    · next hnamed =>
      split at h
      · cases h
      · next hundotted => exact ⟨Text.isAllBlank_eq_false_iff.1 (Bool.eq_false_iff.2 hnamed), hundotted⟩
  · rintro ⟨hnamed, hundotted⟩
    rw [Text.isAllBlank_eq_false_iff.2 hnamed, if_neg hundotted]
    rfl

theorem glVersion_eq_ok_iff : s.glVersion = .ok version ↔ GlVersion.parse s.version = .ok version := by
  unfold glVersion
  cases GlVersion.parse s.version <;> simp

/-- **When settings pass the check.** -/
theorem validate_eq_ok_iff : s.validate = .ok () ↔ s.windowSize.isEmpty = false ∧ Proper s.shaderExtension ∧
    Proper s.includeExtension ∧ ∃ version, GlVersion.parse s.version = .ok version := by
  have hversion : (∃ version, GlVersion.parse s.version = .ok version) ↔ ∃ version, s.glVersion = .ok version := by
    simp only [glVersion_eq_ok_iff]
  rw [hversion, ← @extensionFlaw?_eq_none_iff "shader_extension", ← @extensionFlaw?_eq_none_iff "include_extension"]
  unfold validate flaw?
  cases s.windowSize.isEmpty with
  | true => simp
  | false =>
    cases extensionFlaw? "shader_extension" s.shaderExtension with
    | some flaw => simp
    | none =>
      cases extensionFlaw? "include_extension" s.includeExtension with
      | some flaw => simp
      | none => cases s.glVersion <;> simp

/-- **Settings that pass the check have options**, in which every field stands as it is set. -/
theorem options_eq_ok_iff : s.options = .ok options ↔ s.validate = .ok () ∧ ∃ version,
    GlVersion.parse s.version = .ok version ∧ options =
      { windowSize := s.windowSize
        store := s.store
        version
        sync := if s.vsync then .vsync else .immediate
        fullscreen := s.fullscreen
        dumpPath := s.dumpSource } := by
  constructor
  · intro h
    unfold Settings.options at h
    split at h
    · cases h
    · cases h
    · next version hvalid hversion =>
      obtain ⟨hsize, -⟩ := validate_eq_ok_iff.1 hvalid
      rw [Window.Options.withWindowSize, Size.atLeastOne_of_isEmpty hsize] at h
      exact ⟨hvalid, version, glVersion_eq_ok_iff.1 hversion, (Except.ok.inj h).symm⟩
  · rintro ⟨hvalid, version, hversion, rfl⟩
    obtain ⟨hsize, -⟩ := validate_eq_ok_iff.1 hvalid
    simp only [Settings.options, hvalid, glVersion_eq_ok_iff.2 hversion, Window.Options.withWindowSize,
      Size.atLeastOne_of_isEmpty hsize]

/-! ## Arguments laid over settings -/

theorem isEmpty_override (ha : a.Parsed) : (c.override a).windowSize.isEmpty = false ↔
    a.size.isSome = true ∨ c.windowSize.width ≠ 0 ∧ c.windowSize.height ≠ 0 := by
  rw [← Size.isEmpty_eq_false_iff]
  unfold override
  cases hsize : a.size with
  | none => simp
  | some size =>
    obtain ⟨text, hparse⟩ := ha.size size hsize
    simp [Size.isEmpty_of_parse hparse]

/-- A version given as an argument is read back from its text. -/
theorem parse_override (ha : a.Parsed) : GlVersion.parse (c.override a).version = .ok version ↔
    a.version = some version ∨ a.version = none ∧ GlVersion.parse c.version = .ok version := by
  unfold override
  cases hversion : a.version with
  | none => simp
  | some given =>
    obtain ⟨text, hparse⟩ := ha.version given hversion
    simp [GlVersion.parse_display (GlVersion.supported_of_parse hparse)]

theorem override_override (c : Settings) (a : Arguments) : (c.override a).override a = c.override a := by
  unfold override
  cases a.store <;> cases a.size <;> cases a.version <;> cases a.dumpSource <;> simp

/-- **What the options are, under settings and arguments.** -/
structure Resolves (c : Settings) (a : Arguments) (options : Window.Options) : Prop where
  size : options.windowSize = a.size.getD c.windowSize
  version : a.version = some options.version ∨ a.version = none ∧ GlVersion.parse c.version = .ok options.version
  store : options.store = ⟨a.store.getD c.storeRoot, c.shaderExtension, c.includeExtension⟩
  dumpPath : options.dumpPath = a.dumpSource.or c.dumpSource
  immediate : options.sync = .immediate ↔ a.noVsync = true ∨ c.vsync = false
  fullscreen : options.fullscreen = true ↔ a.fullscreen = true ∨ c.fullscreen = true

theorem resolves_of_options (ha : a.Parsed) (h : (c.override a).options = .ok options) : Resolves c a options := by
  obtain ⟨-, version, hversion, rfl⟩ := options_eq_ok_iff.1 h
  refine ⟨rfl, (parse_override ha).1 hversion, rfl, ?_, ?_, ?_⟩
  · simp [override]
  · cases hvsync : c.vsync <;> cases hno : a.noVsync <;> simp [override, hvsync, hno]
  · simp [override, or_comm]

/-- **Arguments mend the settings that they replace.**  Under parsed arguments, settings pass the check iff every field
is given or valid by itself; then and only then there are options, and they are the arguments where given and the
settings elsewhere, no size altered.  Laying the same arguments over twice is laying them over once. -/
theorem override_resolves (c : Settings) (a : Arguments) (ha : a.Parsed) :
    let merged := c.override a
    (merged.validate = .ok () ↔ (a.size.isSome = true ∨ c.windowSize.width ≠ 0 ∧ c.windowSize.height ≠ 0) ∧
      Proper c.shaderExtension ∧ Proper c.includeExtension ∧
      (a.version.isSome = true ∨ ∃ version, GlVersion.parse c.version = .ok version)) ∧
    ((∃ options, merged.options = .ok options) ↔ merged.validate = .ok ()) ∧
    (∀ options, merged.options = .ok options → Resolves c a options) ∧
    merged.override a = merged := by
  intro merged
  have hversion : (∃ version, GlVersion.parse merged.version = .ok version) ↔
      a.version.isSome = true ∨ ∃ version, GlVersion.parse c.version = .ok version := by
    simp only [merged, parse_override ha]
    cases a.version <;> simp
  refine ⟨?_, ?_, fun options h => resolves_of_options ha h, override_override c a⟩
  · rw [validate_eq_ok_iff, isEmpty_override ha, hversion]
    rfl
  · constructor
    · rintro ⟨options, h⟩
      exact (options_eq_ok_iff.1 h).1
    · intro hvalid
      obtain ⟨-, -, -, version, hparse⟩ := validate_eq_ok_iff.1 hvalid
      exact ⟨_, options_eq_ok_iff.2 ⟨hvalid, version, hparse, rfl⟩⟩

/-- Settings with a size and a version that are both refused. -/
def unusable : Settings := { windowSize := ⟨0, 720⟩, version := "2.1", vsync := false, dumpSource := some "out" }

/-- Arguments that replace both. -/
def mending : Arguments := { size := some ⟨640, 480⟩, version := some ⟨4, 5⟩, store := some "s", fullscreen := true }

theorem override_resolves_mending : mending.Parsed ∧ unusable.validate = .error (.zeroSize ⟨0, 720⟩) ∧
    ∃ options, (unusable.override mending).options = .ok options ∧ Resolves unusable mending options ∧
      options.windowSize = ⟨640, 480⟩ ∧ options.version = ⟨4, 5⟩ ∧ options.store = { root := "s" } ∧
      options.dumpPath = some "out" ∧ options.sync = .immediate ∧ options.fullscreen = true ∧
      (unusable.override mending).override mending = unusable.override mending := by
  have hsize : Size.parse " 640 X 480 " = .ok ⟨640, 480⟩ := by decide +kernel
  have hversion : GlVersion.parse "4.5" = .ok ⟨4, 5⟩ := by decide +kernel
  have hparsed : mending.Parsed :=
    ⟨fun z hz => ⟨_, Option.some.inj hz ▸ hsize⟩, fun v hv => ⟨_, Option.some.inj hv ▸ hversion⟩⟩
  have hproper : Proper "frag" ∧ Proper "glsl" :=
    ⟨⟨⟨'f', by simp, by decide⟩, by simp⟩, ⟨⟨'g', by simp, by decide⟩, by simp⟩⟩
  obtain ⟨hvalidates, hexists, hresolves, hagain⟩ := override_resolves unusable mending hparsed
  obtain ⟨options, hoptions⟩ := hexists.2 (hvalidates.2 ⟨.inl rfl, hproper.1, hproper.2, .inl rfl⟩)
  have hr := hresolves options hoptions
  refine ⟨hparsed, by decide +kernel, options, hoptions, hr, hr.size, ?_, hr.store, hr.dumpPath,
    hr.immediate.2 (.inr rfl), hr.fullscreen.2 (.inl rfl), hagain⟩
  obtain hgiven | ⟨hnone, -⟩ := hr.version
  · exact (Option.some.inj hgiven).symm
  · cases hnone

end Settings
end Config
end LiveShader
