import LiveShader.GlVersion
import LiveShader.Proofs.Text.Numerals
import Mathlib.Data.Prod.Lex
/-!
# Proofs.GlVersion — which texts are versions

`Spells` says what the text of a version looks like.  A text that spells none is malformed, one that spells a version
below 3.3 is too old, and any other is read as what it spells (`parse_classifies`).  A version that some text was read as
is within the bounds (`supported_of_parse`); one within them is read from the text that it is written as
(`parse_display`) and is told by the number in its pragma (`directive_inj`).
-/
namespace LiveShader
namespace GlVersion

variable {v w : GlVersion} {text : String}

/-- A version with numbers that can be read and that is not too old. -/
structure Supported (v : GlVersion) : Prop where
  major_le : v.major ≤ Text.limit8
  minor_le : v.minor ≤ 9
  recent : v.older minimum = false

/-- A text that spells a version: between blanks, two numerals around a dot, within the bounds. -/
structure Spells (text : String) (v : GlVersion) : Prop where
  numerals : ∃ a b, Text.Trimmed text.toList (a ++ '.' :: b) ∧ Text.Numeral a v.major ∧ Text.Numeral b v.minor
  major_le : v.major ≤ 255
  minor_le : v.minor ≤ 9

/-- **Reading a text finds what it spells.** -/
theorem ofChars?_eq_some_iff : ofChars? text.toList = some v ↔ Spells text v := by
  constructor
  · intro h
    obtain ⟨⟨a, b⟩, hcut, h⟩ := Option.bind_eq_some_iff.1 h
    obtain ⟨major, hmajor, h⟩ := Option.bind_eq_some_iff.1 h
    obtain ⟨minor, hminor, h⟩ := Option.bind_eq_some_iff.1 h
    obtain rfl := Option.some.inj h
    obtain ⟨c, htrim, hc, -⟩ := Text.cutAt?_eq_some_iff.1 hcut
    obtain rfl := eq_of_beq hc
    obtain ⟨ha, hmajor⟩ := Text.numeral?_eq_some_iff.1 hmajor
    obtain ⟨hb, hminor⟩ := Text.numeral?_eq_some_iff.1 hminor
    exact ⟨⟨a, b, Text.trimChars_eq_iff.1 htrim, ha, hb⟩, hmajor, hminor⟩
  · rintro ⟨⟨a, b, htrim, ha, hb⟩, hmajor, hminor⟩
    -- a numeral has no dot, so the dot behind the first one is where the text is cut
    have hplain : ∀ c ∈ a, (c == '.') = false := by
      intro c hc
      rw [beq_eq_false_iff_ne]
      rintro rfl
      obtain hsign | hdigit := ha.mem hc
      · exact absurd hsign (by decide)
      · exact absurd hdigit (by decide)
    have hcut : Text.cutAt? (· == '.') (Text.trimChars text.toList) = some (a, b) := by
      rw [Text.trimChars_eq_iff.2 htrim]
      exact Text.cutAt?_append hplain rfl
    have hread : Text.numeral? Text.limit8 a = some v.major := Text.numeral?_eq_some_iff.2 ⟨ha, hmajor⟩
    have hread' : Text.numeral? 9 b = some v.minor := Text.numeral?_eq_some_iff.2 ⟨hb, hminor⟩
    simp only [ofChars?, hcut, hread, hread', Option.bind_eq_bind, Option.bind_some, Option.pure_def]

/-! ## The three outcomes -/

theorem older_iff : v.older w = true ↔ toLex (v.major, v.minor) < toLex (w.major, w.minor) := by
  rw [Prod.Lex.toLex_lt_toLex, older]
  simp only [Bool.or_eq_true, Bool.and_eq_true, decide_eq_true_eq, beq_iff_eq]

theorem not_older_iff : v.older w = false ↔ toLex (w.major, w.minor) ≤ toLex (v.major, v.minor) := by
  rw [← not_lt, ← older_iff, Bool.not_eq_true]

theorem parse_eq_ok_iff : parse text = .ok v ↔ ofChars? text.toList = some v ∧ v.older minimum = false := by
  unfold parse
  constructor
  · intro h
    split at h
    · cases h
    · next w hw =>
      split at h
      · cases h
      · next hrecent =>
        obtain rfl := Except.ok.inj h
        exact ⟨hw, Bool.eq_false_iff.2 hrecent⟩
  · rintro ⟨h, hrecent⟩
    simp only [h, hrecent, Bool.false_eq_true, if_false]

theorem parse_eq_tooOld_iff :
    parse text = .error (.tooOld v) ↔ ofChars? text.toList = some v ∧ v.older minimum = true := by
  unfold parse
  constructor
  · intro h
    split at h
    · cases h
    · next w hw =>
      split at h
      · next hold =>
        obtain rfl := ParseError.tooOld.inj (Except.error.inj h)
        exact ⟨hw, hold⟩
      · cases h
  · rintro ⟨h, hold⟩
    simp only [h, hold, if_true]

theorem parse_eq_malformed_iff {s : String} :
    parse text = .error (.malformed s) ↔ s = text ∧ ofChars? text.toList = none := by
  unfold parse
  constructor
  · intro h
    split at h
    · next hnone => exact ⟨(ParseError.malformed.inj (Except.error.inj h)).symm, hnone⟩
    · split at h <;> cases h
  · rintro ⟨rfl, h⟩
    simp only [h]

theorem parseArgument_eq_ok_iff : parseArgument text = .ok v ↔ parse text = .ok v := by
  unfold parseArgument
  cases parse text <;> simp [Except.mapError]

/-- **What a text is read as is supported.** -/
theorem supported_of_parse (h : parse text = .ok v) : v.Supported := by
  obtain ⟨hread, hrecent⟩ := parse_eq_ok_iff.1 h
  have hspells := ofChars?_eq_some_iff.1 hread
  exact ⟨hspells.major_le, hspells.minor_le, hrecent⟩

/-! ## Versions that are written -/

theorem display_toList (v : GlVersion) :
    v.display.toList = (toString v.major).toList ++ '.' :: (toString v.minor).toList := by
  unfold display
  rw [String.toList_append, String.toList_append, List.append_assoc]
  rfl

theorem trimmed_display (v : GlVersion) : Text.Trimmed v.display.toList v.display.toList := by
  have h := @Text.trimmed_of_numbers v.major v.minor [] ['.'] [] (by simp) (by simp)
  rwa [List.nil_append, List.append_nil, List.singleton_append, ← display_toList] at h

/-- A version within the bounds is spelled by the text that it is written as. -/
theorem spells_display (hmajor : v.major ≤ 255) (hminor : v.minor ≤ 9) : Spells v.display v where
  numerals := by
    refine ⟨(toString v.major).toList, (toString v.minor).toList, ?_, .inl (Text.digits_toString _),
      .inl (Text.digits_toString _)⟩
    rw [← display_toList]
    exact trimmed_display v
  major_le := hmajor
  minor_le := hminor

/-- **A supported version is read from the text that it is written as.** -/
theorem parse_display (h : v.Supported) : parse v.display = .ok v :=
  parse_eq_ok_iff.2 ⟨ofChars?_eq_some_iff.2 (spells_display h.major_le h.minor_le), h.recent⟩

/-! ## The number in the pragma -/

/-- The major number, the minor one and a zero, one behind the other, write one number. -/
theorem toString_number (hmajor : 0 < v.major) (hminor : v.minor < 10) :
    toString v.major ++ toString v.minor ++ "0" = toString (100 * v.major + 10 * v.minor) := by
  have hsum : 100 * v.major + 10 * v.minor = 10 * (10 * v.major + v.minor) + 0 := by omega
  have hzero : "0".toList = Nat.toDigits 10 0 := by decide
  rw [← String.toList_inj, String.toList_append, String.toList_append, Text.toList_toString, Text.toList_toString,
    Text.toList_toString, hzero, hsum, Nat.toDigits_append_toDigits (by decide) hmajor hminor,
    Nat.toDigits_append_toDigits (by decide) (by omega) (by decide)]

theorem Supported.major_pos (h : v.Supported) : 0 < v.major := by
  have hrecent := Prod.Lex.toLex_le_toLex.1 (not_older_iff.1 h.recent)
  simp only [minimum] at hrecent
  omega

/-- The pragma of a supported version names one number. -/
theorem directive_eq (h : v.Supported) :
    v.directive = "#version " ++ toString (100 * v.major + 10 * v.minor) ++ " core" := by
  rw [← toString_number h.major_pos (Nat.lt_succ_of_le h.minor_le), directive]
  simp only [String.append_assoc]
  rfl

/-- **Supported versions with the same pragma are the same.** -/
theorem directive_inj (hv : v.Supported) (hw : w.Supported) (h : v.directive = w.directive) : v = w := by
  have hnumbers : 100 * v.major + 10 * v.minor = 100 * w.major + 10 * w.minor := by
    rw [directive_eq hv, directive_eq hw] at h
    exact Text.toString_inj ((String.append_right_inj _).1 ((String.append_left_inj _).1 h))
  have hminor := hv.minor_le
  have hminor' := hw.minor_le
  obtain ⟨major, minor⟩ := v
  obtain ⟨major', minor'⟩ := w
  simp only [GlVersion.mk.injEq] at *
  omega

/-- **Every text is read as the version that it spells, refused as too old if that is below 3.3, and malformed if it
spells none.**  A version that is read is read again from its own text, and its pragma tells it from all others. -/
theorem parse_classifies (text : String) :
    (∀ v, parse text = .ok v ↔ Spells text v ∧ toLex (3, 3) ≤ toLex (v.major, v.minor)) ∧
    (∀ v, parse text = .error (.tooOld v) ↔ Spells text v ∧ toLex (v.major, v.minor) < toLex (3, 3)) ∧
    (∀ s, parse text = .error (.malformed s) ↔ s = text ∧ ∀ v, ¬ Spells text v) ∧
    (∀ v, parseArgument text = .ok v ↔ parse text = .ok v) ∧
    ∀ v, parse text = .ok v →
      parse v.display = .ok v ∧
      v.directive = "#version " ++ toString (100 * v.major + 10 * v.minor) ++ " core" ∧
      ∀ other w, parse other = .ok w → v.directive = w.directive → v = w := by
  refine ⟨fun v => ?_, fun v => ?_, fun s => ?_, fun v => parseArgument_eq_ok_iff, fun v hv => ⟨?_, ?_, ?_⟩⟩
  · rw [parse_eq_ok_iff, ofChars?_eq_some_iff, not_older_iff, minimum]
  · rw [parse_eq_tooOld_iff, ofChars?_eq_some_iff, older_iff, minimum]
  · simp only [parse_eq_malformed_iff, ← ofChars?_eq_some_iff, Option.eq_none_iff_forall_ne_some, ne_eq]
  · exact parse_display (supported_of_parse hv)
  · exact directive_eq (supported_of_parse hv)
  · exact fun other w hw => directive_inj (supported_of_parse hv) (supported_of_parse hw)

/-- A text with blanks, signs and leading zeros. -/
theorem parse_classifies_signed : parse " +04.+06\n" = .ok ⟨4, 6⟩ ∧
    parse (display ⟨4, 6⟩) = .ok ⟨4, 6⟩ ∧
    directive ⟨4, 6⟩ = "#version " ++ toString (100 * 4 + 10 * 6) ++ " core" ∧
    ∀ other w, parse other = .ok w → directive ⟨4, 6⟩ = w.directive → ⟨4, 6⟩ = w :=
  have hread : parse " +04.+06\n" = .ok ⟨4, 6⟩ := by decide
  ⟨hread, (parse_classifies _).2.2.2.2 _ hread⟩

end GlVersion
end LiveShader
