import LiveShader.Proofs.Text.Numerals
import LiveShader.Size
/-!
# Proofs.Size — which texts are sizes

`Spells` says what the text of a size looks like, and just these texts are read (`parse_grammar`): all others are
refused, and the numbers of a size may be written with blanks around them and around the whole.
-/
namespace LiveShader
namespace Size

variable {size : Size} {text : String}

/-! ## Sizes without a zero -/

theorem isEmpty_eq_false_iff : size.isEmpty = false ↔ size.width ≠ 0 ∧ size.height ≠ 0 := by
  simp [isEmpty]

theorem atLeastOne_of_isEmpty (h : size.isEmpty = false) : size.atLeastOne = size := by
  obtain ⟨hwidth, hheight⟩ := isEmpty_eq_false_iff.1 h
  have hw : max size.width 1 = size.width := Nat.max_eq_left (Nat.one_le_iff_ne_zero.2 hwidth)
  have hh : max size.height 1 = size.height := Nat.max_eq_left (Nat.one_le_iff_ne_zero.2 hheight)
  rw [atLeastOne, hw, hh]

/-! ## The texts of a size -/

/-- The texts before and after the first `x` or `X` of another, without the blanks at its ends. -/
structure Halves (text : String) (a b : List Char) : Prop where
  mark : ∃ c, (c = 'x' ∨ c = 'X') ∧ Text.Trimmed text.toList (a ++ c :: b)
  first : 'x' ∉ a ∧ 'X' ∉ a

/-- A text that spells a size: in each half a numeral between blanks, not zero and of 32 bits at most. -/
structure Spells (text : String) (size : Size) : Prop where
  numerals : ∃ a b w h, Halves text a b ∧ Text.Trimmed a w ∧ Text.Trimmed b h ∧ Text.Numeral w size.width ∧
    Text.Numeral h size.height
  width : 1 ≤ size.width ∧ size.width ≤ 4294967295
  height : 1 ≤ size.height ∧ size.height ≤ 4294967295

theorem cutAt?_eq_some_iff_halves {a b : List Char} :
    Text.cutAt? (fun c => c == 'x' || c == 'X') (Text.trimChars text.toList) = some (a, b) ↔ Halves text a b := by
  have hplain : (∀ d ∈ a, (d == 'x' || d == 'X') = false) ↔ 'x' ∉ a ∧ 'X' ∉ a := by
    simp only [Bool.or_eq_false_iff, beq_eq_false_iff_ne]
    constructor
    · intro h
      exact ⟨fun hx => (h 'x' hx).1 rfl, fun hx => (h 'X' hx).2 rfl⟩
    · rintro ⟨hx, hX⟩ d hd
      exact ⟨fun he => hx (he ▸ hd), fun he => hX (he ▸ hd)⟩
  rw [Text.cutAt?_eq_some_iff]
  simp only [hplain, Bool.or_eq_true, beq_iff_eq, Text.trimChars_eq_iff]
  constructor
  · rintro ⟨c, htrim, hc, hfirst⟩
    exact ⟨⟨c, hc, htrim⟩, hfirst⟩
  · rintro ⟨⟨c, hc, htrim⟩, hfirst⟩
    exact ⟨c, htrim, hc, hfirst⟩

/-- **A text is read as the size that it spells.** -/
theorem parse_eq_ok_iff : parse text = .ok size ↔ Spells text size := by
  unfold parse
  constructor
  · intro h
    dsimp only at h
    split at h
    · cases h
    · next a b hcut =>
      split at h
      · cases h
      · cases h
      · next width height hwidth hheight =>
        split at h
        · cases h
        · next hsize =>
          obtain rfl := Except.ok.inj h
          obtain ⟨hw, hwidth⟩ := Text.numeral?_eq_some_iff.1 hwidth
          obtain ⟨hh, hheight⟩ := Text.numeral?_eq_some_iff.1 hheight
          obtain ⟨hpos, hpos'⟩ := isEmpty_eq_false_iff.1 (Bool.eq_false_iff.2 hsize)
          exact ⟨⟨a, b, _, _, cutAt?_eq_some_iff_halves.1 hcut, Text.trimChars_eq_iff.1 rfl, Text.trimChars_eq_iff.1 rfl,
            hw, hh⟩, ⟨Nat.pos_of_ne_zero hpos, hwidth⟩, ⟨Nat.pos_of_ne_zero hpos', hheight⟩⟩
  · rintro ⟨⟨a, b, w, h, hhalves, hw, hh, hwidth, hheight⟩, ⟨hpos, hle⟩, hpos', hle'⟩
    have hsize : size.isEmpty = false := isEmpty_eq_false_iff.2 ⟨by omega, by omega⟩
    have hread : Text.numeral? Text.limit32 w = some size.width := Text.numeral?_eq_some_iff.2 ⟨hwidth, hle⟩
    have hread' : Text.numeral? Text.limit32 h = some size.height := Text.numeral?_eq_some_iff.2 ⟨hheight, hle'⟩
    simp only [cutAt?_eq_some_iff_halves.2 hhalves, Text.trimChars_eq_iff.2 hw, Text.trimChars_eq_iff.2 hh, hread, hread',
      hsize, Bool.false_eq_true, if_false]

/-- A size that was parsed has no zero dimension. -/
theorem isEmpty_of_parse (h : parse text = .ok size) : size.isEmpty = false := by
  obtain ⟨-, ⟨hwidth, -⟩, hheight, -⟩ := parse_eq_ok_iff.1 h
  exact isEmpty_eq_false_iff.2 ⟨by omega, by omega⟩

/-! ## Sizes that are written -/

/-- The text of a number and the blanks behind it have no mark. -/
theorem mark_not_mem {c : Char} (hc : c = 'x' ∨ c = 'X') (n : Nat) {blanks : List Char}
    (hblanks : ∀ d ∈ blanks, Text.isBlank d = true) : c ∉ (toString n).toList ++ blanks := by
  have hdigit : c.isDigit = false := by obtain rfl | rfl := hc <;> decide
  have hblank : Text.isBlank c = false := by obtain rfl | rfl := hc <;> decide
  rw [List.mem_append, not_or]
  refine ⟨Text.not_mem_toString hdigit n, fun hmem => ?_⟩
  rw [hblanks c hmem] at hblank
  cases hblank

/-- **The two numbers around a mark spell the size**, with any blanks around each of them and around the whole. -/
theorem spells_written {c : Char} {front before behind back : String} (hc : c = 'x' ∨ c = 'X')
    (hwidth : 1 ≤ size.width ∧ size.width ≤ 4294967295) (hheight : 1 ≤ size.height ∧ size.height ≤ 4294967295)
    (hblanks : ∀ s ∈ [front, before, behind, back], ∀ d ∈ s.toList, Text.isBlank d = true) :
    Spells (front ++ toString size.width ++ before ++ String.singleton c ++ behind ++ toString size.height ++ back)
      size := by
  simp only [List.forall_mem_cons, List.not_mem_nil, false_imp_iff, implies_true, and_true] at hblanks
  obtain ⟨hfront, hbefore, hbehind, hback⟩ := hblanks
  have hnil : ∀ d ∈ ([] : List Char), Text.isBlank d = true := by simp
  have hdigits : ∀ n : Nat, ∀ d ∈ (toString n).toList, d.isDigit = true := fun n d hd => Text.isDigit_of_mem_toString hd
  refine ⟨⟨(toString size.width).toList ++ before.toList, behind.toList ++ (toString size.height).toList,
    (toString size.width).toList, (toString size.height).toList, ⟨⟨c, hc, ?_⟩, ?_⟩, ?_, ?_, .inl (Text.digits_toString _),
    .inl (Text.digits_toString _)⟩, hwidth, hheight⟩
  · have h := @Text.trimmed_of_numbers size.width size.height front.toList (before.toList ++ c :: behind.toList)
      back.toList hfront hback
    simpa only [String.toList_append, String.toList_singleton, List.append_assoc, List.cons_append, List.nil_append] using h
  · exact ⟨mark_not_mem (.inl rfl) _ hbefore, mark_not_mem (.inr rfl) _ hbefore⟩
  · exact Text.trimmed_of_digits hnil hbefore (fun d hd => hdigits _ d (List.mem_of_mem_head? hd))
      fun d hd => hdigits _ d (List.mem_of_mem_getLast? hd)
  · have h := @Text.trimmed_of_digits behind.toList (toString size.height).toList [] hbehind hnil
      (fun d hd => hdigits _ d (List.mem_of_mem_head? hd)) fun d hd => hdigits _ d (List.mem_of_mem_getLast? hd)
    rwa [List.append_nil] at h

/-- **Every text is read as the size that it spells, and refused if it spells none**; a size within the bounds is read
from its numbers around an `x` or `X`, whatever blanks there are around them and around the whole. -/
theorem parse_grammar (text : String) :
    (∀ size, parse text = .ok size ↔ Spells text size) ∧
    ((∃ e, parse text = .error e) ↔ ∀ size, ¬ Spells text size) ∧
    ∀ (size : Size) (c : Char) (front before behind back : String), c = 'x' ∨ c = 'X' →
      (1 ≤ size.width ∧ size.width ≤ 4294967295) → (1 ≤ size.height ∧ size.height ≤ 4294967295) →
      (∀ s ∈ [front, before, behind, back], ∀ d ∈ s.toList, Text.isBlank d = true) →
        parse (front ++ toString size.width ++ before ++ String.singleton c ++ behind ++ toString size.height ++ back) =
          .ok size := by
  refine ⟨fun size => parse_eq_ok_iff, ?_, fun size c front before behind back hc hwidth hheight hblanks => ?_⟩
  · simp only [← parse_eq_ok_iff]
    cases parse text <;> simp
  · exact parse_eq_ok_iff.2 (spells_written hc hwidth hheight hblanks)

/-- The largest width, with blanks everywhere. -/
theorem parse_grammar_spread :
    parse ("\t" ++ toString (4294967295 : Nat) ++ " " ++ String.singleton 'X' ++ "  " ++ toString (1 : Nat) ++ "\n") =
      .ok ⟨4294967295, 1⟩ :=
  (parse_grammar "").2.2 ⟨4294967295, 1⟩ 'X' "\t" " " "  " "\n" (.inr rfl) (by decide) (by decide)
    (by simp [Text.isBlank])

end Size
end LiveShader
