import LiveShader.Proofs.Text.Search
/-!
# Proofs.Text.Lines — texts made of lines

Lines have no newline, so a text that is put together from lines is cut at its newlines into just these
(`splitOn_unlines_append`), and a marker without a newline stands in it where it stands in a line
(`isInfix_unlines_append`).
-/
namespace LiveShader
namespace Text

theorem unlines_cons (l : List Char) (ls : List (List Char)) : unlines (l :: ls) = l ++ '\n' :: unlines ls := by
  simp [unlines]

/-- Lines have no newline. -/
theorem newline_not_mem_lines {s l : List Char} (h : l ∈ lines s) : '\n' ∉ l := by
  induction s generalizing l with
  | nil => cases h
  | cons c cs ih =>
    unfold lines at h
    split at h
    · rcases List.mem_cons.1 h with rfl | h
      · exact List.not_mem_nil
      · exact ih h
    · next hc =>
      split at h
      · exact ih h
      · cases hls : lines cs with
        | nil =>
          rw [hls] at h
          rw [List.mem_singleton.1 h]
          simpa using Ne.symm hc
        | cons first rest =>
          rw [hls] at h ih
          rcases List.mem_cons.1 h with rfl | h
          · rw [List.mem_cons, not_or]
            exact ⟨Ne.symm hc, ih List.mem_cons_self⟩
          · exact ih (List.mem_cons_of_mem _ h)

/-- **Each line of a text that begins with lines is cut off whole.** -/
theorem splitOn_unlines_append {ls : List (List Char)} (h : ∀ l ∈ ls, '\n' ∉ l) (rest : List Char) :
    (unlines ls ++ rest).splitOn '\n' = ls ++ rest.splitOn '\n' := by
  induction ls with
  | nil => rfl
  | cons l ls ih =>
    have hl : '\n' ∉ l := h l List.mem_cons_self
    rw [unlines_cons, List.append_assoc, List.cons_append, List.splitOn_append_cons_self]
    rw [ih fun l hl => h l (List.mem_cons_of_mem _ hl)]
    rw [List.splitOn_eq_singleton hl]
    rfl

/-! ## Markers in texts of lines -/

section

variable {c : Char} {m a b : List Char}

/-- A marker stands behind a text that does not have its first character. -/
theorem isInfix_append_of_not_mem (h : c ∉ a) : c :: m <:+: a ++ b ↔ c :: m <:+: b := by
  induction a with
  | nil => rfl
  | cons d a ih =>
    rw [List.mem_cons, not_or] at h
    have hstart : ¬ c :: m <+: d :: (a ++ b) := fun hp => h.1 (List.cons_prefix_cons.1 hp).1
    rw [List.cons_append, List.infix_cons_iff, ih h.2]
    exact or_iff_right hstart

/-- A marker without a newline stands before a newline or behind it. -/
theorem isInfix_append_newline (hc : '\n' ∉ c :: m) :
    c :: m <:+: a ++ '\n' :: b ↔ c :: m <:+: a ∨ c :: m <:+: b := by
  induction a with
  | nil =>
    have hne : c ≠ '\n' := fun he => hc (he ▸ List.mem_cons_self)
    have hstart : ¬ c :: m <+: '\n' :: b := fun hp => hne (List.cons_prefix_cons.1 hp).1
    have hnil : ¬ c :: m <:+: [] := by simp
    rw [List.nil_append, List.infix_cons_iff]
    exact (or_iff_right hstart).trans (or_iff_right hnil).symm
  | cons d a ih =>
    have hstart : c :: m <+: d :: (a ++ '\n' :: b) ↔ c :: m <+: d :: a := by
      refine ⟨fun hp => ?_, fun hp => hp.trans (List.prefix_append (d :: a) ('\n' :: b))⟩
      obtain ⟨r, hr⟩ := hp
      have hr : (c :: m) ++ r = (d :: a) ++ ('\n' :: b) := hr
      rcases List.append_eq_append_iff.1 hr with ⟨u, hu, -⟩ | ⟨u, hu, hv⟩
      · exact ⟨u, hu.symm⟩
      · cases u with
        | nil => exact ⟨[], by simp [hu]⟩
        | cons x u =>
          obtain ⟨rfl, -⟩ := List.cons.inj hv
          exact absurd (hu ▸ List.mem_append_right _ List.mem_cons_self) hc
    rw [List.cons_append, List.infix_cons_iff, List.infix_cons_iff, hstart, ih, or_assoc]

/-- **A marker without a newline stands in a text of lines where it stands in a line.** -/
theorem isInfix_unlines_append (hc : '\n' ∉ c :: m) (ls : List (List Char)) :
    c :: m <:+: unlines ls ++ b ↔ (∃ l ∈ ls, c :: m <:+: l) ∨ c :: m <:+: b := by
  induction ls with
  | nil => simp [unlines]
  | cons l ls ih =>
    rw [unlines_cons, List.append_assoc, List.cons_append, isInfix_append_newline hc, ih, ← or_assoc]
    simp only [List.mem_cons, exists_eq_or_imp]

end

/-- A marker stands at the front of a text and nowhere else in it. -/
structure OnlyInFront (marker s : List Char) : Prop where
  front : marker <+: s
  nowhere_else : ∀ before rest, s = before ++ (marker ++ rest) → before = []

/-- A marker whose first character does not come again stands only in front if it does not stand behind itself. -/
theorem onlyInFront_append_iff {c : Char} {m s : List Char} (hc : c ∉ m) :
    OnlyInFront (c :: m) (c :: m ++ s) ↔ ¬ c :: m <:+: s := by
  constructor
  · rintro ⟨-, h⟩ ⟨b, r, rfl⟩
    have hs : c :: m ++ (b ++ (c :: m) ++ r) = (c :: m ++ b) ++ (c :: m ++ r) := by simp
    exact absurd (h _ _ hs) (by simp)
  · intro h
    refine ⟨List.prefix_append _ _, fun b r hs => ?_⟩
    cases b with
    | nil => rfl
    | cons d b =>
      have hbehind : m ++ s = b ++ (c :: m ++ r) := (List.cons.inj hs).2
      refine absurd ((isInfix_append_of_not_mem hc).1 ?_) h
      exact ⟨b, r, by rw [hbehind, List.append_assoc]⟩

/-- A marker whose first character does not come again stands first behind a text that it does not stand in. -/
theorem firstAt_append {c : Char} {m a rest : List Char} (hc : c ∉ m) (ha : ¬ c :: m <:+: a) :
    FirstAt (c :: m) (a ++ (c :: m ++ rest)) a rest := by
  refine ⟨rfl, fun b r hs => ?_⟩
  rcases List.append_eq_append_iff.1 hs with ⟨u, rfl, -⟩ | ⟨u, rfl, hu⟩
  · rw [List.length_append]
    exact Nat.le_add_right _ _
  · -- the two occurrences overlap, or the earlier one stands in `a`
    rcases List.append_eq_append_iff.1 hu with ⟨w, rfl, -⟩ | ⟨w, hw, hv⟩
    · exact absurd ⟨b, w, List.append_assoc b (c :: m) w⟩ ha
    · cases u with
      | nil => rw [List.append_nil]
      | cons d u =>
        obtain ⟨rfl, rfl⟩ := List.cons.inj hw
        cases w with
        | nil => exact absurd ⟨b, [], by simp⟩ ha
        | cons e w =>
          obtain ⟨rfl, -⟩ := List.cons.inj hv
          exact absurd (List.mem_append_right u List.mem_cons_self) hc

end Text
end LiveShader
