import LiveShader.Proofs.Text.Lines
/-!
# Proofs.Text.WholeLines — texts that end where a line ends

The lines of a text of whole lines and of what follows are the lines of both (`lines_append`).  Put together again they
are the text without the carriage returns that its newlines took along (`unlines_lines`).
-/
namespace LiveShader
namespace Text

/-- A text of whole lines is empty or ends in a newline. -/
def Whole (s : List Char) : Prop := s = [] ∨ ∃ front, s = front ++ ['\n']

/-- A text without the carriage return right before each newline, where there is one. -/
def dropReturns : List Char → List Char
  | [] => []
  | c :: cs => if c = '\r' ∧ cs.head? = some '\n' then dropReturns cs else c :: dropReturns cs

theorem whole_cons {c : Char} {cs : List Char} (h : Whole (c :: cs)) : (cs = [] ∧ c = '\n') ∨ (cs ≠ [] ∧ Whole cs) := by
  obtain h | ⟨front, hfront⟩ := h
  · cases h
  · cases front with
    | nil =>
      obtain ⟨rfl, rfl⟩ := List.cons.inj hfront
      exact .inl ⟨rfl, rfl⟩
    | cons d front =>
      obtain ⟨-, rfl⟩ := List.cons.inj hfront
      exact .inr ⟨by simp, .inr ⟨front, rfl⟩⟩

theorem whole_unlines (ls : List (List Char)) : Whole (unlines ls) := by
  induction ls with
  | nil => exact .inl rfl
  | cons l ls ih =>
    rw [unlines_cons]
    obtain h | ⟨front, h⟩ := ih
    · exact .inr ⟨l, by rw [h]⟩
    · exact .inr ⟨l ++ '\n' :: front, by rw [h, List.append_assoc, List.cons_append]⟩

/-! ## Lines of two texts -/

theorem lines_ne_nil : ∀ {s : List Char}, s ≠ [] → lines s ≠ []
  | [], h => absurd rfl h
  | c :: cs, _ => by
    rw [lines]
    split
    · exact List.cons_ne_nil _ _
    · split
      · next hreturn =>
        refine lines_ne_nil fun hnil => ?_
        rw [hnil] at hreturn
        cases hreturn.2
      · cases lines cs <;> exact List.cons_ne_nil _ _

theorem consLine_append {ls : List (List Char)} (h : ls ≠ []) (c : Char) (ms : List (List Char)) :
    consLine c (ls ++ ms) = consLine c ls ++ ms := by
  cases ls with
  | nil => exact absurd rfl h
  | cons l ls => rfl

/-- **What follows whole lines begins a line of its own.** -/
theorem lines_append {a : List Char} (h : Whole a) (b : List Char) : lines (a ++ b) = lines a ++ lines b := by
  induction a with
  | nil => rfl
  | cons c cs ih =>
    obtain ⟨rfl, rfl⟩ | ⟨hne, hwhole⟩ := whole_cons h
    · rw [List.cons_append, lines_newline, lines_newline]
      rfl
    · have hhead : (cs ++ b).head? = cs.head? := List.head?_append_of_ne_nil cs hne
      rw [List.cons_append, lines, lines, hhead, ih hwhole]
      split
      · rfl
      · split
        · rfl
        · exact consLine_append (lines_ne_nil hne) c _

/-- A line and its newline are one line, which may lose a carriage return at its end. -/
theorem lines_line {l : List Char} (h : '\n' ∉ l) : ∃ cut, lines (l ++ ['\n']) = [cut] ∧ cut <+: l := by
  induction l with
  | nil => exact ⟨[], lines_newline [], List.nil_prefix⟩
  | cons c cs ih =>
    rw [List.mem_cons, not_or] at h
    obtain ⟨cut, hcut, hprefix⟩ := ih h.2
    have hc : c ≠ '\n' := fun hc => h.1 hc.symm
    rw [List.cons_append, lines, if_neg hc, hcut]
    split
    · next hreturn =>
      obtain rfl : cs = [] := by
        cases cs with
        | nil => rfl
        | cons d cs =>
          obtain rfl : d = '\n' := by simpa using hreturn.2
          exact absurd List.mem_cons_self h.2
      obtain rfl : cut = [] := List.prefix_nil.1 hprefix
      exact ⟨[], rfl, List.nil_prefix⟩
    · exact ⟨c :: cut, rfl, List.cons_prefix_cons.2 ⟨rfl, hprefix⟩⟩

/-! ## A text and its lines -/

theorem unlines_consLine {ls : List (List Char)} (h : ls ≠ []) (c : Char) :
    unlines (consLine c ls) = c :: unlines ls := by
  cases ls with
  | nil => exact absurd rfl h
  | cons l ls => rw [consLine, unlines_cons, unlines_cons, List.cons_append]

/-- **Whole lines put together again** are the text without the carriage returns before its newlines. -/
theorem unlines_lines {s : List Char} (h : Whole s) : unlines (lines s) = dropReturns s := by
  induction s with
  | nil => rfl
  | cons c cs ih =>
    obtain ⟨rfl, rfl⟩ | ⟨hne, hwhole⟩ := whole_cons h
    · rfl
    · rw [lines, dropReturns]
      split
      · next hnewline =>
        have hkept : ¬ (c = '\r' ∧ cs.head? = some '\n') := by
          rintro ⟨hreturn, -⟩
          rw [hnewline] at hreturn
          exact absurd hreturn (by decide)
        rw [if_neg hkept, unlines_cons, ih hwhole, hnewline, List.nil_append]
      · split
        · exact ih hwhole
        · rw [unlines_consLine (lines_ne_nil hne), ih hwhole]

theorem dropReturns_of_not_mem {s : List Char} (h : '\r' ∉ s) : dropReturns s = s := by
  induction s with
  | nil => rfl
  | cons c cs ih =>
    rw [List.mem_cons, not_or] at h
    have hkept : ¬ (c = '\r' ∧ cs.head? = some '\n') := fun hreturn => h.1 hreturn.1.symm
    rw [dropReturns, if_neg hkept, ih h.2]

theorem isPrefix_of_head?_lines {s l : List Char} (h : (lines s).head? = some l) : l <+: s := by
  induction s generalizing l with
  | nil => cases h
  | cons c cs ih =>
    rw [lines] at h
    split at h
    · cases h
      exact List.nil_prefix
    · split at h
      · next hreturn =>
        -- the newline behind the carriage return leaves an empty first line
        obtain ⟨rest, rfl⟩ := List.head?_eq_some_iff.1 hreturn.2
        rw [lines_newline] at h
        cases h
        exact List.nil_prefix
      · cases hls : lines cs with
        | nil =>
          rw [hls] at h
          cases h
          exact List.cons_prefix_cons.2 ⟨rfl, List.nil_prefix⟩
        | cons first rest =>
          rw [hls] at h
          cases h
          exact List.cons_prefix_cons.2 ⟨rfl, ih (by rw [hls]; rfl)⟩

/-- A line of a text is the first one, or one of the text behind its first character. -/
theorem mem_lines_cons {c : Char} {cs l : List Char} (h : l ∈ lines (c :: cs)) :
    (lines (c :: cs)).head? = some l ∨ l ∈ lines cs := by
  by_cases hnewline : c = '\n'
  · subst hnewline
    rw [lines_newline] at h ⊢
    exact (List.mem_cons.1 h).imp (fun hl => by rw [hl]; rfl) id
  · by_cases hreturn : c = '\r' ∧ cs.head? = some '\n'
    · rw [lines, if_neg hnewline, if_pos hreturn] at h
      exact .inr h
    · rw [lines, if_neg hnewline, if_neg hreturn] at h ⊢
      cases hls : lines cs with
      | nil =>
        rw [hls] at h
        exact .inl (by rw [List.mem_singleton.1 h]; rfl)
      | cons first rest =>
        rw [hls] at h
        exact (List.mem_cons.1 h).imp (fun hl => by rw [hl]; rfl) (List.mem_cons_of_mem _)

/-- A line is a part of its text. -/
theorem isInfix_of_mem_lines {s l : List Char} (h : l ∈ lines s) : l <:+: s := by
  induction s with
  | nil => cases h
  | cons c cs ih =>
    obtain hfirst | hrest := mem_lines_cons h
    · exact (isPrefix_of_head?_lines hfirst).isInfix
    · exact List.infix_cons (ih hrest)

/-- A marker that stands in no line of a text of lines stands in no line that is cut from it. -/
theorem not_isInfix_of_mem_lines {c : Char} {m : List Char} (hc : '\n' ∉ c :: m) {ls : List (List Char)}
    (h : ∀ l ∈ ls, ¬ c :: m <:+: l) : ∀ l ∈ lines (unlines ls), ¬ c :: m <:+: l := by
  intro l hl hm
  have hwithin : c :: m <:+: unlines ls ++ [] := by
    rw [List.append_nil]
    exact hm.trans (isInfix_of_mem_lines hl)
  obtain ⟨l', hl', hm'⟩ | hnil := (isInfix_unlines_append hc ls).1 hwithin
  · exact h l' hl' hm'
  · exact absurd hnil (by simp)

end Text
end LiveShader
