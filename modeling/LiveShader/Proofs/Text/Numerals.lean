import LiveShader.Proofs.Text.Search
import LiveShader.Text.Numeral
/-!
# Proofs.Text.Numerals — what the numerals are

`Numeral` says what the numerals are without reading them; the reader takes just these, up to its bound
(`numeral?_eq_some_iff`).  A number is written as digits that have its value (`digits_toString`), so its text is a numeral
that is read back, and blanks around it are trimmed (`trimmed_of_digits`).
-/
namespace LiveShader
namespace Text

variable {c : Char} {limit n : Nat}

/-- Digits, at least one, that write a number. -/
structure Digits (cs : List Char) (n : Nat) : Prop where
  nonempty : cs ≠ []
  digits : ∀ c ∈ cs, c.isDigit = true
  value : Nat.ofDigitChars 10 cs 0 = n

/-- Digits with a plus sign in front or none. -/
def Numeral (cs : List Char) (n : Nat) : Prop := Digits cs n ∨ ∃ ds, cs = '+' :: ds ∧ Digits ds n

/-- A numeral has a sign and digits only. -/
theorem Numeral.mem {cs : List Char} (h : Numeral cs n) (hc : c ∈ cs) : c = '+' ∨ c.isDigit = true := by
  obtain h | ⟨ds, rfl, h⟩ := h
  · exact .inr (h.digits c hc)
  · exact (List.mem_cons.1 hc).imp_right (h.digits c)

/-! ## Reading -/

theorem digit?_of_isDigit (h : c.isDigit = true) : digit? c = some (c.toNat - '0'.toNat) := by
  have hrange : '0' ≤ c ∧ c ≤ '9' := by
    simpa [Char.isDigit, Char.le_def] using h
  rw [digit?, if_pos hrange]

theorem isDigit_of_digit? {d : Nat} (h : digit? c = some d) : c.isDigit = true := by
  unfold digit? at h
  split at h
  · next hrange => simpa [Char.isDigit, Char.le_def] using hrange
  · cases h

/-- **Digits behind others have the value of all of them.** -/
theorem digitsFrom?_of_isDigit : ∀ (cs : List Char) (acc : Nat), (∀ c ∈ cs, c.isDigit = true) →
    digitsFrom? acc cs = some (Nat.ofDigitChars 10 cs acc)
  | [], _, _ => rfl
  | c :: cs, acc, h => by
    rw [digitsFrom?, digit?_of_isDigit (h c List.mem_cons_self), Option.bind_some, Nat.ofDigitChars_cons]
    exact digitsFrom?_of_isDigit cs _ fun d hd => h d (List.mem_cons_of_mem c hd)

theorem isDigit_of_digitsFrom? {cs : List Char} {acc : Nat} (h : digitsFrom? acc cs = some n) :
    ∀ c ∈ cs, c.isDigit = true := by
  induction cs generalizing acc with
  | nil => simp
  | cons c cs ih =>
    obtain ⟨d, hd, hrest⟩ := Option.bind_eq_some_iff.1 h
    exact List.forall_mem_cons.2 ⟨isDigit_of_digit? hd, ih hrest⟩

theorem digits?_eq_some_iff {cs : List Char} : digits? cs = some n ↔ Digits cs n := by
  cases cs with
  | nil =>
    constructor
    · intro h
      cases h
    · intro h
      exact absurd rfl h.nonempty
  | cons c cs =>
    rw [show digits? (c :: cs) = digitsFrom? 0 (c :: cs) from rfl]
    constructor
    · intro h
      have hdigits := isDigit_of_digitsFrom? h
      rw [digitsFrom?_of_isDigit _ _ hdigits] at h
      exact ⟨List.cons_ne_nil _ _, hdigits, Option.some.inj h⟩
    · rintro ⟨-, hdigits, hvalue⟩
      rw [digitsFrom?_of_isDigit _ _ hdigits, hvalue]

theorem dropPlus_of_isDigit {cs : List Char} (h : ∀ c ∈ cs, c.isDigit = true) : dropPlus cs = cs := by
  unfold dropPlus
  split
  · cases h '+' List.mem_cons_self
  · rfl

theorem digits_dropPlus_iff {cs : List Char} : Digits (dropPlus cs) n ↔ Numeral cs n := by
  constructor
  · intro h
    unfold dropPlus at h
    split at h
    · exact .inr ⟨_, rfl, h⟩
    · exact .inl h
  · rintro (h | ⟨ds, rfl, h⟩)
    · rwa [dropPlus_of_isDigit h.digits]
    · exact h

/-- **The reader takes the numerals up to its bound**, each as the number that its digits write. -/
theorem numeral?_eq_some_iff {cs : List Char} : numeral? limit cs = some n ↔ Numeral cs n ∧ n ≤ limit := by
  unfold numeral?
  rw [Option.bind_eq_some_iff]
  simp only [digits?_eq_some_iff, digits_dropPlus_iff]
  constructor
  · rintro ⟨m, hm, h⟩
    split at h
    · next hle =>
      obtain rfl := Option.some.inj h
      exact ⟨hm, hle⟩
    · cases h
  · rintro ⟨h, hle⟩
    exact ⟨n, h, if_pos hle⟩

/-! ## Numbers that are written -/

theorem toList_toString (n : Nat) : (toString n).toList = Nat.toDigits 10 n := by
  rw [Nat.toString_eq_ofList_toDigits, String.toList_ofList]

theorem isDigit_of_mem_toString (h : c ∈ (toString n).toList) : c.isDigit = true := by
  rw [toList_toString] at h
  exact Nat.isDigit_of_mem_toDigits (by decide) (by decide) h

theorem not_mem_toString (h : c.isDigit = false) (n : Nat) : c ∉ (toString n).toList := by
  intro hc
  rw [isDigit_of_mem_toString hc] at h
  cases h

theorem toString_toList_ne_nil (n : Nat) : (toString n).toList ≠ [] := by
  rw [toList_toString]
  exact Nat.toDigits_ne_nil

theorem digits_toString (n : Nat) : Digits (toString n).toList n where
  nonempty := toString_toList_ne_nil n
  digits _ hc := isDigit_of_mem_toString hc
  value := by rw [toList_toString, Nat.ofDigitChars_ten_toDigits]

theorem toString_inj {m : Nat} (h : toString m = toString n) : m = n := by
  rw [← (digits_toString m).value, h, (digits_toString n).value]

/-! ## Trimming -/

theorem isBlank_of_isDigit (h : c.isDigit = true) : isBlank c = false := by
  have hrange : 48 ≤ c.toNat ∧ c.toNat ≤ 57 := by
    simpa [Char.isDigit, UInt32.le_iff_toNat_le] using h
  simp only [isBlank, Bool.or_eq_false_iff, Bool.and_eq_false_iff, decide_eq_false_iff_not, beq_eq_false_iff_ne]
  omega

/-- A text that begins and ends with a digit is what is left when the blanks around it are trimmed. -/
theorem trimmed_of_digits {front t back : List Char} (hfront : ∀ c ∈ front, isBlank c = true)
    (hback : ∀ c ∈ back, isBlank c = true) (hhead : ∀ c ∈ t.head?, c.isDigit = true)
    (hlast : ∀ c ∈ t.getLast?, c.isDigit = true) : Trimmed (front ++ (t ++ back)) t where
  blanks := ⟨front, back, rfl, hfront, hback⟩
  head c hc := isBlank_of_isDigit (hhead c hc)
  last c hc := isBlank_of_isDigit (hlast c hc)

/-- Two numbers with some text between them begin and end with a digit. -/
theorem trimmed_of_numbers (m n : Nat) {front between back : List Char} (hfront : ∀ c ∈ front, isBlank c = true)
    (hback : ∀ c ∈ back, isBlank c = true) :
    Trimmed (front ++ (((toString m).toList ++ (between ++ (toString n).toList)) ++ back))
      ((toString m).toList ++ (between ++ (toString n).toList)) := by
  refine trimmed_of_digits hfront hback (fun c hc => ?_) fun c hc => ?_
  · rw [List.head?_append_of_ne_nil _ (toString_toList_ne_nil m)] at hc
    exact isDigit_of_mem_toString (List.mem_of_mem_head? hc)
  · rw [← List.append_assoc, List.getLast?_append_of_ne_nil _ (toString_toList_ne_nil n)] at hc
    exact isDigit_of_mem_toString (List.mem_of_mem_getLast? hc)

end Text
end LiveShader
