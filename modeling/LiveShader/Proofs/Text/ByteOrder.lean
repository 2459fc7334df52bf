import Mathlib.Data.Char
/-!
# Proofs.Text.ByteOrder — texts in the order of their characters are in the order of their bytes

The encoding of a greater character is greater at the first byte in which the two differ, and there is one such byte.
A text is what its bytes encode (`fromUTF8?_toUTF8`).
-/
namespace LiveShader
namespace Text

/-- The bytes of a text, in order. -/
def bytes (s : String) : List UInt8 := s.toUTF8.data.toList

theorem bytes_eq_flatMap (s : String) : bytes s = s.toList.flatMap String.utf8EncodeChar := by
  unfold bytes
  rw [String.toUTF8_eq_toByteArray, ← String.utf8Encode_toList, List.utf8Encode, List.data_toByteArray]

theorem fromUTF8?_toUTF8 (s : String) : String.fromUTF8? s.toUTF8 = some s := by
  unfold String.fromUTF8?
  rw [dif_pos (show s.toUTF8.IsValidUTF8 from s.isValidUTF8)]
  rfl

theorem byte_lt {m n : Nat} (hm : m < 256) (hn : n < 256) : UInt8.ofNat m < UInt8.ofNat n ↔ m < n := by
  rw [UInt8.lt_iff_toNat_lt, UInt8.toNat_ofNat_of_lt' hm, UInt8.toNat_ofNat_of_lt' hn]

theorem byte_inj {m n : Nat} (hm : m < 256) (hn : n < 256) : UInt8.ofNat m = UInt8.ofNat n ↔ m = n := by
  rw [← UInt8.toNat_inj, UInt8.toNat_ofNat_of_lt' hm, UInt8.toNat_ofNat_of_lt' hn]

/-- A number by its last six bits and the others. -/
theorem exists_digit (n : Nat) : ∃ a x, x < 64 ∧ n = 64 * a + x := ⟨n / 64, n % 64, by omega, by omega⟩

theorem digit_div {a x : Nat} (hx : x < 64) : (64 * a + x) / 64 = a := by omega

theorem digit_mod {a x : Nat} (hx : x < 64) : (64 * a + x) % 64 = x := by omega

/-- The encoding of a greater character is greater, whatever follows. -/
theorem encode_append_lt {c d : Char} (h : c < d) (s t : List UInt8) :
    String.utf8EncodeChar c ++ s < String.utf8EncodeChar d ++ t := by
  have hlt : c.val.toNat < d.val.toNat := h
  have hvalid : d.val.toNat ≤ 1114111 := by
    have hd : Nat.isValidChar d.val.toNat := d.valid
    unfold Nat.isValidChar at hd
    omega
  unfold String.utf8EncodeChar
  generalize c.val.toNat = m at *
  generalize d.val.toNat = n at *
  have hshift : ∀ k : Nat, k / 4096 = k / 64 / 64 ∧ k / 262144 = k / 64 / 64 / 64 := by
    intro k
    simp only [Nat.div_div_eq_div_mul, and_self]
  simp only [hshift]
  obtain ⟨m, m₀, hm₀, rfl⟩ := exists_digit m
  obtain ⟨m, m₁, hm₁, rfl⟩ := exists_digit m
  obtain ⟨m, m₂, hm₂, rfl⟩ := exists_digit m
  obtain ⟨n, n₀, hn₀, rfl⟩ := exists_digit n
  obtain ⟨n, n₁, hn₁, rfl⟩ := exists_digit n
  obtain ⟨n, n₂, hn₂, rfl⟩ := exists_digit n
  simp only [digit_div, digit_mod, hm₀, hm₁, hm₂, hn₀, hn₁, hn₂]
  split_ifs
  all_goals
    simp (disch := omega) only [List.cons_append, List.nil_append, List.cons_lt_cons_iff, byte_lt, byte_inj]
    omega

/-- **Texts in the order of their characters are in the order of their bytes.** -/
theorem bytes_lt {a b : String} (h : a < b) : bytes a < bytes b := by
  have hlists : ∀ {l l' : List Char}, l < l' → l.flatMap String.utf8EncodeChar < l'.flatMap String.utf8EncodeChar := by
    intro l l' hl
    induction hl with
    | @nil d l' =>
      obtain ⟨x, rest, hx⟩ := List.exists_cons_of_ne_nil (String.utf8EncodeChar_ne_nil (c := d))
      rw [List.flatMap_cons, hx]
      exact List.nil_lt_cons _ _
    | rel hcd =>
      rw [List.flatMap_cons, List.flatMap_cons]
      exact encode_append_lt hcd _ _
    | cons _ ih =>
      rw [List.flatMap_cons, List.flatMap_cons]
      exact List.append_left_lt ih
  rw [bytes_eq_flatMap, bytes_eq_flatMap]
  exact hlists h

end Text
end LiveShader
