import LiveShader.Proofs.Source.Assembly
/-!
# Proofs.Source.Wrapping — code is put into the harness as it is

The harness has its mark once, so what stands before and behind the code does not depend on the code
(`wrap_eq`).  A mark in the result is the code's own: code that holds marks, line directives or the harness itself is not
filled in again (`wrap_splices`).
-/
namespace LiveShader
namespace Source

open Text (isInfix_append_of_not_mem isInfix_append_newline)

/-- What stands before the code. -/
def lead (version : GlVersion) : List Char := version.directive.toList ++ '\n' :: (harnessFront ++ lineMark)

theorem lead_append (version : GlVersion) (rest : List Char) :
    lead version ++ rest = version.directive.toList ++ '\n' :: (harnessFront ++ (lineMark ++ rest)) := by
  unfold lead
  rw [List.append_assoc, List.cons_append, List.append_assoc]

/-- **The code stands between two fixed texts.** -/
theorem wrap_eq (code : String) (version : GlVersion) :
    wrap code version = String.ofList (lead version) ++ code ++ String.ofList harnessBack := by
  rw [← String.toList_inj, wrap_toList, String.toList_append, String.toList_append, String.toList_ofList,
    String.toList_ofList, List.append_assoc, lead_append]

theorem wrap_injective (version : GlVersion) : Function.Injective (wrap · version) := by
  intro code code' h
  simp only [wrap_eq] at h
  exact (String.append_right_inj _).1 ((String.append_left_inj _).1 h)

/-! ## The mark -/

theorem codeMark_eq : codeMark = '@' :: "GLSL".toList := by decide

theorem count_harness : harness.toList.count '@' = 1 := by
  unfold harness
  rw [String.toList_ofList]
  decide +kernel

/-- The harness has the first character of its mark there only. -/
theorem not_mem_harness : '@' ∉ harnessFront ∧ '@' ∉ harnessBack := by
  have hsplit : harness.toList = harnessFront ++ (codeMark ++ harnessBack) := Text.cut?_append cut?_harness.1
  have hmark : codeMark.count '@' = 1 := by decide
  have hcount := count_harness
  rw [hsplit, List.count_append, List.count_append, hmark] at hcount
  exact ⟨List.count_eq_zero.1 (by omega), List.count_eq_zero.1 (by omega)⟩

theorem not_mem_directive {c : Char} (version : GlVersion) (hopen : c ∉ "#version ".toList) (hdigit : c.isDigit = false)
    (hclose : c ∉ "0 core".toList) : c ∉ version.directive.toList := by
  have hnumber : ∀ n : Nat, c ∉ (toString n).toList := Text.not_mem_toString hdigit
  unfold GlVersion.directive
  simp only [String.toList_append, List.mem_append, not_or]
  exact ⟨⟨⟨hopen, hnumber _⟩, hnumber _⟩, hclose⟩

theorem not_mem_lead (version : GlVersion) : '@' ∉ lead version := by
  have hdirective : '@' ∉ version.directive.toList := not_mem_directive version (by decide) (by decide) (by decide)
  have hline : '@' ∉ lineMark := by decide
  unfold lead
  simp only [List.mem_append, List.mem_cons, not_or]
  exact ⟨hdirective, by decide, not_mem_harness.1, hline⟩

/-- **A mark in wrapped code is the code's own.** -/
theorem codeMark_isInfix_wrap_iff (code : String) (version : GlVersion) :
    codeMark <:+: (wrap code version).toList ↔ codeMark <:+: code.toList := by
  obtain ⟨-, -, -, back, hback⟩ := cut?_harness
  have hbehind : ¬ '@' :: "GLSL".toList <:+: back := by
    intro h
    have hmem : '@' ∈ harnessBack := hback ▸ List.mem_cons_of_mem _ (h.subset List.mem_cons_self)
    exact not_mem_harness.2 hmem
  have hnewline : '\n' ∉ '@' :: "GLSL".toList := by decide
  rw [wrap_eq, String.toList_append, String.toList_append, String.toList_ofList, String.toList_ofList, List.append_assoc,
    codeMark_eq, isInfix_append_of_not_mem (not_mem_lead version), hback, isInfix_append_newline hnewline]
  exact or_iff_left hbehind

/-- **Wrapping is safe for any code**: the code stands verbatim between a text that depends on the version only and a
fixed one, so it can be told from the result, and no mark is left or made. -/
theorem wrap_splices : ∃ (front : GlVersion → String) (back : String),
    (∀ code version, wrap code version = front version ++ code ++ back) ∧
    (∀ version, Function.Injective (wrap · version)) ∧
    ∀ code version, codeMark <:+: (wrap code version).toList ↔ codeMark <:+: code.toList :=
  ⟨fun version => String.ofList (lead version), String.ofList harnessBack, wrap_eq, wrap_injective,
    codeMark_isInfix_wrap_iff⟩

end Source
end LiveShader
