import LiveShader.Proofs.Source.Concatenation
/-!
# Proofs.Source.Stability — a flattened source is flat

A line with an include mark gets into a source just when a fragment has a directive of its own, and that is warned of
(`flattenLines_includeMark_iff`); a version mark only gets in on such a line (`includeMark_of_laid`).  So a source
that came without that warning has no mark in any line, and another pass finds nothing to do (`flatten_stable`).
-/
namespace LiveShader
namespace Source

/-! ## Marks in a source -/

/-- There is a warning about a directive in a fragment. -/
def Nested (warnings : List Warning) : Prop := ∃ line fragment, Warning.nestedInclude line fragment ∈ warnings

theorem not_nested_nil : ¬ Nested [] := fun ⟨_, _, h⟩ => nomatch h

theorem nested_append {ws us : List Warning} : Nested (ws ++ us) ↔ Nested ws ∨ Nested us := by
  constructor
  · rintro ⟨line, fragment, h⟩
    exact (List.mem_append.1 h).imp (⟨line, fragment, ·⟩) (⟨line, fragment, ·⟩)
  · rintro (⟨line, fragment, h⟩ | ⟨line, fragment, h⟩)
    · exact ⟨line, fragment, List.mem_append_left us h⟩
    · exact ⟨line, fragment, List.mem_append_right ws h⟩

theorem includeMark_eq : includeMark = '#' :: "include".toList := by decide

theorem not_includeMark_nil : ¬ includeMark <:+: [] := by decide

/-- A fragment's lines with an include mark are kept, each with a warning. -/
theorem inlined_includeMark_iff (number : Nat) (path : String) (content : List Char) :
    (∃ l ∈ (inlined number path content).lines, includeMark <:+: l) ↔
      Nested (inlined number path content).warnings := by
  constructor
  · rintro ⟨l, hl, hm⟩
    have hmarked : l ∈ (Text.lines content).filter (Text.occursIn includeMark) :=
      List.mem_filter.2 ⟨(List.mem_filter.1 hl).1, Text.occursIn_iff_isInfix.2 hm⟩
    exact ⟨number, path, List.mem_map.2 ⟨l, hmarked, rfl⟩⟩
  · rintro ⟨line, fragment, hw⟩
    obtain ⟨l, hl, -⟩ := List.mem_map.1 hw
    obtain ⟨hmem, hm⟩ := List.mem_filter.1 hl
    have hmark : includeMark <:+: l := Text.occursIn_iff_isInfix.1 hm
    exact ⟨l, List.mem_filter.2 ⟨hmem, keptInFragment_iff.2 (.inl hmark)⟩, hmark⟩

section

variable {read : String → Except Files.AccessError String} {store : Store}

/-- **An include mark that a line of the shader lets into the source** is one that is warned of. -/
theorem flattenLine_includeMark_iff {number : Nat} {line : List Char} {f : Flattened}
    (h : flattenLine read store number line = .ok f) : (∃ l ∈ f.lines, includeMark <:+: l) ↔ Nested f.warnings := by
  have hspec := lineKind_spec line
  unfold flattenLine at h
  cases hkind : lineKind line with
  | code =>
    rw [hkind] at h hspec
    cases h
    refine iff_of_false ?_ not_nested_nil
    rintro ⟨l, hl, hm⟩
    rw [List.mem_singleton.1 hl] at hm
    exact hspec.1 hm
  | pragma =>
    rw [hkind] at h
    cases h
    exact iff_of_false (fun ⟨_, hl, _⟩ => nomatch hl) not_nested_nil
  | malformed =>
    rw [hkind] at h
    cases h
    refine iff_of_false ?_ ?_
    · rintro ⟨l, hl, hm⟩
      rw [List.mem_singleton.1 hl] at hm
      exact not_includeMark_nil hm
    · rintro ⟨line, fragment, hw⟩
      cases List.mem_singleton.1 hw
  | directive name =>
    rw [hkind] at h
    simp only at h
    cases hr : read (store.includePath (String.ofList name)) with
    | error cause => rw [hr] at h; cases h
    | ok content =>
      rw [hr] at h
      cases h
      exact inlined_includeMark_iff number _ _

theorem flattenLines_includeMark_iff : ∀ {ls : List (List Char)} {number : Nat} {f : Flattened},
    flattenLines read store number ls = .ok f → ((∃ l ∈ f.lines, includeMark <:+: l) ↔ Nested f.warnings)
  | [], _, _, h => by
    cases h
    exact iff_of_false (fun ⟨_, hl, _⟩ => nomatch hl) not_nested_nil
  | line :: ls, number, f, h => by
    rw [flattenLines] at h
    cases hl : flattenLine read store number line with
    | error e => rw [hl] at h; cases h
    | ok here =>
      cases hls : flattenLines read store (number + 1) ls with
      | error e => rw [hl, hls] at h; cases h
      | ok below =>
        rw [hl, hls] at h
        cases h
        show (∃ l ∈ here.lines ++ below.lines, includeMark <:+: l) ↔ Nested (here.warnings ++ below.warnings)
        rw [nested_append, ← flattenLine_includeMark_iff hl, ← flattenLines_includeMark_iff hls]
        simp only [List.mem_append, or_and_right, exists_or]

/-- A version mark gets into the source only on a line that has an include mark as well. -/
theorem includeMark_of_laid {line l : List Char} (hl : l ∈ laid read store line) (hv : versionMark <:+: l) :
    includeMark <:+: l := by
  rcases mem_laid hl with rfl | ⟨rfl, hno⟩ | ⟨name, content, -, -, -, hkept⟩
  · have hnil : ¬ versionMark <:+: [] := by decide
    exact absurd hv hnil
  · exact absurd hv hno
  · exact hkept.resolve_right (not_not.2 hv)

/-! ## A second pass -/

/-- Lines without marks are what they give way to. -/
theorem flattenLines_of_code : ∀ {ls : List (List Char)} (number : Nat),
    (∀ l ∈ ls, ¬ includeMark <:+: l ∧ ¬ versionMark <:+: l) → flattenLines read store number ls = .ok ⟨ls, [], []⟩
  | [], _, _ => rfl
  | line :: ls, number, h => by
    obtain ⟨hm, hv⟩ := h line List.mem_cons_self
    have hline : flattenLine read store number line = .ok ⟨[line], [], []⟩ := by
      rw [flattenLine, lineKind_of_code hm hv]
    rw [flattenLines, hline, flattenLines_of_code (number + 1) fun l hl => h l (List.mem_cons_of_mem line hl)]
    rfl

theorem flatten_ok {path : String} {f : Flattened} (h : flatten read store path = .ok f) :
    ∃ text, read path = .ok text ∧ flattenLines read store 1 (Text.lines text.toList) = .ok f := by
  unfold flatten at h
  cases hr : read path with
  | error cause => rw [hr] at h; cases h
  | ok text =>
    rw [hr] at h
    exact ⟨text, rfl, h⟩

/-- A source that came without a warning about a directive in a fragment has no mark in any of its lines. -/
theorem not_marked {path : String} {f : Flattened} (h : flatten read store path = .ok f)
    (hflat : ¬ Nested f.warnings) : ∀ l ∈ f.lines, ¬ includeMark <:+: l ∧ ¬ versionMark <:+: l := by
  obtain ⟨text, -, hlines⟩ := flatten_ok h
  have hinclude : ∀ l ∈ f.lines, ¬ includeMark <:+: l := fun l hl hm =>
    hflat ((flattenLines_includeMark_iff hlines).1 ⟨l, hl, hm⟩)
  refine fun l hl => ⟨hinclude l hl, fun hv => hinclude l hl ?_⟩
  rw [flattenLines_lines hlines] at hl
  obtain ⟨line, -, hlaid⟩ := List.mem_flatMap.1 hl
  exact includeMark_of_laid hlaid hv

/-- **A source that came without a warning about a directive in a fragment is flat**: it is whole lines, and where a
file has it for a content, with whatever fragments there are then, that file is flattened without includes and
warnings, to the source without the carriage returns before its newlines. -/
theorem flatten_stable {path : String} {f : Flattened} (h : flatten read store path = .ok f)
    (hflat : ∀ line fragment, Warning.nestedInclude line fragment ∉ f.warnings) :
    Text.Whole f.source.toList ∧
      ∀ (read' : String → Except Files.AccessError String) (store' : Store) (path' : String),
        read' path' = .ok f.source → ∃ g, flatten read' store' path' = .ok g ∧ g.includes = [] ∧ g.warnings = [] ∧
          g.source.toList = Text.dropReturns f.source.toList ∧ ('\r' ∉ f.source.toList → g.source = f.source) := by
  have hsource : f.source.toList = Text.unlines f.lines := String.toList_ofList
  have hwhole : Text.Whole f.source.toList := by
    rw [hsource]
    exact Text.whole_unlines f.lines
  have hmarks := not_marked h fun ⟨line, fragment, hw⟩ => hflat line fragment hw
  have hcode : ∀ l ∈ Text.lines f.source.toList, ¬ includeMark <:+: l ∧ ¬ versionMark <:+: l := by
    rw [includeMark_eq, versionMark_eq] at hmarks ⊢
    rw [hsource]
    exact fun l hl => ⟨Text.not_isInfix_of_mem_lines (by decide) (fun l hl => (hmarks l hl).1) l hl,
      Text.not_isInfix_of_mem_lines (by decide) (fun l hl => (hmarks l hl).2) l hl⟩
  refine ⟨hwhole, fun read' store' path' hread => ?_⟩
  have hagain : (Flattened.source ⟨Text.lines f.source.toList, [], []⟩).toList = Text.dropReturns f.source.toList := by
    rw [Flattened.source, String.toList_ofList, Text.unlines_lines hwhole]
  refine ⟨⟨Text.lines f.source.toList, [], []⟩, ?_, rfl, rfl, hagain, fun hreturn => ?_⟩
  · rw [flatten_of_read hread, flattenText, flattenLines_of_code 1 hcode]
  · apply String.toList_inj.1
    rw [hagain, Text.dropReturns_of_not_mem hreturn]

end

/-- A shader with carriage returns, one of them at its end and not before a newline, and a fragment that it includes. -/
@[irreducible] def returning : Files.Tree :=
  ⟨.dir [("a.frag", .file "#version 330 core\r\n#include b\n#include <b>\r\nfloat a;\r".toUTF8),
    ("b.glsl", .file "#version 110\r\nfloat b;\r\r\nfloat c;".toUTF8)], []⟩

/-- What is left of the shader. -/
@[irreducible] def flatSource : String := "\nfloat b;\r\nfloat c;\nfloat a;\r\n"

theorem flatten_stable_returning : ∃ f, flatten returning.readText bareRecipe.store "./a.frag" = .ok f ∧
    f.warnings = [.malformedInclude 2 "#include b"] ∧ f.source = flatSource ∧
      ∃ g, flatten (fun _ => .ok flatSource) bareRecipe.store "./a.frag" = .ok g ∧ g.includes = [] ∧ g.warnings = [] ∧
        g.source = "\nfloat b;\nfloat c;\nfloat a;\n" := by
  obtain ⟨f, hf⟩ : ∃ f, flatten returning.readText bareRecipe.store "./a.frag" = .ok f :=
    exists_ok_of_isSome (by decide +kernel)
  have hwarnings : (flatten returning.readText bareRecipe.store "./a.frag").map Flattened.warnings =
      .ok [.malformedInclude 2 "#include b"] := by decide +kernel
  have hsource : (flatten returning.readText bareRecipe.store "./a.frag").map Flattened.source = .ok flatSource := by
    decide +kernel
  rw [hf] at hwarnings hsource
  have hw : f.warnings = [.malformedInclude 2 "#include b"] := Except.ok.inj hwarnings
  have hs : f.source = flatSource := Except.ok.inj hsource
  have hflat : ∀ line fragment, Warning.nestedInclude line fragment ∉ f.warnings := by
    intro line fragment h
    rw [hw] at h
    cases List.mem_singleton.1 h
  obtain ⟨g, hg, hincludes, hnone, hdropped, -⟩ :=
    (flatten_stable hf hflat).2 (fun _ => .ok flatSource) bareRecipe.store "./a.frag" (congrArg _ hs.symm)
  refine ⟨f, hf, hw, hs, g, hg, hincludes, hnone, String.toList_inj.1 ?_⟩
  rw [hdropped, hs]
  decide +kernel

end Source
end LiveShader
