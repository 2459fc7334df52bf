import LiveShader.Proofs.Source.LineWise
import LiveShader.Proofs.Text.Lines
import LiveShader.Proofs.Text.Numerals
import LiveShader.Source.Recipe
/-!
# Proofs.Source.Assembly — what stands where in an assembled source

An assembled source is the version pragma, the harness, the line directive and then what each line of the shader gives
way to (`laid`), in order.  A second version mark can only come from a fragment's line that has an include mark as well
(`fragmentSource_onlyInFront_iff`), and a line of code stands behind the lines that those before it gave way to
(`fragmentSource_places_line`).
-/
namespace LiveShader
namespace Source

open Text (FirstAt OnlyInFront isInfix_append_of_not_mem isInfix_append_newline isInfix_unlines_append)

/-! ## What a line gives way to -/

/-- The lines that stand in the place of one line of a shader. -/
def laid (read : String → Except Files.AccessError String) (store : Store) (line : List Char) : List (List Char) :=
  match lineKind line with
  | .code => [line]
  | .pragma => []
  | .malformed => [[]]
  | .directive name =>
    match read (pathOf store name) with
    | .error _ => []
    | .ok content => (Text.lines content.toList).filter keptInFragment

section

variable {read : String → Except Files.AccessError String} {store : Store}

theorem flattenLine_lines {number : Nat} {line : List Char} {f : Flattened}
    (h : flattenLine read store number line = .ok f) : f.lines = laid read store line := by
  unfold flattenLine at h
  unfold laid
  cases hkind : lineKind line with
  | code => rw [hkind] at h; cases h; rfl
  | pragma => rw [hkind] at h; cases h; rfl
  | malformed => rw [hkind] at h; cases h; rfl
  | directive name =>
    rw [hkind] at h
    simp only at h
    cases hr : read (pathOf store name) with
    | error cause => rw [hr] at h; cases h
    | ok content =>
      rw [hr] at h
      cases h
      simp only [hr]
      rfl

/-- **The pass lays out its lines one after the other.** -/
theorem flattenLines_lines : ∀ {ls : List (List Char)} {number : Nat} {f : Flattened},
    flattenLines read store number ls = .ok f → f.lines = ls.flatMap (laid read store)
  | [], _, _, h => by
    cases h
    rfl
  | line :: ls, number, f, h => by
    rw [flattenLines] at h
    cases hl : flattenLine read store number line with
    | error e => rw [hl] at h; cases h
    | ok here =>
      cases hls : flattenLines read store (number + 1) ls with
      | error e => rw [hl, hls] at h; cases h
      | ok below =>
        rw [hl, hls] at h
        cases h
        rw [List.flatMap_cons, ← flattenLine_lines hl, ← flattenLines_lines hls]
        rfl

theorem laid_of_code {line : List Char} (hm : ¬ includeMark <:+: line) (hv : ¬ versionMark <:+: line) :
    laid read store line = [line] := by
  rw [laid, lineKind_of_code hm hv]

theorem mem_laid {line l : List Char} (h : l ∈ laid read store line) :
    l = [] ∨ (l = line ∧ ¬ versionMark <:+: line) ∨ ∃ name content, Directive line name ∧
      read (pathOf store name) = .ok content ∧ l ∈ Text.lines content.toList ∧
        (includeMark <:+: l ∨ ¬ versionMark <:+: l) := by
  have hk := lineKind_spec line
  unfold laid at h
  cases hkind : lineKind line with
  | code =>
    rw [hkind] at h hk
    exact Or.inr (Or.inl ⟨List.mem_singleton.1 h, hk.2⟩)
  | pragma =>
    rw [hkind] at h
    cases h
  | malformed =>
    rw [hkind] at h
    exact Or.inl (List.mem_singleton.1 h)
  | directive name =>
    rw [hkind] at h hk
    simp only at h
    cases hr : read (pathOf store name) with
    | error cause =>
      rw [hr] at h
      cases h
    | ok content =>
      rw [hr] at h
      obtain ⟨hl, hkept⟩ := List.mem_filter.1 h
      exact Or.inr (Or.inr ⟨name, content, hk, hr, hl, keptInFragment_iff.1 hkept⟩)

theorem newline_not_mem_laid {line l : List Char} (hline : '\n' ∉ line) (h : l ∈ laid read store line) : '\n' ∉ l := by
  rcases mem_laid h with rfl | ⟨rfl, -⟩ | ⟨name, content, -, -, hl, -⟩
  · exact List.not_mem_nil
  · exact hline
  · exact Text.newline_not_mem_lines hl

/-- **A version mark that is laid out** comes from a line of a fragment that has both marks. -/
theorem versionMark_mem_laid_iff {line : List Char} :
    (∃ l ∈ laid read store line, versionMark <:+: l) ↔ ∃ name content, Directive line name ∧
      read (pathOf store name) = .ok content ∧
        ∃ l ∈ Text.lines content.toList, includeMark <:+: l ∧ versionMark <:+: l := by
  constructor
  · rintro ⟨l, hl, hv⟩
    rcases mem_laid hl with rfl | ⟨rfl, hno⟩ | ⟨name, content, hd, hr, hmem, hkept⟩
    · have hnil : ¬ versionMark <:+: [] := by decide
      exact absurd hv hnil
    · exact absurd hv hno
    · exact ⟨name, content, hd, hr, l, hmem, hkept.resolve_right (not_not.2 hv), hv⟩
  · rintro ⟨name, content, hd, hr, l, hmem, hm, hv⟩
    refine ⟨l, ?_, hv⟩
    rw [laid, lineKind_of_directive hd]
    simp only [hr]
    exact List.mem_filter.2 ⟨hmem, keptInFragment_iff.2 (Or.inl hm)⟩

end

/-! ## Around the lines -/

/-- The directive behind which the driver counts lines from one. -/
def lineMark : List Char := "#line 1\n".toList

/-- The harness before the code mark and behind it. -/
def harnessFront : List Char := (Text.cut? codeMark harness.toList).elim [] (·.1)

def harnessBack : List Char := (Text.cut? codeMark harness.toList).elim [] (·.2)

theorem split_of_any {o : Option (List Char × List Char)} (h : o.any (fun cut =>
    !cut.1.contains '#' && !cut.2.contains '#' && cut.2.head? == some '\n') = true) :
    ∃ front back, o = some (front, '\n' :: back) ∧ '#' ∉ front ∧ '#' ∉ '\n' :: back := by
  cases o with
  | none => cases h
  | some cut =>
    obtain ⟨front, rest⟩ := cut
    simp only [Option.any_some, Bool.and_eq_true, Bool.not_eq_true', List.contains_eq_mem, decide_eq_false_iff_not,
      beq_iff_eq] at h
    obtain ⟨back, rfl⟩ := List.head?_eq_some_iff.1 h.2
    exact ⟨front, back, rfl, h.1⟩

/-- The harness has the code mark, no hash around it, and goes on behind it with a new line. -/
theorem harness_split : ∃ front back, Text.cut? codeMark harness.toList = some (front, '\n' :: back) ∧ '#' ∉ front ∧
    '#' ∉ '\n' :: back := by
  refine split_of_any ?_
  -- the characters of the literals, so that the kernel need not decode them
  unfold harness codeMark
  rw [String.toList_ofList, String.toList_ofList]
  decide +kernel

theorem cut?_harness : Text.cut? codeMark harness.toList = some (harnessFront, harnessBack) ∧
    '#' ∉ harnessFront ∧ '#' ∉ harnessBack ∧ ∃ back, harnessBack = '\n' :: back := by
  obtain ⟨front, back, hcut, hfront, hback⟩ := harness_split
  unfold harnessFront harnessBack
  rw [hcut]
  exact ⟨rfl, hfront, hback, back, rfl⟩

theorem fillCode_of_cut {template before rest : List Char} (h : Text.cut? codeMark template = some (before, rest))
    (code : List Char) : fillCode template code = before ++ code ++ rest := by
  unfold fillCode
  rw [h]

theorem wrap_toList (code : String) (version : GlVersion) :
    (wrap code version).toList =
      version.directive.toList ++ '\n' :: (harnessFront ++ (lineMark ++ (code.toList ++ harnessBack))) := by
  unfold wrap lineMark
  rw [String.toList_append, String.toList_append, fillCode_of_cut cut?_harness.1, String.toList_ofList, String.toList_ofList,
    String.toList_append]
  simp only [List.append_assoc, List.cons_append, List.nil_append]

/-- The version pragma is the version mark and a text without a hash. -/
theorem directive_toList (version : GlVersion) :
    ∃ number, version.directive.toList = versionMark ++ number ∧ '#' ∉ number := by
  have hdigits : ∀ n : Nat, '#' ∉ (toString n).toList := Text.not_mem_toString (by decide)
  have hopen : "#version ".toList = versionMark ++ [' '] := by decide
  refine ⟨' ' :: ((toString version.major).toList ++ ((toString version.minor).toList ++ "0 core".toList)), ?_, ?_⟩
  · unfold GlVersion.directive
    simp only [String.toList_append, hopen, List.append_assoc, List.cons_append, List.nil_append]
  · have hclose : '#' ∉ "0 core".toList := by decide
    simp only [List.mem_cons, List.mem_append, not_or]
    exact ⟨by decide, hdigits _, hdigits _, hclose⟩

theorem versionMark_eq : versionMark = '#' :: "version".toList := by decide

theorem lineMark_eq : lineMark = '#' :: "line 1\n".toList := by decide

/-- An assembled source with some lines in the place of the shader's. -/
def assembled (version : GlVersion) (ls : List (List Char)) : List Char :=
  version.directive.toList ++ '\n' :: (harnessFront ++ (lineMark ++ (Text.unlines ls ++ harnessBack)))

/-- **An assembled source lays out the lines of the shader.** -/
theorem fragmentSource_toList {r : Recipe} {t : Files.Tree} {name s : String} (h : r.fragmentSource t name = .ok s) :
    ∃ text, t.readText (r.store.shaderPath name) = .ok text ∧
      s.toList = assembled r.version ((Text.lines text.toList).flatMap (laid t.readText r.store)) := by
  unfold Recipe.fragmentSource flatten at h
  simp only at h
  split at h
  · cases hread : t.readText (r.store.shaderPath name) with
    | error cause => rw [hread] at h; cases h
    | ok text =>
      rw [hread] at h
      simp only at h
      cases hflat : flattenText t.readText r.store text with
      | error e => rw [hflat] at h; cases h
      | ok f =>
        rw [hflat] at h
        cases h
        refine ⟨text, rfl, ?_⟩
        rw [wrap_toList, Flattened.source, String.toList_ofList, flattenLines_lines hflat, assembled]
  · cases h

/-! ## The version pragma -/

/-- Behind the version pragma a version mark stands only in the lines that are laid out. -/
theorem versionMark_behind_iff {number : List Char} (hnumber : '#' ∉ number) (ls : List (List Char)) :
    versionMark <:+: number ++ '\n' :: (harnessFront ++ (lineMark ++ (Text.unlines ls ++ harnessBack))) ↔
      ∃ l ∈ ls, versionMark <:+: l := by
  obtain ⟨-, hfront, hback, -⟩ := cut?_harness
  have hlead : '#' ∉ number ++ '\n' :: harnessFront := by
    simp only [List.mem_append, List.mem_cons, not_or]
    exact ⟨hnumber, by decide, hfront⟩
  have hline : lineMark = "#line 1".toList ++ ['\n'] := by decide
  have hnoline : ¬ '#' :: "version".toList <:+: "#line 1".toList := by decide
  have hnoback : ¬ '#' :: "version".toList <:+: harnessBack := fun h => hback (h.subset List.mem_cons_self)
  have hnewline : '\n' ∉ '#' :: "version".toList := by decide
  rw [versionMark_eq, hline, ← List.cons_append, ← List.append_assoc, isInfix_append_of_not_mem hlead, List.append_assoc,
    List.singleton_append, isInfix_append_newline hnewline, isInfix_unlines_append hnewline]
  exact (or_iff_right hnoline).trans (or_iff_left hnoback)

theorem assembled_onlyInFront_iff (version : GlVersion) (ls : List (List Char)) :
    versionMark <+: assembled version ls ∧
      (OnlyInFront versionMark (assembled version ls) ↔ ¬ ∃ l ∈ ls, versionMark <:+: l) := by
  obtain ⟨number, hnumber, hhash⟩ := directive_toList version
  have hversion : '#' ∉ "version".toList := by decide
  unfold assembled
  rw [← versionMark_behind_iff hhash, hnumber, List.append_assoc]
  refine ⟨List.prefix_append _ _, ?_⟩
  generalize number ++ '\n' :: (harnessFront ++ _) = behind
  rw [versionMark_eq]
  exact Text.onlyInFront_append_iff hversion

/-- No fragment that a shader includes has a line with both marks. -/
def Unmixed (read : String → Except Files.AccessError String) (store : Store) (text : List Char) : Prop :=
  ∀ line ∈ Text.lines text, ∀ name content, Directive line name → read (pathOf store name) = .ok content →
    ∀ l ∈ Text.lines content.toList, includeMark <:+: l → ¬ versionMark <:+: l

theorem unmixed_iff {read : String → Except Files.AccessError String} {store : Store} {text : List Char} :
    Unmixed read store text ↔ ¬ ∃ l ∈ (Text.lines text).flatMap (laid read store), versionMark <:+: l := by
  constructor
  · rintro h ⟨l, hl, hv⟩
    obtain ⟨line, hline, hlaid⟩ := List.mem_flatMap.1 hl
    obtain ⟨name, content, hd, hr, l', hl', hm, hv'⟩ := versionMark_mem_laid_iff.1 ⟨l, hlaid, hv⟩
    exact h line hline name content hd hr l' hl' hm hv'
  · intro h line hline name content hd hr l hl hm hv
    obtain ⟨l', hlaid, hv'⟩ := versionMark_mem_laid_iff.2 ⟨name, content, hd, hr, l, hl, hm, hv⟩
    exact h ⟨l', List.mem_flatMap.2 ⟨line, hline, hlaid⟩, hv'⟩

/-- **The version mark in front of an assembled source is the only one** just if no fragment has a line with both
marks. -/
theorem fragmentSource_onlyInFront_iff {r : Recipe} {t : Files.Tree} {name s : String}
    (h : r.fragmentSource t name = .ok s) :
    ∃ text, t.readText (r.store.shaderPath name) = .ok text ∧ versionMark <+: s.toList ∧
      (OnlyInFront versionMark s.toList ↔ Unmixed t.readText r.store text.toList) := by
  obtain ⟨text, hread, hs⟩ := fragmentSource_toList h
  obtain ⟨hfront, honly⟩ := assembled_onlyInFront_iff r.version ((Text.lines text.toList).flatMap (laid t.readText r.store))
  refine ⟨text, hread, ?_, ?_⟩
  · rw [hs]
    exact hfront
  · rw [hs, unmixed_iff]
    exact honly

def bareRecipe : Recipe := { store := { root := "." }, version := ⟨3, 3⟩ }

/-- A shader and a fragment that it includes, one line of which has both marks. -/
@[irreducible] def mixedMarks : Files.Tree :=
  ⟨.dir [("a.frag", .file "#include <b>\nvoid mainImage() \x7b\x7d\n".toUTF8),
    ("b.glsl", .file "#version 330 // needs #include <c>\nfloat b;\n".toUTF8)], []⟩

theorem exists_ok_of_isSome {ε α : Type} {x : Except ε α} (h : x.toOption.isSome = true) : ∃ a, x = .ok a := by
  cases x with
  | error e => cases h
  | ok a => exact ⟨a, rfl⟩

theorem fragmentSource_onlyInFront_iff_mixedMarks : ∃ s, bareRecipe.fragmentSource mixedMarks "a" = .ok s ∧
    ∃ text, mixedMarks.readText (bareRecipe.store.shaderPath "a") = .ok text ∧ versionMark <+: s.toList ∧
      (OnlyInFront versionMark s.toList ↔ Unmixed mixedMarks.readText bareRecipe.store text.toList) := by
  obtain ⟨s, hs⟩ := exists_ok_of_isSome (x := bareRecipe.fragmentSource mixedMarks "a") (by decide +kernel)
  exact ⟨s, hs, fragmentSource_onlyInFront_iff hs⟩

/-- **A second version mark**: the line with both marks is in the source. -/
theorem fragmentSource_mixedMarks : ∃ s, bareRecipe.fragmentSource mixedMarks "a" = .ok s ∧
    ¬ OnlyInFront versionMark s.toList := by
  obtain ⟨s, hs⟩ := exists_ok_of_isSome (x := bareRecipe.fragmentSource mixedMarks "a") (by decide +kernel)
  obtain ⟨text, hread, htext⟩ := fragmentSource_toList hs
  have hlaid : (mixedMarks.readText (bareRecipe.store.shaderPath "a")).toOption.all (fun text =>
      ((Text.lines text.toList).flatMap (laid mixedMarks.readText bareRecipe.store)).any (Text.occursIn versionMark)) =
        true := by decide +kernel
  rw [hread] at hlaid
  obtain ⟨l, hl, hv⟩ := List.any_eq_true.1 hlaid
  refine ⟨s, hs, ?_⟩
  rw [htext, (assembled_onlyInFront_iff _ _).2, not_not]
  exact ⟨l, hl, Text.occursIn_iff_isInfix.1 hv⟩

/-! ## Line numbers -/

theorem not_isInfix_lineMark (version : GlVersion) :
    ¬ lineMark <:+: version.directive.toList ++ '\n' :: harnessFront := by
  obtain ⟨number, hnumber, hhash⟩ := directive_toList version
  have hbehind : '#' ∉ "version".toList ++ (number ++ '\n' :: harnessFront) := by
    simp only [List.mem_append, List.mem_cons, not_or]
    exact ⟨by decide, hhash, by decide, cut?_harness.2.1⟩
  rw [hnumber, versionMark_eq, lineMark_eq, List.append_assoc, List.cons_append, List.infix_cons_iff]
  rintro (hstart | hwithin)
  · have hstart : "line 1\n".toList <+: "version".toList ++ _ := (List.cons_prefix_cons.1 hstart).2
    have hl : 'l' = 'v' := (List.cons_prefix_cons.1 hstart).1
    exact absurd hl (by decide)
  · exact hbehind (hwithin.subset List.mem_cons_self)

/-- The first line directive of an assembled source is the harness's. -/
theorem firstAt_lineMark (version : GlVersion) (ls : List (List Char)) :
    FirstAt lineMark (assembled version ls) (version.directive.toList ++ '\n' :: harnessFront)
      (Text.unlines ls ++ harnessBack) := by
  have hno := not_isInfix_lineMark version
  have hhash : '#' ∉ "line 1\n".toList := by decide
  unfold assembled
  rw [lineMark_eq] at hno ⊢
  rw [← List.cons_append, ← List.append_assoc]
  exact Text.firstAt_append hhash hno

/-- How many lines stand in the place of some lines of a shader. -/
def height (read : String → Except Files.AccessError String) (store : Store) (ls : List (List Char)) : Nat :=
  (ls.flatMap (laid read store)).length

section

variable {read : String → Except Files.AccessError String} {store : Store}

/-- Lines that give way to one line each keep their height. -/
theorem height_eq_length {ls : List (List Char)} (h : ∀ l ∈ ls, (laid read store l).length = 1) :
    height read store ls = ls.length := by
  unfold height
  rw [List.length_flatMap, List.map_congr_left h, List.map_const', List.sum_replicate_nat, Nat.mul_one]

theorem splitOn_laid {text : List (List Char)} (hlines : ∀ l ∈ text, '\n' ∉ l) (rest : List Char) :
    (Text.unlines (text.flatMap (laid read store)) ++ rest).splitOn '\n' =
      text.flatMap (laid read store) ++ rest.splitOn '\n' := by
  refine Text.splitOn_unlines_append (fun l hl => ?_) rest
  obtain ⟨line, hline, hlaid⟩ := List.mem_flatMap.1 hl
  exact newline_not_mem_laid (hlines line hline) hlaid

/-- **A line of code is laid out behind what the lines before it gave way to.** -/
theorem getElem?_laid {before after rest : List (List Char)} {line : List Char} (hm : ¬ includeMark <:+: line)
    (hv : ¬ versionMark <:+: line) :
    ((before ++ line :: after).flatMap (laid read store) ++ rest)[height read store before]? = some line := by
  rw [List.flatMap_append, List.flatMap_cons, laid_of_code hm hv, List.append_assoc, height,
    List.getElem?_append_right (Nat.le_refl _), Nat.sub_self]
  rfl

end

/-- **A line of code stands behind the line directive at the place that the lines before it leave it**, which is its own
if each of them gives way to one line. -/
theorem fragmentSource_places_line {r : Recipe} {t : Files.Tree} {name s : String}
    (h : r.fragmentSource t name = .ok s) :
    ∃ text front rest, t.readText (r.store.shaderPath name) = .ok text ∧ FirstAt lineMark s.toList front rest ∧
      ∀ before line after, Text.lines text.toList = before ++ line :: after →
        ¬ includeMark <:+: line → ¬ versionMark <:+: line →
          (rest.splitOn '\n')[height t.readText r.store before]? = some line ∧
          ((∀ l ∈ before, (laid t.readText r.store l).length = 1) → (rest.splitOn '\n')[before.length]? = some line) := by
  obtain ⟨text, hread, hs⟩ := fragmentSource_toList h
  have hfirst := firstAt_lineMark r.version ((Text.lines text.toList).flatMap (laid t.readText r.store))
  rw [← hs] at hfirst
  refine ⟨text, _, _, hread, hfirst, fun before line after hlines hm hv => ?_⟩
  rw [splitOn_laid fun _ hl => Text.newline_not_mem_lines hl, hlines]
  refine ⟨getElem?_laid hm hv, fun hone => ?_⟩
  rw [← height_eq_length hone]
  exact getElem?_laid hm hv

/-- A shader with a version pragma of its own. -/
@[irreducible] def ownPragma : Files.Tree :=
  ⟨.dir [("a.frag", .file "#version 330 core\nvoid mainImage() \x7b\x7d\n".toUTF8)], []⟩

theorem fragmentSource_places_line_ownPragma : ∃ s, bareRecipe.fragmentSource ownPragma "a" = .ok s ∧
    ∃ text front rest, ownPragma.readText (bareRecipe.store.shaderPath "a") = .ok text ∧
      FirstAt lineMark s.toList front rest ∧
      ∀ before line after, Text.lines text.toList = before ++ line :: after →
        ¬ includeMark <:+: line → ¬ versionMark <:+: line →
          (rest.splitOn '\n')[height ownPragma.readText bareRecipe.store before]? = some line ∧
          ((∀ l ∈ before, (laid ownPragma.readText bareRecipe.store l).length = 1) →
            (rest.splitOn '\n')[before.length]? = some line) := by
  obtain ⟨s, hs⟩ := exists_ok_of_isSome (x := bareRecipe.fragmentSource ownPragma "a") (by decide +kernel)
  exact ⟨s, hs, fragmentSource_places_line hs⟩

/-- **A line out of its place**: the second line of the shader is not the second line behind the line directive. -/
theorem fragmentSource_ownPragma : ∃ s text front rest,
    bareRecipe.fragmentSource ownPragma "a" = .ok s ∧
    ownPragma.readText (bareRecipe.store.shaderPath "a") = .ok text ∧ FirstAt lineMark s.toList front rest ∧
    ∃ line, (Text.lines text.toList)[1]? = some line ∧ ¬ includeMark <:+: line ∧ ¬ versionMark <:+: line ∧
      (rest.splitOn '\n')[1]? ≠ some line := by
  obtain ⟨s, hs⟩ := exists_ok_of_isSome (x := bareRecipe.fragmentSource ownPragma "a") (by decide +kernel)
  obtain ⟨text, hread, htext⟩ := fragmentSource_toList hs
  have hfirst := firstAt_lineMark bareRecipe.version
    ((Text.lines text.toList).flatMap (laid ownPragma.readText bareRecipe.store))
  rw [← htext] at hfirst
  have hlines : (ownPragma.readText (bareRecipe.store.shaderPath "a")).toOption.all (fun text =>
      (Text.lines text.toList)[1]? == some "void mainImage() \x7b\x7d".toList &&
        (Text.lines text.toList).flatMap (laid ownPragma.readText bareRecipe.store) ==
          ["void mainImage() \x7b\x7d".toList]) = true := by decide +kernel
  rw [hread] at hlines
  simp only [Except.toOption, Option.all_some, Bool.and_eq_true, beq_iff_eq] at hlines
  obtain ⟨-, -, -, back, hback⟩ := cut?_harness
  refine ⟨s, text, _, _, hs, hread, hfirst, _, hlines.1, by decide, by decide, ?_⟩
  have hempty : ('\n' :: back).splitOn '\n' = [] :: back.splitOn '\n' := List.splitOn_append_cons_self [] back
  rw [splitOn_laid fun _ hl => Text.newline_not_mem_lines hl, hlines.2, hback, hempty]
  simp

end Source
end LiveShader
