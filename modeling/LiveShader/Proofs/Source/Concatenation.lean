import LiveShader.Proofs.Source.Assembly
import LiveShader.Proofs.Text.WholeLines
/-!
# Proofs.Source.Concatenation — a shader in two parts

No line of a shader has a say in what another contributes, but that it counts in the numbers of the lines below it
(`flattenLines_below`).  So a shader that is put together from whole lines and a rest is flattened part by part
(`flatten_append`).
-/
namespace LiveShader
namespace Source

/-! ## Line numbers -/

/-- The warning about a line when more lines stand above it. -/
def Warning.below (above : Nat) : Warning → Warning
  | .malformedInclude line directive => .malformedInclude (line + above) directive
  | .nestedInclude line fragment => .nestedInclude (line + above) fragment

def FlattenError.below (above : Nat) : FlattenError → FlattenError
  | .sourceNotFound path cause => .sourceNotFound path cause
  | .includeNotFound name path line cause => .includeNotFound name path (line + above) cause

def Flattened.below (above : Nat) (f : Flattened) : Flattened := { f with warnings := f.warnings.map (·.below above) }

theorem below_append (above : Nat) (f g : Flattened) :
    (f.append g).below above = (f.below above).append (g.below above) := by
  unfold Flattened.append Flattened.below
  rw [List.map_append]

/-- **How outcomes combine** for two parts of a shader, the first of which has some number of lines.  Where the first
part cannot be flattened, neither can the whole, for the same include; where only the second cannot, neither can the
whole, for that include, on a line that comes so many lines later; and where both can, source, includes and warnings of
the whole are those of the first part and then those of the second, its lines being counted on. -/
inductive Combines (height : Nat) : (first second both : Except FlattenError Flattened) → Prop
  | firstFails (name path : String) (line : Nat) (cause : Files.AccessError) (second : Except FlattenError Flattened) :
    Combines height (.error (.includeNotFound name path line cause)) second
      (.error (.includeNotFound name path line cause))
  | secondFails (f : Flattened) (name path : String) (line : Nat) (cause : Files.AccessError) :
    Combines height (.ok f) (.error (.includeNotFound name path line cause))
      (.error (.includeNotFound name path (line + height) cause))
  | bothSucceed {f g h : Flattened} :
    h.source = f.source ++ g.source → h.includes = f.includes ++ g.includes →
      h.warnings = f.warnings ++ g.warnings.map (·.below height) → Combines height (.ok f) (.ok g) (.ok h)

/-- The outcome for some lines when more lines stand above them. -/
def outcomeBelow (above : Nat) : Except FlattenError Flattened → Except FlattenError Flattened
  | .error e => .error (e.below above)
  | .ok f => .ok (f.below above)

theorem inlined_below (above number : Nat) (path : String) (content : List Char) :
    inlined (number + above) path content = (inlined number path content).below above := by
  simp only [inlined, Flattened.below, List.map_map, Function.comp_def, Warning.below]

section

variable {read : String → Except Files.AccessError String} {store : Store}

/-- **What a line contributes depends on its number in nothing but numbers.** -/
theorem flattenLine_below (above number : Nat) (line : List Char) :
    flattenLine read store (number + above) line = outcomeBelow above (flattenLine read store number line) := by
  unfold flattenLine
  cases lineKind line with
  | code => rfl
  | pragma => rfl
  | malformed => rfl
  | directive name =>
    simp only
    cases read (pathOf store name) with
    | error cause => rfl
    | ok content => exact congrArg Except.ok (inlined_below above number _ _)

theorem flattenLines_below (above : Nat) : ∀ (number : Nat) (ls : List (List Char)),
    flattenLines read store (number + above) ls = outcomeBelow above (flattenLines read store number ls)
  | _, [] => rfl
  | number, line :: ls => by
    have hrest : flattenLines read store (number + above + 1) ls =
        outcomeBelow above (flattenLines read store (number + 1) ls) := by
      rw [← flattenLines_below above (number + 1) ls, Nat.add_right_comm]
    rw [flattenLines, flattenLines, flattenLine_below, hrest]
    cases flattenLine read store number line with
    | error e => rfl
    | ok here =>
      cases flattenLines read store (number + 1) ls with
      | error e => rfl
      | ok below => exact congrArg Except.ok (below_append above here below).symm

/-! ## Two parts -/

theorem append_assoc (f g h : Flattened) : (f.append g).append h = f.append (g.append h) := by
  simp only [Flattened.append, List.append_assoc]

/-- **Lines are flattened part by part**, and the first part that cannot be is what ends the pass. -/
theorem flattenLines_append : ∀ (number : Nat) (ls ms : List (List Char)),
    flattenLines read store number (ls ++ ms) =
      (flattenLines read store number ls).bind fun f =>
        (flattenLines read store (number + ls.length) ms).map f.append
  | number, [], ms => by
    show flattenLines read store number ms = (flattenLines read store number ms).map Flattened.empty.append
    cases flattenLines read store number ms with
    | error e => rfl
    | ok g => rfl
  | number, line :: ls, ms => by
    have hlength : number + (line :: ls).length = number + 1 + ls.length := by
      rw [List.length_cons, Nat.add_assoc, Nat.add_comm 1]
    rw [List.cons_append, flattenLines, flattenLines, hlength, flattenLines_append (number + 1) ls ms]
    cases flattenLine read store number line with
    | error e => rfl
    | ok here =>
      cases flattenLines read store (number + 1) ls with
      | error e => rfl
      | ok f =>
        show _ = (flattenLines read store (number + 1 + ls.length) ms).map (here.append f).append
        cases flattenLines read store (number + 1 + ls.length) ms with
        | error e => rfl
        | ok g => exact congrArg Except.ok (append_assoc here f g).symm

/-- The number of a text's lines. -/
def rows (text : String) : Nat := (Text.lines text.toList).length

/-- **A text behind whole lines** is flattened as on its own, with the numbers of its lines counted from the top. -/
theorem flattenText_append {a : String} (h : Text.Whole a.toList) (b : String) :
    flattenText read store (a ++ b) = (flattenText read store a).bind fun f =>
      (outcomeBelow (rows a) (flattenText read store b)).map f.append := by
  unfold flattenText rows
  rw [String.toList_append, Text.lines_append h, flattenLines_append, ← flattenLines_below]

/-- A text whose flattening fails names an include that cannot be read. -/
theorem flattenText_error {text : String} {e : FlattenError} (h : flattenText read store text = .error e) :
    ∃ name path line cause, e = .includeNotFound name path line cause := by
  obtain ⟨before, line, after, name, cause, -, -, -, -, rfl⟩ := flattenLines_error_iff.1 h
  exact ⟨_, _, _, cause, rfl⟩

theorem flatten_of_read {path text : String} (h : read path = .ok text) :
    flatten read store path = flattenText read store text := by
  unfold flatten
  rw [h]

theorem source_append (f g : Flattened) : (f.append g).source = f.source ++ g.source := by
  unfold Flattened.source Flattened.append Text.unlines
  rw [List.flatMap_append, String.ofList_append]

/-- **A shader in two parts, the first of which is whole lines**, is flattened as its parts are: their outcomes combine
to that of the whole. -/
theorem flatten_append {first second both a b : String} (hfirst : read first = .ok a) (hsecond : read second = .ok b)
    (hboth : read both = .ok (a ++ b)) (hwhole : Text.Whole a.toList) :
    Combines (rows a) (flatten read store first) (flatten read store second) (flatten read store both) := by
  rw [flatten_of_read hfirst, flatten_of_read hsecond, flatten_of_read hboth, flattenText_append hwhole]
  cases hf : flattenText read store a with
  | error e =>
    obtain ⟨name, path, line, cause, rfl⟩ := flattenText_error hf
    exact .firstFails name path line cause _
  | ok f =>
    cases hg : flattenText read store b with
    | error e =>
      obtain ⟨name, path, line, cause, rfl⟩ := flattenText_error hg
      exact .secondFails f name path line cause
    | ok g => exact .bothSucceed (source_append f (g.below (rows a))) rfl rfl

end

/-- Whole lines with a pragma, a malformed directive and an include of a fragment that has a directive of its own. -/
@[irreducible] def upperPart : String := "#version 330 core\r\n#include b\n\n#include <b>\r\n"

/-- The like, with a carriage return and no newline at its end. -/
@[irreducible] def lowerPart : String := "float a;\r\n  #include <>\n#include <b>\n#version 110\nfloat z;\r"

/-- Whole lines that include what is not there. -/
@[irreducible] def brokenPart : String := "float c;\n#include <c>\n"

/-- The parts, each two of them behind one another, and the fragment. -/
@[irreducible] def parted : Files.Tree :=
  ⟨.dir [("u.frag", .file upperPart.toUTF8), ("l.frag", .file lowerPart.toUTF8), ("b.frag", .file brokenPart.toUTF8),
    ("ul.frag", .file (upperPart ++ lowerPart).toUTF8), ("ub.frag", .file (upperPart ++ brokenPart).toUTF8),
    ("bl.frag", .file (brokenPart ++ lowerPart).toUTF8), ("b.glsl", .file "#include <c>\nfloat b;".toUTF8)], []⟩

theorem flatten_append_parted :
    (flatten parted.readText bareRecipe.store "./u.frag").toOption.isSome = true ∧
    (flatten parted.readText bareRecipe.store "./l.frag").toOption.isSome = true ∧
    flatten parted.readText bareRecipe.store "./b.frag" = .error (.includeNotFound "c" "./c.glsl" 2 .notFound) ∧
    (Combines 4 (flatten parted.readText bareRecipe.store "./u.frag")
      (flatten parted.readText bareRecipe.store "./l.frag") (flatten parted.readText bareRecipe.store "./ul.frag") ∧
    Combines 4 (flatten parted.readText bareRecipe.store "./u.frag")
      (flatten parted.readText bareRecipe.store "./b.frag") (flatten parted.readText bareRecipe.store "./ub.frag") ∧
    Combines 2 (flatten parted.readText bareRecipe.store "./b.frag")
      (flatten parted.readText bareRecipe.store "./l.frag") (flatten parted.readText bareRecipe.store "./bl.frag")) := by
  have hupper : parted.readText "./u.frag" = .ok upperPart := by decide +kernel
  have hlower : parted.readText "./l.frag" = .ok lowerPart := by decide +kernel
  have hbroken : parted.readText "./b.frag" = .ok brokenPart := by decide +kernel
  have hupperLower : parted.readText "./ul.frag" = .ok (upperPart ++ lowerPart) := by decide +kernel
  have hupperBroken : parted.readText "./ub.frag" = .ok (upperPart ++ brokenPart) := by decide +kernel
  have hbrokenLower : parted.readText "./bl.frag" = .ok (brokenPart ++ lowerPart) := by decide +kernel
  have hwhole : Text.Whole upperPart.toList := .inr ⟨upperPart.toList.dropLast, by decide +kernel⟩
  have hwhole' : Text.Whole brokenPart.toList := .inr ⟨brokenPart.toList.dropLast, by decide +kernel⟩
  have hrows : rows upperPart = 4 := by decide +kernel
  have hrows' : rows brokenPart = 2 := by decide +kernel
  refine ⟨by decide +kernel, by decide +kernel, by decide +kernel, ?_⟩
  rw [← hrows, ← hrows']
  exact ⟨flatten_append hupper hlower hupperLower hwhole, flatten_append hupper hbroken hupperBroken hwhole,
    flatten_append hbroken hlower hbrokenLower hwhole'⟩

end Source
end LiveShader
