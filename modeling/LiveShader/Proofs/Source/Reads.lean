import LiveShader.Proofs.Source.Assembly
import Mathlib.Logic.Function.Basic
/-!
# Proofs.Source.Reads — what the outcome of a pass depends on

A pass asks for the shader and for the fragments that the shader's own lines name, up to the first that cannot be read
(`consulted`).  Answers that agree on these give the same outcome (`flatten_congr`), and for each of these there is an
answer that gives another (`exists_flatten_update_ne`): what fragments say about further fragments is never asked for.
-/
namespace LiveShader
namespace Source

/-- The path that a line names. -/
def named? (store : Store) (line : List Char) : Option String :=
  match lineKind line with
  | .directive name => some (pathOf store name)
  | .malformed | .pragma | .code => none

/-- The paths that some lines name, in order, one for each directive. -/
def namedIn (store : Store) (ls : List (List Char)) : List String := ls.filterMap (named? store)

/-- Some paths up to the first that cannot be read. -/
def upToFailure (read : String → Except Files.AccessError String) : List String → List String
  | [] => []
  | p :: ps =>
    match read p with
    | .error _ => [p]
    | .ok _ => p :: upToFailure read ps

/-- **The paths that a pass asks for**, in order. -/
def consulted (read : String → Except Files.AccessError String) (store : Store) (path : String) : List String :=
  match read path with
  | .error _ => [path]
  | .ok text => path :: upToFailure read (namedIn store (Text.lines text.toList))

/-- Two file systems give the same answers for some paths. -/
def AgreeOn (read read' : String → Except Files.AccessError String) (paths : List String) : Prop :=
  ∀ p ∈ paths, read p = read' p

/-! ## The paths that lines name -/

theorem named?_eq_some_iff {store : Store} {line : List Char} {p : String} :
    named? store line = some p ↔ ∃ name, Directive line name ∧ p = pathOf store name := by
  constructor
  · intro h
    have hk := lineKind_spec line
    unfold named? at h
    cases hkind : lineKind line with
    | directive name =>
      rw [hkind] at h hk
      exact ⟨name, hk, (Option.some.inj h).symm⟩
    | malformed => rw [hkind] at h; cases h
    | pragma => rw [hkind] at h; cases h
    | code => rw [hkind] at h; cases h
  · rintro ⟨name, hd, rfl⟩
    unfold named?
    rw [lineKind_of_directive hd]

theorem mem_namedIn_iff {store : Store} {ls : List (List Char)} {p : String} :
    p ∈ namedIn store ls ↔ ∃ line ∈ ls, ∃ name, Directive line name ∧ p = pathOf store name := by
  unfold namedIn
  simp only [List.mem_filterMap, named?_eq_some_iff]

theorem namedIn_cons_of_none {store : Store} {line : List Char} (h : named? store line = none) (ls : List (List Char)) :
    namedIn store (line :: ls) = namedIn store ls := List.filterMap_cons_none h

theorem namedIn_cons_of_some {store : Store} {line : List Char} {p : String} (h : named? store line = some p)
    (ls : List (List Char)) : namedIn store (line :: ls) = p :: namedIn store ls := List.filterMap_cons_some h

theorem length_namedIn_le (store : Store) (ls : List (List Char)) : (namedIn store ls).length ≤ ls.length :=
  List.length_filterMap_le _ _

theorem upToFailure_isPrefix (read : String → Except Files.AccessError String) :
    ∀ ps : List String, upToFailure read ps <+: ps
  | [] => List.prefix_rfl
  | p :: ps => by
    rw [upToFailure]
    cases read p with
    | error cause => exact List.cons_prefix_cons.2 ⟨rfl, List.nil_prefix⟩
    | ok content => exact List.cons_prefix_cons.2 ⟨rfl, upToFailure_isPrefix read ps⟩

theorem upToFailure_cons_of_ok {read : String → Except Files.AccessError String} {p : String} {content : String}
    (h : read p = .ok content) (ps : List String) : upToFailure read (p :: ps) = p :: upToFailure read ps := by
  rw [upToFailure, h]

theorem mem_upToFailure_self (read : String → Except Files.AccessError String) (p : String) (ps : List String) :
    p ∈ upToFailure read (p :: ps) := by
  rw [upToFailure]
  cases read p with
  | error cause => exact List.mem_cons_self
  | ok content => exact List.mem_cons_self

section

variable {read read' : String → Except Files.AccessError String} {store : Store}

/-! ## Agreement is enough -/

theorem flattenLine_congr {line : List Char} (h : ∀ p, named? store line = some p → read p = read' p) (number : Nat) :
    flattenLine read store number line = flattenLine read' store number line := by
  unfold flattenLine
  unfold named? at h
  cases hkind : lineKind line with
  | directive name =>
    rw [hkind] at h
    have hsame : read (pathOf store name) = read' (pathOf store name) := h _ rfl
    simp only [hsame]
  | malformed => rfl
  | pragma => rfl
  | code => rfl

/-- **The outcome for some lines is settled by the answers for the paths they name**, up to the first that is none. -/
theorem flattenLines_congr : ∀ {ls : List (List Char)}, AgreeOn read read' (upToFailure read (namedIn store ls)) →
    ∀ number, flattenLines read store number ls = flattenLines read' store number ls
  | [], _, _ => rfl
  | line :: ls, h, number => by
    cases hn : named? store line with
    | none =>
      have hline : flattenLine read store number line = flattenLine read' store number line :=
        flattenLine_congr (fun p hp => by rw [hn] at hp; cases hp) number
      rw [namedIn_cons_of_none hn] at h
      rw [flattenLines, flattenLines, hline, flattenLines_congr h (number + 1)]
    | some p =>
      rw [namedIn_cons_of_some hn] at h
      have hp : read p = read' p := h p (mem_upToFailure_self read p _)
      have hline : flattenLine read store number line = flattenLine read' store number line :=
        flattenLine_congr (fun q hq => by rw [hn] at hq; cases hq; exact hp) number
      rw [flattenLines, flattenLines, ← hline]
      cases hr : read p with
      | error cause =>
        -- the pass ends here, whatever the lines below name
        obtain ⟨name, hd, rfl⟩ := named?_eq_some_iff.1 hn
        rw [flattenLine_error_iff.2 ⟨name, cause, hd, hr, rfl⟩]
      | ok content =>
        rw [upToFailure_cons_of_ok hr] at h
        rw [flattenLines_congr (fun q hq => h q (List.mem_cons_of_mem p hq)) (number + 1)]

theorem upToFailure_congr : ∀ {ps : List String}, AgreeOn read read' (upToFailure read ps) →
    upToFailure read ps = upToFailure read' ps
  | [], _ => rfl
  | p :: ps, h => by
    have hp : read p = read' p := h p (mem_upToFailure_self read p ps)
    rw [upToFailure, upToFailure, ← hp]
    cases hr : read p with
    | error cause => rfl
    | ok content =>
      rw [upToFailure_cons_of_ok hr] at h
      exact congrArg (p :: ·) (upToFailure_congr fun q hq => h q (List.mem_cons_of_mem p hq))

theorem self_mem_consulted (path : String) : path ∈ consulted read store path := by
  unfold consulted
  cases read path with
  | error cause => exact List.mem_cons_self
  | ok text => exact List.mem_cons_self

theorem named_mem_consulted {path text p : String} (hr : read path = .ok text)
    (hp : p ∈ upToFailure read (namedIn store (Text.lines text.toList))) : p ∈ consulted read store path := by
  unfold consulted
  rw [hr]
  exact List.mem_cons_of_mem path hp

/-- What is asked for is settled by the answers that were given. -/
theorem consulted_congr {path : String} (h : AgreeOn read read' (consulted read store path)) :
    consulted read store path = consulted read' store path := by
  have hpath : read path = read' path := h path (self_mem_consulted path)
  rw [consulted, consulted, ← hpath]
  cases hr : read path with
  | error cause => rfl
  | ok text => exact congrArg (path :: ·) (upToFailure_congr fun p hp => h p (named_mem_consulted hr hp))

/-- **Answers that agree on what a pass asks for give the same outcome.** -/
theorem flatten_congr {path : String} (h : AgreeOn read read' (consulted read store path)) :
    flatten read store path = flatten read' store path := by
  have hpath : read path = read' path := h path (self_mem_consulted path)
  rw [flatten, flatten, ← hpath]
  cases hr : read path with
  | error cause => rfl
  | ok text => exact flattenLines_congr (fun p hp => h p (named_mem_consulted hr hp)) 1

/-! ## Every path that is asked for matters -/

/-- A path that lines name before any that cannot be read: made unreadable, it ends the pass. -/
theorem flattenLines_update {p : String} (cause : Files.AccessError) : ∀ {ls : List (List Char)} (number : Nat),
    p ∈ upToFailure read (namedIn store ls) → ∃ name place,
      flattenLines (Function.update read p (.error cause)) store number ls =
        .error (.includeNotFound name p place cause)
  | [], _, h => by cases h
  | line :: ls, number, h => by
    cases hn : named? store line with
    | none =>
      rw [namedIn_cons_of_none hn] at h
      obtain ⟨name, place, hrest⟩ := flattenLines_update cause (number + 1) h
      cases hline : flattenLine (Function.update read p (.error cause)) store number line with
      | error e =>
        obtain ⟨name', cause', hd, -, -⟩ := flattenLine_error_iff.1 hline
        rw [named?_eq_some_iff.2 ⟨name', hd, rfl⟩] at hn
        cases hn
      | ok here => exact ⟨name, place, (flattenLines_cons_error hline).2 hrest⟩
    | some q =>
      rw [namedIn_cons_of_some hn] at h
      obtain ⟨name', hd, hq⟩ := named?_eq_some_iff.1 hn
      by_cases hqp : q = p
      · subst hqp
        have hnow : Function.update read q (.error cause) (pathOf store name') = .error cause := by
          rw [hq, Function.update_self]
        refine ⟨String.ofList name', number, ?_⟩
        rw [flattenLines, flattenLine_error_iff.2 ⟨name', cause, hd, hnow, rfl⟩, hq]
      · have hnow : Function.update read p (.error cause) q = read q := Function.update_of_ne hqp ..
        obtain ⟨content, hr, hbelow⟩ : ∃ content, read q = .ok content ∧ p ∈ upToFailure read (namedIn store ls) := by
          rw [upToFailure] at h
          cases hr : read q with
          | error cause' =>
            rw [hr] at h
            exact absurd (List.mem_singleton.1 h).symm hqp
          | ok content =>
            rw [hr] at h
            exact ⟨content, rfl, (List.mem_cons.1 h).resolve_left (Ne.symm hqp)⟩
        obtain ⟨name, place, hrest⟩ := flattenLines_update cause (number + 1) hbelow
        cases hline : flattenLine (Function.update read p (.error cause)) store number line with
        | error e =>
          obtain ⟨name'', cause', hd', hr', -⟩ := flattenLine_error_iff.1 hline
          rw [← hd.unique hd', ← hq, hnow, hr] at hr'
          cases hr'
        | ok here => exact ⟨name, place, (flattenLines_cons_error hline).2 hrest⟩

/-- A path that a pass asks for: made unreadable, its cause is the outcome's. -/
theorem flatten_update {path p : String} (h : p ∈ consulted read store path) (cause : Files.AccessError) :
    ∃ e, flatten (Function.update read p (.error cause)) store path = .error e ∧ e.cause = cause := by
  unfold flatten
  by_cases hp : path = p
  · subst hp
    rw [Function.update_self]
    exact ⟨_, rfl, rfl⟩
  · have hnow : Function.update read p (.error cause) path = read path := Function.update_of_ne hp ..
    rw [hnow]
    unfold consulted at h
    cases hr : read path with
    | error cause' =>
      rw [hr] at h
      exact absurd (List.mem_singleton.1 h).symm hp
    | ok text =>
      rw [hr] at h
      have hnamed := (List.mem_cons.1 h).resolve_left (Ne.symm hp)
      obtain ⟨name, place, he⟩ := flattenLines_update cause 1 hnamed
      exact ⟨_, he, rfl⟩

/-- **No path that a pass asks for goes unused**: some other answer for it gives another outcome. -/
theorem exists_flatten_update_ne {path p : String} (h : p ∈ consulted read store path) :
    ∃ answer, flatten (Function.update read p answer) store path ≠ flatten read store path := by
  obtain ⟨e, he, hcause⟩ := flatten_update h .notFound
  obtain ⟨e', he', hcause'⟩ := flatten_update h .notText
  -- one of two causes is not the cause of the outcome as it was
  by_cases hsame : flatten (Function.update read p (.error .notFound)) store path = flatten read store path
  · refine ⟨.error .notText, fun hother => ?_⟩
    rw [← hsame, he, he'] at hother
    cases hother
    rw [hcause] at hcause'
    cases hcause'
  · exact ⟨.error .notFound, hsame⟩

/-- **A pass asks for just the paths whose answers can change its outcome.** -/
theorem mem_consulted_iff {path p : String} :
    p ∈ consulted read store path ↔
      ∃ answer, flatten (Function.update read p answer) store path ≠ flatten read store path := by
  constructor
  · exact exists_flatten_update_ne
  · rintro ⟨answer, hne⟩
    by_contra hnot
    refine hne (flatten_congr fun q hq => ?_).symm
    have hqp : q ≠ p := fun h => hnot (h ▸ hq)
    exact (Function.update_of_ne hqp ..).symm

/-! ## One level deep -/

/-- What is asked for is the file and what its own lines name. -/
theorem consulted_one_deep {path p : String} (h : p ∈ consulted read store path) :
    p = path ∨ ∃ text, read path = .ok text ∧
      ∃ line ∈ Text.lines text.toList, ∃ name, Directive line name ∧ p = pathOf store name := by
  unfold consulted at h
  cases hr : read path with
  | error cause =>
    rw [hr] at h
    exact Or.inl (List.mem_singleton.1 h)
  | ok text =>
    rw [hr] at h
    rcases List.mem_cons.1 h with hp | hnamed
    · exact Or.inl hp
    · have hmem : p ∈ namedIn store (Text.lines text.toList) := (upToFailure_isPrefix read _).subset hnamed
      exact Or.inr ⟨text, rfl, mem_namedIn_iff.1 hmem⟩

/-- How many lines the file at a path has. -/
def lineCount (read : String → Except Files.AccessError String) (path : String) : Nat :=
  match read path with
  | .error _ => 0
  | .ok text => (Text.lines text.toList).length

/-- A pass reads at most one file for each line, and the shader. -/
theorem length_consulted_le (path : String) : (consulted read store path).length ≤ lineCount read path + 1 := by
  unfold consulted lineCount
  cases read path with
  | error cause => exact Nat.le_refl _
  | ok text =>
    have hprefix := (upToFailure_isPrefix read (namedIn store (Text.lines text.toList))).length_le
    have hnames := length_namedIn_le store (Text.lines text.toList)
    simp only [List.length_cons]
    omega

theorem flattenLine_includes {number : Nat} {line : List Char} {f : Flattened}
    (h : flattenLine read store number line = .ok f) :
    f.includes = (named? store line).toList ∧ ∀ p, named? store line = some p → ∃ content, read p = .ok content := by
  unfold flattenLine at h
  unfold named?
  cases hkind : lineKind line with
  | directive name =>
    rw [hkind] at h
    simp only at h
    cases hr : read (pathOf store name) with
    | error cause => rw [hr] at h; cases h
    | ok content =>
      rw [hr] at h
      cases h
      refine ⟨rfl, fun p hp => ?_⟩
      cases hp
      exact ⟨content, hr⟩
  | malformed => rw [hkind] at h; cases h; exact ⟨rfl, fun p hp => by cases hp⟩
  | pragma => rw [hkind] at h; cases h; exact ⟨rfl, fun p hp => by cases hp⟩
  | code => rw [hkind] at h; cases h; exact ⟨rfl, fun p hp => by cases hp⟩

/-- **A pass that ends well asked once for each directive**, and lists what it asked for. -/
theorem flattenLines_includes : ∀ {ls : List (List Char)} {number : Nat} {f : Flattened},
    flattenLines read store number ls = .ok f →
      f.includes = namedIn store ls ∧ upToFailure read (namedIn store ls) = namedIn store ls
  | [], _, _, h => by
    cases h
    exact ⟨rfl, rfl⟩
  | line :: ls, number, f, h => by
    rw [flattenLines] at h
    cases hl : flattenLine read store number line with
    | error e => rw [hl] at h; cases h
    | ok here =>
      cases hls : flattenLines read store (number + 1) ls with
      | error e => rw [hl, hls] at h; cases h
      | ok below =>
        rw [hl, hls] at h
        cases h
        obtain ⟨hhere, hread⟩ := flattenLine_includes hl
        obtain ⟨hbelow, hall⟩ := flattenLines_includes hls
        have hincludes : (here.append below).includes = (named? store line).toList ++ namedIn store ls := by
          rw [← hhere, ← hbelow]
          rfl
        cases hn : named? store line with
        | none =>
          rw [hn] at hincludes
          rw [hincludes, namedIn_cons_of_none hn]
          exact ⟨rfl, hall⟩
        | some p =>
          obtain ⟨content, hr⟩ := hread p hn
          rw [hn] at hincludes
          rw [hincludes, namedIn_cons_of_some hn, upToFailure_cons_of_ok hr, hall]
          exact ⟨rfl, rfl⟩

end

/-- **What a pass reads and what becomes of it.** -/
structure OneDeep (read : String → Except Files.AccessError String) (store : Store) (path : String) : Prop where
  /-- The paths whose answers can change the outcome, whatever else there is. -/
  sensitive : ∀ p, p ∈ consulted read store path ↔
    ∃ answer, flatten (Function.update read p answer) store path ≠ flatten read store path
  /-- Those are the file and what its own lines name. -/
  near : ∀ p ∈ consulted read store path, p = path ∨ ∃ text, read path = .ok text ∧
    ∃ line ∈ Text.lines text.toList, ∃ name, Directive line name ∧ p = pathOf store name
  /-- The pass ends, with at most one of them for each line. -/
  bounded : (consulted read store path).length ≤ lineCount read path + 1
  /-- Each directive is served once: one include and one copy of the lines of its target. -/
  once : ∀ f, flatten read store path = .ok f → ∃ text, read path = .ok text ∧
    f.includes = (Text.lines text.toList).filterMap (named? store) ∧
    consulted read store path = path :: f.includes ∧
    f.lines = (Text.lines text.toList).flatMap (laid read store)

theorem oneDeep (read : String → Except Files.AccessError String) (store : Store) (path : String) :
    OneDeep read store path where
  sensitive _ := mem_consulted_iff
  near _ := consulted_one_deep
  bounded := length_consulted_le path
  once f h := by
    unfold flatten flattenText at h
    unfold consulted
    cases hr : read path with
    | error cause => rw [hr] at h; cases h
    | ok text =>
      rw [hr] at h
      obtain ⟨hincludes, hall⟩ := flattenLines_includes h
      refine ⟨text, rfl, hincludes, ?_, flattenLines_lines h⟩
      show path :: upToFailure read (namedIn store (Text.lines text.toList)) = path :: f.includes
      rw [hall, hincludes]

/-- **The outcome of a pass is settled by the file and by what its own lines name**: two file systems that give the same
answers for these give the same outcome, and nothing else is read on either. -/
theorem flatten_reads_one_deep {read read' : String → Except Files.AccessError String} {store : Store} {path : String}
    (hpath : read path = read' path)
    (hnamed : ∀ text, read path = .ok text → ∀ line ∈ Text.lines text.toList, ∀ name, Directive line name →
      read (pathOf store name) = read' (pathOf store name)) :
    flatten read store path = flatten read' store path ∧ consulted read store path = consulted read' store path ∧
      OneDeep read store path := by
  have hagree : AgreeOn read read' (consulted read store path) := by
    intro p hp
    rcases consulted_one_deep hp with rfl | ⟨text, hr, line, hline, name, hd, rfl⟩
    · exact hpath
    · exact hnamed text hr line hline name hd
  exact ⟨flatten_congr hagree, consulted_congr hagree, oneDeep read store path⟩

/-- A shader that includes a fragment twice, which names itself and a fragment that names it. -/
@[irreducible] def entangled : Files.Tree :=
  ⟨.dir [("a.frag", .file "#include <b>\n#include <b>\nfloat a;\n".toUTF8),
    ("b.glsl", .file "#include <b>\n#include <c>\nfloat b;\n".toUTF8),
    ("c.glsl", .file "#include <b>\nfloat c;\n".toUTF8)], []⟩

/-- The same without the fragment that only a fragment names. -/
@[irreducible] def severed : Files.Tree := entangled.remove "c.glsl"

theorem flatten_reads_one_deep_entangled :
    entangled.readText "./c.glsl" ≠ severed.readText "./c.glsl" ∧
    (entangled.readText "./a.frag" = severed.readText "./a.frag" ∧
      ∀ text, entangled.readText "./a.frag" = .ok text → ∀ line ∈ Text.lines text.toList, ∀ name, Directive line name →
        entangled.readText (pathOf bareRecipe.store name) = severed.readText (pathOf bareRecipe.store name)) ∧
    flatten entangled.readText bareRecipe.store "./a.frag" = flatten severed.readText bareRecipe.store "./a.frag" ∧
    consulted entangled.readText bareRecipe.store "./a.frag" = consulted severed.readText bareRecipe.store "./a.frag" ∧
    OneDeep entangled.readText bareRecipe.store "./a.frag" := by
  have hother : entangled.readText "./c.glsl" ≠ severed.readText "./c.glsl" := by decide +kernel
  have hpath : entangled.readText "./a.frag" = severed.readText "./a.frag" := by decide +kernel
  have hall : ∀ text, entangled.readText "./a.frag" = .ok text →
      ∀ p ∈ namedIn bareRecipe.store (Text.lines text.toList), entangled.readText p = severed.readText p := by
    have hchecked : (entangled.readText "./a.frag").toOption.all (fun text =>
        (namedIn bareRecipe.store (Text.lines text.toList)).all fun p =>
          decide (entangled.readText p = severed.readText p)) = true := by decide +kernel
    intro text hr p hp
    rw [hr] at hchecked
    exact of_decide_eq_true (List.all_eq_true.1 hchecked p hp)
  have hnamed : ∀ text, entangled.readText "./a.frag" = .ok text → ∀ line ∈ Text.lines text.toList, ∀ name,
      Directive line name → entangled.readText (pathOf bareRecipe.store name) = severed.readText (pathOf bareRecipe.store name) :=
    fun text hr line hline name hd => hall text hr _ (mem_namedIn_iff.2 ⟨line, hline, name, hd, rfl⟩)
  exact ⟨hother, ⟨hpath, hnamed⟩, flatten_reads_one_deep hpath hnamed⟩

end Source
end LiveShader
