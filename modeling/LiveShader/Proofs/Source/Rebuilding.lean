import LiveShader.Proofs.Files.Overwriting
import LiveShader.Proofs.Source.Concatenation
import LiveShader.Proofs.Source.Reads
/-!
# Proofs.Source.Rebuilding — assembling a source once more

A source has more lines without marks than any file that it was assembled from (`plainCount_lt`).  So a copy of it that
is written over one of these files changes that file and every source that is assembled from it afterwards; where the
copy goes anywhere else, the same source comes again (`assemble_again`).

Both halves are about trees in which what can be read can be written and a file has one location.  Under permissions a
copy over a file that was read may fail and leave it as it was, and through a hard link a copy may change a file that
its path, links followed, does not lead to.
-/
namespace LiveShader
namespace Source

/-! ## Lines without marks -/

def isPlain (line : List Char) : Bool := !Text.occursIn includeMark line && !Text.occursIn versionMark line

/-- How many lines of a text have no mark. -/
def plainCount (text : List Char) : Nat := (Text.lines text).countP isPlain

theorem isPlain_iff {line : List Char} : isPlain line = true ↔ ¬ includeMark <:+: line ∧ ¬ versionMark <:+: line := by
  unfold isPlain
  rw [Bool.and_eq_true, Bool.not_eq_true', Bool.not_eq_true', ← Bool.not_eq_true, ← Bool.not_eq_true,
    Text.occursIn_iff_isInfix, Text.occursIn_iff_isInfix]

theorem isPlain_of_isInfix {line part : List Char} (h : part <:+: line) (hline : isPlain line = true) :
    isPlain part = true := by
  obtain ⟨hm, hv⟩ := isPlain_iff.1 hline
  exact isPlain_iff.2 ⟨fun hpart => hm (hpart.trans h), fun hpart => hv (hpart.trans h)⟩

theorem plainCount_append {a : List Char} (h : Text.Whole a) (b : List Char) :
    plainCount (a ++ b) = plainCount a + plainCount b := by
  unfold plainCount
  rw [Text.lines_append h, List.countP_append]

/-- Lines that are put together are at least as many lines without marks. -/
theorem countP_le_plainCount_unlines {ls : List (List Char)} (h : ∀ l ∈ ls, '\n' ∉ l) :
    ls.countP isPlain ≤ plainCount (Text.unlines ls) := by
  induction ls with
  | nil => exact Nat.le_refl 0
  | cons l ls ih =>
    obtain ⟨cut, hcut, hprefix⟩ := Text.lines_line (h l List.mem_cons_self)
    have hrest := ih fun l hl => h l (List.mem_cons_of_mem _ hl)
    have hfirst : [l].countP isPlain ≤ plainCount (l ++ ['\n']) := by
      unfold plainCount
      rw [hcut, List.countP_singleton, List.countP_singleton]
      split
      · next hl => rw [if_pos (isPlain_of_isInfix hprefix.isInfix hl)]
      · exact Nat.zero_le _
    have hsplit : Text.unlines (l :: ls) = (l ++ ['\n']) ++ Text.unlines ls := by
      rw [Text.unlines_cons, List.append_assoc, List.singleton_append]
    rw [hsplit, plainCount_append (.inr ⟨l, rfl⟩), ← List.singleton_append, List.countP_append]
    exact Nat.add_le_add hfirst hrest

/-- A text around lines, with a line break on both sides, has one more line without marks, at the least. -/
theorem countP_lt_plainCount_around (above back : List Char) {ls : List (List Char)} (h : ∀ l ∈ ls, '\n' ∉ l) :
    ls.countP isPlain < plainCount ((above ++ ['\n']) ++ (Text.unlines ls ++ '\n' :: back)) := by
  have hempty : 0 < plainCount ('\n' :: back) := by
    rw [plainCount, Text.lines_newline, List.countP_cons_of_pos (by decide)]
    exact Nat.succ_pos _
  have hls := countP_le_plainCount_unlines h
  rw [plainCount_append (.inr ⟨above, rfl⟩), plainCount_append (Text.whole_unlines ls)]
  omega

/-- The harness has a line break on both sides of the lines. -/
theorem assembled_around (version : GlVersion) :
    ∃ above back, ∀ ls, assembled version ls = (above ++ ['\n']) ++ (Text.unlines ls ++ '\n' :: back) := by
  obtain ⟨-, -, -, back, hback⟩ := cut?_harness
  have hmark : lineMark = "#line 1".toList ++ ['\n'] := by decide
  -- of any front, so that the kernel need not decode that of the harness
  have hregroup : ∀ pragma front mark rest : List Char,
      pragma ++ '\n' :: (front ++ ((mark ++ ['\n']) ++ rest)) =
        ((pragma ++ '\n' :: (front ++ mark)) ++ ['\n']) ++ rest := by
    intro pragma front mark rest
    simp only [List.append_assoc, List.cons_append]
  refine ⟨version.directive.toList ++ '\n' :: (harnessFront ++ "#line 1".toList), back, fun ls => ?_⟩
  rw [assembled, hback, hmark, hregroup]

/-! ## Files and sources -/

section

variable {read : String → Except Files.AccessError String} {store : Store}

theorem countP_le_laid (line : List Char) : [line].countP isPlain ≤ (laid read store line).countP isPlain := by
  rw [List.countP_singleton]
  split
  · next hplain =>
    obtain ⟨hm, hv⟩ := isPlain_iff.1 hplain
    rw [laid_of_code hm hv, List.countP_singleton, if_pos hplain]
  · exact Nat.zero_le _

/-- A shader's lines without marks are laid out. -/
theorem countP_le_flatMap_laid (ls : List (List Char)) :
    ls.countP isPlain ≤ (ls.flatMap (laid read store)).countP isPlain := by
  induction ls with
  | nil => exact Nat.le_refl 0
  | cons line ls ih =>
    rw [← List.singleton_append, List.countP_append, List.flatMap_append, List.countP_append, List.flatMap_singleton]
    exact Nat.add_le_add (countP_le_laid line) ih

/-- So are those of a fragment that the shader names. -/
theorem plainCount_le_flatMap_laid {ls : List (List Char)} {line name : List Char} {content : String}
    (hline : line ∈ ls) (hd : Directive line name) (hr : read (pathOf store name) = .ok content) :
    plainCount content.toList ≤ (ls.flatMap (laid read store)).countP isPlain := by
  have hlaid : laid read store line = (Text.lines content.toList).filter keptInFragment := by
    rw [laid, lineKind_of_directive hd]
    simp only [hr]
  have hkept : ∀ l, isPlain l = true → keptInFragment l = true := fun l hl =>
    keptInFragment_iff.2 (.inr (isPlain_iff.1 hl).2)
  have hall : plainCount content.toList = (laid read store line).countP isPlain := by
    rw [hlaid, plainCount, List.countP_filter]
    refine List.countP_congr fun l _ => ?_
    rw [Bool.and_eq_true]
    exact ⟨fun hl => ⟨hl, hkept l hl⟩, And.left⟩
  obtain ⟨before, after, rfl⟩ := List.append_of_mem hline
  rw [hall, List.flatMap_append, List.flatMap_cons, List.countP_append, List.countP_append]
  exact Nat.le_add_left_of_le (Nat.le_add_right _ _)

/-- A pass that ends well could read whatever the lines name. -/
theorem flattenLines_readable : ∀ {ls : List (List Char)} {number : Nat} {f : Flattened},
    flattenLines read store number ls = .ok f → ∀ line ∈ ls, Readable read store line
  | [], _, _, _ => fun _ hline => nomatch hline
  | first :: ls, number, f, h => by
    rw [flattenLines] at h
    cases hl : flattenLine read store number first with
    | error e => rw [hl] at h; cases h
    | ok here =>
      cases hls : flattenLines read store (number + 1) ls with
      | error e => rw [hl, hls] at h; cases h
      | ok below => exact List.forall_mem_cons.2 ⟨readable_of_ok hl, flattenLines_readable hls⟩

/-- What a pass that ends well asked for. -/
theorem mem_consulted_of_ok {path text p : String} {f : Flattened} (h : flatten read store path = .ok f)
    (hr : read path = .ok text) :
    p ∈ consulted read store path ↔ p = path ∨ p ∈ namedIn store (Text.lines text.toList) := by
  rw [flatten_of_read hr] at h
  unfold consulted
  rw [hr]
  simp only [(flattenLines_includes h).2, List.mem_cons]

end

namespace Recipe

variable {r : Recipe} {t : Files.Tree} {name s p : String}

/-- The paths of the files that a source is assembled from. -/
def reads (r : Recipe) (t : Files.Tree) (name : String) : List String :=
  consulted t.readText r.store (r.store.shaderPath name)

theorem fragmentSource_eq_ok_iff : r.fragmentSource t name = .ok s ↔ r.store.contains t name = true ∧
    ∃ f, flatten t.readText r.store (r.store.shaderPath name) = .ok f ∧ wrap f.source r.version = s := by
  unfold fragmentSource
  cases r.store.contains t name with
  | false => simp
  | true => cases hf : flatten t.readText r.store (r.store.shaderPath name) <;> simp [hf]

/-- The files that a source was assembled from could be read, and each has fewer lines without marks. -/
theorem plainCount_lt (h : r.fragmentSource t name = .ok s) (hp : p ∈ r.reads t name) :
    ∃ text, t.readText p = .ok text ∧ plainCount text.toList < plainCount s.toList := by
  obtain ⟨shader, hshader, hs⟩ := fragmentSource_toList h
  obtain ⟨-, f, hf, -⟩ := fragmentSource_eq_ok_iff.1 h
  have hlines : ∀ l ∈ (Text.lines shader.toList).flatMap (laid t.readText r.store), '\n' ∉ l := by
    intro l hl
    obtain ⟨line, hline, hlaid⟩ := List.mem_flatMap.1 hl
    exact newline_not_mem_laid (Text.newline_not_mem_lines hline) hlaid
  obtain ⟨above, back, haround⟩ := assembled_around r.version
  have hmore := countP_lt_plainCount_around above back hlines
  rw [← haround, ← hs] at hmore
  obtain rfl | hnamed := (mem_consulted_of_ok hf hshader).1 hp
  · exact ⟨shader, hshader, Nat.lt_of_le_of_lt (countP_le_flatMap_laid _) hmore⟩
  · obtain ⟨line, hline, fragment, hd, rfl⟩ := mem_namedIn_iff.1 hnamed
    rw [flatten_of_read hshader] at hf
    obtain ⟨content, hr⟩ := flattenLines_readable hf line hline fragment hd
    exact ⟨content, hr, Nat.lt_of_le_of_lt (plainCount_le_flatMap_laid hline hd hr) hmore⟩

/-- So none of them reads as the source does. -/
theorem readText_ne (h : r.fragmentSource t name = .ok s) (hp : p ∈ r.reads t name) : t.readText p ≠ .ok s := by
  intro hread
  obtain ⟨text, htext, hlt⟩ := plainCount_lt h hp
  rw [Except.ok.inj (hread.symm.trans htext)] at hlt
  exact Nat.lt_irrefl _ hlt

/-- The copy of a source is not written over a file that the source is assembled from. -/
def Spares (r : Recipe) (t : Files.Tree) (name : String) : Prop :=
  ∀ copy ∈ r.dumpPath, ∀ p ∈ r.reads t name, ¬ t.SameFile copy p

instance (r : Recipe) (t : Files.Tree) (name : String) : Decidable (r.Spares t name) :=
  inferInstanceAs (Decidable (∀ copy ∈ r.dumpPath, ∀ p ∈ r.reads t name, ¬ t.SameFile copy p))

theorem dump_of_some {copy : String} (hcopy : r.dumpPath = some copy) (s : String) (t : Files.Tree) :
    r.dump s t = t.write copy s.toUTF8 := by
  unfold dump
  rw [hcopy]

theorem dump_dump (r : Recipe) (s : String) (t : Files.Tree) : r.dump s (r.dump s t) = r.dump s t := by
  unfold dump
  cases r.dumpPath with
  | none => rfl
  | some copy => exact Files.Tree.write_write t copy s.toUTF8

theorem assemble_eq_ok_iff {t' : Files.Tree} :
    r.assemble t name = (.ok s, t') ↔ r.fragmentSource t name = .ok s ∧ r.dump s t = t' := by
  unfold assemble
  cases r.fragmentSource t name with
  | error e => simp
  | ok source =>
    simp only [Prod.mk.injEq, Except.ok.injEq]
    refine and_congr_right fun hs => ?_
    rw [hs]

/-- **Files that are as they were** make the same source. -/
theorem fragmentSource_congr {t' : Files.Tree} (h : r.fragmentSource t name = .ok s)
    (hsame : ∀ p ∈ r.reads t name, t'.read p = t.read p) : r.fragmentSource t' name = .ok s := by
  obtain ⟨hcontains, f, hf, hs⟩ := fragmentSource_eq_ok_iff.1 h
  have htexts : AgreeOn t.readText t'.readText (r.reads t name) := fun p hp =>
    Files.Tree.readText_congr (hsame p hp).symm
  have hthere : r.store.contains t' name = true := by
    obtain ⟨hname, hfile⟩ := Bool.and_eq_true_iff.1 hcontains
    obtain ⟨content, hread⟩ := Files.Tree.isFile_iff.1 hfile
    have hread' := (hsame _ (self_mem_consulted _)).trans hread
    exact Bool.and_eq_true_iff.2 ⟨hname, Files.Tree.isFile_iff.2 ⟨content, hread'⟩⟩
  exact fragmentSource_eq_ok_iff.2 ⟨hthere, f, (flatten_congr htexts).symm.trans hf, hs⟩

theorem read_dump_of_spares (h : r.fragmentSource t name = .ok s) (hspares : r.Spares t name) :
    ∀ p ∈ r.reads t name, (r.dump s t).read p = t.read p := by
  intro p hp
  cases hcopy : r.dumpPath with
  | none =>
    unfold dump
    rw [hcopy]
  | some copy =>
    obtain ⟨text, htext, -⟩ := plainCount_lt h hp
    obtain ⟨content, hread, -⟩ := Files.Tree.readText_eq_ok_iff.1 htext
    rw [dump_of_some hcopy, hread, Files.Tree.read_write_apart hread (hspares copy hcopy p hp)]

/-- Where the copy was written over a file that is read, the source is what is read there. -/
theorem readText_dump {copy : String} (hcopy : r.dumpPath = some copy) (hp : t.SameFile copy p) (s : String) :
    (r.dump s t).readText p = .ok s := by
  rw [dump_of_some hcopy]
  exact Files.Tree.readText_eq_ok_iff.2 ⟨_, Files.Tree.read_write_same hp _, Text.fromUTF8?_toUTF8 s⟩

/-- A source that was written over a file that it is assembled from is read when the next is assembled: over the shader,
the shader is read again; over a fragment only, the shader still names it. -/
theorem exists_reads_dump {copy s' : String} (h : r.fragmentSource t name = .ok s) (hcopy : r.dumpPath = some copy)
    (hp : p ∈ r.reads t name) (hsame : t.SameFile copy p) (h' : r.fragmentSource (r.dump s t) name = .ok s') :
    ∃ q ∈ r.reads (r.dump s t) name, (r.dump s t).readText q = .ok s := by
  by_cases hshader : t.SameFile copy (r.store.shaderPath name)
  · exact ⟨_, self_mem_consulted _, readText_dump hcopy hshader s⟩
  · obtain ⟨text, htext, -⟩ := plainCount_lt h (self_mem_consulted _)
    obtain ⟨content, hread, hdecoded⟩ := Files.Tree.readText_eq_ok_iff.1 htext
    have htext' : (r.dump s t).readText (r.store.shaderPath name) = .ok text := by
      rw [dump_of_some hcopy]
      exact Files.Tree.readText_eq_ok_iff.2 ⟨content, Files.Tree.read_write_apart hread hshader _, hdecoded⟩
    obtain ⟨-, f, hf, -⟩ := fragmentSource_eq_ok_iff.1 h
    obtain ⟨-, f', hf', -⟩ := fragmentSource_eq_ok_iff.1 h'
    refine ⟨p, ?_, readText_dump hcopy hsame s⟩
    exact (mem_consulted_of_ok hf' htext').2 ((mem_consulted_of_ok hf htext).1 hp)

/-- A copy that is written over a file that is read changes that file. -/
theorem read_dump_ne {copy : String} (h : r.fragmentSource t name = .ok s) (hcopy : r.dumpPath = some copy)
    (hp : p ∈ r.reads t name) (hsame : t.SameFile copy p) : (r.dump s t).read p ≠ t.read p := by
  intro hunchanged
  have hread : t.readText p = (r.dump s t).readText p := Files.Tree.readText_congr hunchanged.symm
  exact readText_ne h hp (hread.trans (readText_dump hcopy hsame s))

/-- And the source does not come again. -/
theorem fragmentSource_dump_ne {copy : String} (h : r.fragmentSource t name = .ok s) (hcopy : r.dumpPath = some copy)
    (hp : p ∈ r.reads t name) (hsame : t.SameFile copy p) : r.fragmentSource (r.dump s t) name ≠ .ok s := by
  intro hagain
  obtain ⟨q, hq, hread⟩ := exists_reads_dump h hcopy hp hsame hagain
  exact readText_ne hagain hq hread

/-- **Assembling a source once more** gives it again, from files that were all left as they are, where its copy was not
written over one of them; where it was, that file has changed and the source does not come again. -/
theorem assemble_again {t' : Files.Tree} (h : r.assemble t name = (.ok s, t')) :
    (r.Spares t name → r.assemble t' name = (.ok s, t') ∧ ∀ p ∈ r.reads t name, t'.read p = t.read p) ∧
    (¬ r.Spares t name → (r.assemble t' name).1 ≠ .ok s ∧ ∃ p ∈ r.reads t name, t'.read p ≠ t.read p) := by
  obtain ⟨hs, rfl⟩ := assemble_eq_ok_iff.1 h
  constructor
  · intro hspares
    have hsame := read_dump_of_spares hs hspares
    exact ⟨assemble_eq_ok_iff.2 ⟨fragmentSource_congr hs hsame, dump_dump r s t⟩, hsame⟩
  · intro hover
    obtain ⟨copy, hcopy, p, hp, hsame⟩ : ∃ copy ∈ r.dumpPath, ∃ p ∈ r.reads t name, t.SameFile copy p := by
      simpa only [Spares, not_forall, not_not, exists_prop] using hover
    refine ⟨fun hagain => ?_, p, hp, read_dump_ne hs hcopy hp hsame⟩
    exact fragmentSource_dump_ne hs hcopy hp hsame ((assemble_fst r _ name).symm.trans hagain)

end Recipe

/-- The recipe with a copy. -/
def copying (copy : String) : Recipe := { bareRecipe with dumpPath := some copy }

/-- A shader, the fragment that it includes, one that it does not, and links to both fragments. -/
@[irreducible] def linkedCopies : Files.Tree :=
  ⟨.dir [("a.frag", .file "#include <b>\nvoid mainImage() \x7b\x7d\n".toUTF8), ("b.glsl", .file "float b;\n".toUTF8),
    ("c.glsl", .file "float c;\n".toUTF8), ("to-b", .link "b.glsl"), ("to-c", .link "./c.glsl")], []⟩

theorem assemble_again_linkedCopies :
    (∃ s t', (copying "to-c").assemble linkedCopies "a" = (.ok s, t') ∧ (copying "to-c").Spares linkedCopies "a" ∧
      (copying "to-c").assemble t' "a" = (.ok s, t') ∧
      ∀ p ∈ (copying "to-c").reads linkedCopies "a", t'.read p = linkedCopies.read p) ∧
    ∃ s t', (copying "to-b").assemble linkedCopies "a" = (.ok s, t') ∧ ¬ (copying "to-b").Spares linkedCopies "a" ∧
      ((copying "to-b").assemble t' "a").1 ≠ .ok s ∧
      ∃ p ∈ (copying "to-b").reads linkedCopies "a", t'.read p ≠ linkedCopies.read p := by
  have hspares : (copying "to-c").Spares linkedCopies "a" := by decide +kernel
  have hover : ¬ (copying "to-b").Spares linkedCopies "a" := by decide +kernel
  obtain ⟨s, hs⟩ := exists_ok_of_isSome (x := (copying "to-c").fragmentSource linkedCopies "a") (by decide +kernel)
  obtain ⟨u, hu⟩ := exists_ok_of_isSome (x := (copying "to-b").fragmentSource linkedCopies "a") (by decide +kernel)
  have hs' := Recipe.assemble_eq_ok_iff.2 ⟨hs, rfl⟩
  have hu' := Recipe.assemble_eq_ok_iff.2 ⟨hu, rfl⟩
  exact ⟨⟨s, _, hs', hspares, (Recipe.assemble_again hs').1 hspares⟩,
    ⟨u, _, hu', hover, (Recipe.assemble_again hu').2 hover⟩⟩

/-- A shader on its own. -/
@[irreducible] def lone : Files.Tree := ⟨.dir [("a.frag", .file "void mainImage() \x7b\x7d\n".toUTF8)], []⟩

/-- A copy that is written over the shader: the shader has changed, and another source comes next. -/
theorem assemble_over_shader : ∃ s t', (copying "a.frag").assemble lone "a" = (.ok s, t') ∧
    ((copying "a.frag").assemble t' "a").1 ≠ .ok s ∧ t'.read "./a.frag" ≠ lone.read "./a.frag" := by
  obtain ⟨s, hs⟩ := exists_ok_of_isSome (x := (copying "a.frag").fragmentSource lone "a") (by decide +kernel)
  have hshader : "./a.frag" ∈ (copying "a.frag").reads lone "a" := self_mem_consulted _
  have hsame : lone.SameFile "a.frag" "./a.frag" := by decide +kernel
  refine ⟨s, _, Recipe.assemble_eq_ok_iff.2 ⟨hs, rfl⟩, ?_, Recipe.read_dump_ne hs rfl hshader hsame⟩
  rw [Recipe.assemble_fst]
  exact Recipe.fragmentSource_dump_ne hs rfl hshader hsame

end Source
end LiveShader
