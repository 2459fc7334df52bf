import LiveShader.Config.Settings
import LiveShader.Proofs.Store.Naming
/-!
# Proofs.Store.Completeness — which files of a store are listed, and how often

A walk reads every directory below the root once, and none through a link (`mem_dirsBelow`, `nodup_dirsBelow`).  A file
that a name leads to is listed under that name exactly once, unless its extension has a dot or a slash in it, or the
name ends in one dot or two (`list_once_iff`).  An extension with a dot is accepted all the same
(`list_dottedExtension`).
-/
namespace LiveShader
namespace Path

/-- What stands before the last name of a path ends in a slash, if it is anything. -/
theorem intercalate_front (dirs : List String) : ∃ front : String,
    (front = "" ∨ front.toList.getLast? = some '/') ∧ ∀ file, "/".intercalate (dirs ++ [file]) = front ++ file := by
  by_cases hnil : dirs = []
  · exact ⟨"", .inl rfl, by simp [hnil]⟩
  · refine ⟨"/".intercalate dirs ++ "/", .inr (by simp), fun file => ?_⟩
    rw [String.intercalate_append_of_ne_nil hnil (by simp), String.intercalate_singleton]

/-- **A path that ends in an extension** without a slash: its last name ends in it. -/
theorem exists_stem {dirs : List String} {file name extension : String}
    (hpath : "/".intercalate (dirs ++ [file]) = name ++ "." ++ extension) (hne : name ≠ "")
    (hlast : name.toList.getLast? ≠ some '/') (hext : '/' ∉ extension.toList) :
    ∃ stem, stem ≠ "" ∧ file = stem ++ "." ++ extension ∧ name = "/".intercalate (dirs ++ [stem]) := by
  obtain ⟨front, hend, hfront⟩ := intercalate_front dirs
  have hname : front ≠ name := by
    rintro rfl
    exact hend.elim hne hlast
  rw [hfront, ← String.toList_inj] at hpath
  simp only [String.toList_append, List.append_assoc] at hpath
  obtain ⟨rest, hfile, hdotted⟩ | ⟨rest, hfile, hdotted⟩ := List.append_eq_append_iff.1 hpath
  · refine ⟨String.ofList rest, fun hempty => hname ?_, ?_, ?_⟩
    · obtain rfl : rest = [] := by simpa using hempty
      rw [← String.toList_inj, hfile, List.append_nil]
    · rw [← String.toList_inj, hdotted]
      simp
    · rw [hfront, ← String.toList_inj, hfile]
      simp
  · -- the slash that the front ends in would stand in the extension
    cases hr : rest.getLast? with
    | none =>
      obtain rfl : rest = [] := by simpa using hr
      exact absurd (String.toList_inj.1 (by rw [hfile, List.append_nil])) hname
    | some c =>
      have hfrontEnd : front.toList.getLast? = some c := by rw [hfile, List.getLast?_append, hr]; rfl
      obtain rfl : c = '/' := by
        obtain rfl | hend := hend
        · simp at hfrontEnd
        · rw [hend] at hfrontEnd
          exact (Option.some.inj hfrontEnd).symm
      have hmem : '/' ∈ ".".toList ++ extension.toList := hdotted ▸ List.mem_append_left _ (List.mem_of_getLast? hr)
      simp [hext] at hmem

end Path

namespace Store

open Files (Node Tree Location properEntries)

variable {entries : List (String × Node)} {dirs : List String} {file extension name : String}

/-! ## The directories that are read -/

theorem nil_not_mem_dirsBelow (entries : List (String × Node)) : [] ∉ dirsBelow entries := by
  induction entries using dirsBelow.induct with
  | case1 => simp [dirsBelow]
  | case2 _ _ rest ih | case3 _ _ rest ih => rwa [dirsBelow]
  | case4 n below rest _ ih => simp [dirsBelow, ih]

theorem concat_mem_dirsBelow (h : properEntries entries = true) {dir : String} :
    dirs ++ [dir] ∈ dirsBelow entries ↔ ∃ es, (Node.dir entries).get? (dirs ++ [dir]) = some (.dir es) := by
  induction entries using dirsBelow.induct generalizing dirs with
  | case1 => cases dirs <;> simp [dirsBelow, Node.get?, Files.findEntry]
  | case2 n content rest ih =>
    obtain ⟨-, hfresh, -, hrest⟩ := Files.properEntries_cons.1 h
    have hleaf : ∀ ds, (Node.file content).get? (ds ++ [dir]) = none := by
      intro ds
      cases ds <;> rfl
    simp [dirsBelow, ih hrest, Files.get?_cons_iff hfresh, hleaf]
  | case3 n target rest ih =>
    obtain ⟨-, hfresh, -, hrest⟩ := Files.properEntries_cons.1 h
    have hleaf : ∀ ds, (Node.link target).get? (ds ++ [dir]) = none := by
      intro ds
      cases ds <;> rfl
    simp [dirsBelow, ih hrest, Files.get?_cons_iff hfresh, hleaf]
  | case4 n below rest ihbelow ihrest =>
    obtain ⟨-, hfresh, hbelow, hrest⟩ := Files.properEntries_cons.1 h
    have hmem : dirs ++ [dir] ∈ dirsBelow ((n, .dir below) :: rest) ↔
        (dirs = [] ∧ n = dir) ∨ (∃ ds, dirs = n :: ds ∧ ds ++ [dir] ∈ dirsBelow below) ∨
          dirs ++ [dir] ∈ dirsBelow rest := by
      have hnil := nil_not_mem_dirsBelow below
      cases dirs with
      | nil => simp [dirsBelow, hnil, eq_comm]
      | cons d ds => simp [dirsBelow, and_comm, eq_comm (a := n)]
    simp only [hmem, ihbelow hbelow, ihrest hrest, Files.get?_cons_iff hfresh, exists_or, Node.dir.injEq]
    simp only [exists_and_left, exists_eq', and_true]
    rw [exists_comm]
    simp only [exists_and_left]

/-- **The directories that a walk reads** are those below the root that no link leads to. -/
theorem mem_dirsBelow (h : properEntries entries = true) :
    dirs ∈ dirsBelow entries ↔ dirs ≠ [] ∧ ∃ es, (Node.dir entries).get? dirs = some (.dir es) := by
  rcases List.eq_nil_or_concat dirs with rfl | ⟨ds, dir, rfl⟩
  · simp [nil_not_mem_dirsBelow]
  · rw [List.concat_eq_append, concat_mem_dirsBelow h]
    simp

/-- **A walk reads no directory twice.** -/
theorem nodup_dirsBelow (h : properEntries entries = true) : (dirsBelow entries).Nodup := by
  induction entries using dirsBelow.induct with
  | case1 => simp [dirsBelow]
  | case2 n content rest ih | case3 n target rest ih =>
    obtain ⟨-, -, -, hrest⟩ := Files.properEntries_cons.1 h
    rw [dirsBelow]
    exact ih hrest
  | case4 n below rest ihbelow ihrest =>
    obtain ⟨-, hfresh, hbelow, hrest⟩ := Files.properEntries_cons.1 h
    rw [dirsBelow]
    refine List.nodup_append'.2 ⟨List.nodup_cons.2 ⟨?_, ?_⟩, ihrest hrest, ?_⟩
    · simp [nil_not_mem_dirsBelow]
    · exact (ihbelow hbelow).map (List.cons_injective)
    · intro ds hds hother
      obtain ⟨-, es, hes⟩ := (mem_dirsBelow hrest).1 hother
      obtain ⟨tail, rfl⟩ : ∃ tail, ds = n :: tail := by
        obtain rfl | hds := List.mem_cons.1 hds
        · exact ⟨[], rfl⟩
        · obtain ⟨tail, -, rfl⟩ := List.mem_map.1 hds
          exact ⟨tail, rfl⟩
      simp [Files.get?_of_fresh hfresh] at hes

/-! ## How often a name is listed -/

theorem countP_eq_one_iff {α : Type} {p : α → Bool} {l : List α} (h : l.Nodup) :
    l.countP p = 1 ↔ ∃ a ∈ l, p a = true ∧ ∀ b ∈ l, p b = true → b = a := by
  rw [List.countP_eq_length_filter, List.length_eq_one_iff]
  constructor
  · rintro ⟨a, ha⟩
    have hmem : ∀ b, b ∈ l ∧ p b = true ↔ b = a := by
      intro b
      rw [← List.mem_filter, ha, List.mem_singleton]
    obtain ⟨hal, hpa⟩ := (hmem a).2 rfl
    exact ⟨a, hal, hpa, fun b hb hpb => (hmem b).1 ⟨hb, hpb⟩⟩
  · rintro ⟨a, hal, hpa, hunique⟩
    refine ⟨a, (List.perm_singleton.1 ((List.perm_ext_iff_of_nodup (h.filter p) (List.nodup_singleton a)).2 ?_))⟩
    intro b
    rw [List.mem_filter, List.mem_singleton]
    constructor
    · exact fun hb => hunique b hb.1 hb.2
    · rintro rfl
      exact ⟨hal, hpa⟩

/-- A name is listed once if it is the name of one file alone. -/
theorem count_namesBelow (h : properEntries entries = true) :
    (namesBelow extension entries).count name = 1 ↔
      ∃ dirs file, ((dirs, file) ∈ filesBelow entries ∧ listedName? extension dirs file = some name) ∧
        ∀ ds f, (ds, f) ∈ filesBelow entries → listedName? extension ds f = some name → ds = dirs ∧ f = file := by
  unfold namesBelow
  rw [(List.mergeSort_perm _ _).count_eq, List.count_filterMap, countP_eq_one_iff (nodup_filesBelow h)]
  simp only [Prod.exists, Prod.forall, beq_iff_eq, Prod.mk.injEq, and_assoc]

theorem listedStem_ne_dot (stem : String) : listedStem stem ≠ "." := by
  unfold listedStem
  split
  · decide
  · assumption

theorem entryNames_of_mem (h : properEntries entries = true) (hmem : (dirs, file) ∈ filesBelow entries) :
    ∀ n ∈ dirs ++ [file], Files.isEntryName n = true := by
  obtain ⟨content, hcontent⟩ := (mem_filesBelow h).1 hmem
  exact Files.properEntries_names h hcontent

theorem listedName?_of_mem {stem : String} (h : properEntries entries = true) (hdot : '.' ∉ extension.toList)
    (hmem : (dirs, stem ++ "." ++ extension) ∈ filesBelow entries) (hne : stem ≠ "") :
    listedName? extension dirs (stem ++ "." ++ extension) = some ("/".intercalate (dirs ++ [listedStem stem])) := by
  have hfile := entryNames_of_mem h hmem _ (List.mem_append_right _ (List.mem_singleton_self _))
  obtain ⟨-, -, hup, -⟩ := Files.isEntryName_iff.1 hfile
  exact listedName?_eq_some_iff.2 ⟨hdot, hup, stem, rfl, hne, rfl⟩

/-- **When the name of a file is listed once**, for an extension without a slash: its last part is the name of this
file alone. -/
theorem count_stem {stem : String} (h : properEntries entries = true)
    (hmem : (dirs, stem ++ "." ++ extension) ∈ filesBelow entries) (hne : stem ≠ "") :
    (namesBelow extension entries).count ("/".intercalate (dirs ++ [stem])) = 1 ↔
      '.' ∉ extension.toList ∧ stem ≠ "." ∧ (stem = ".." → (dirs, "." ++ "." ++ extension) ∉ filesBelow entries) := by
  have hnames := entryNames_of_mem h hmem
  have hparts := Path.names_intercalate (plain_stem hnames hne)
  rw [count_namesBelow h]
  constructor
  · rintro ⟨ds, f, ⟨hmem', hlisted⟩, hunique⟩
    obtain ⟨hdot, -⟩ := listedName?_eq_some_iff.1 hlisted
    obtain ⟨found, -, hparts'⟩ := listedName?_parts (entryNames_of_mem h hmem') hlisted
    have hstem : stem = listedStem found := by
      have hlists : dirs ++ [stem] = ds ++ [listedStem found] := by rw [← hparts, hparts']
      exact List.singleton_inj.1 (List.append_inj' hlists rfl).2
    refine ⟨hdot, hstem ▸ listedStem_ne_dot found, ?_⟩
    rintro rfl hone
    have htwo := hunique _ _ hmem (listedName?_of_mem h hdot hmem hne)
    have hone := hunique _ _ hone (listedName?_of_mem h hdot hone (by decide))
    have hsame : "." ++ "." ++ extension = ".." ++ "." ++ extension := by rw [hone.2, htwo.2]
    simp at hsame
  · rintro ⟨hdot, hone, htwo⟩
    have hlisted := listedName?_of_mem h hdot hmem hne
    rw [listedStem, if_neg hone] at hlisted
    refine ⟨dirs, _, ⟨hmem, hlisted⟩, fun ds f hmem' hlisted' => ?_⟩
    obtain ⟨rfl, rfl | ⟨hfile, -⟩ | ⟨hfile, rfl⟩⟩ :=
      listedName?_inj hnames (entryNames_of_mem h hmem') hlisted hlisted'
    · exact ⟨rfl, rfl⟩
    · rw [String.append_left_inj, String.append_left_inj] at hfile
      exact absurd hfile hone
    · rw [String.append_left_inj, String.append_left_inj] at hfile
      exact absurd hmem' (htwo hfile)

/-- An extension with a slash is no part of a file name, and nothing is listed. -/
theorem count_of_slash (h : properEntries entries = true) (hslash : '/' ∈ extension.toList) :
    (namesBelow extension entries).count name = 0 := by
  refine List.count_eq_zero.2 fun hmem => ?_
  obtain ⟨dirs, file, hfile, hlisted⟩ := mem_namesBelow.1 hmem
  obtain ⟨-, -, stem, rfl, -⟩ := listedName?_eq_some_iff.1 hlisted
  have hentry := entryNames_of_mem h hfile _ (List.mem_append_right _ (List.mem_singleton_self _))
  obtain ⟨-, -, -, hfree, -⟩ := Files.isEntryName_iff.1 hentry
  exact hfree (by simp [hslash])

/-- **What is listed, and how often.**  A walk reads every directory below the root that no link leads to, once, and so
comes to an end on every tree.  A file that a name leads to, put behind the root and before the extension, is listed
under that name exactly once if every directory can be read, the extension has neither a dot nor a slash, and the name
does not end in a single dot, nor in two dots next to a file of a single dot. -/
theorem list_once_iff (s : Store) (t : Tree) (hproper : properEntries (s.rootDir t).2 = true) :
    ((dirsBelow (s.rootDir t).2).Nodup ∧ ∀ dirs, dirs ∈ dirsBelow (s.rootDir t).2 ↔
      dirs ≠ [] ∧ ∃ entries, (Node.dir (s.rootDir t).2).get? dirs = some (.dir entries)) ∧
    ∀ dirs file content name, s.Holds t dirs file content →
      "/".intercalate (dirs ++ [file]) = name ++ "." ++ s.shaderExtension → name ≠ "" →
        name.toList.getLast? ≠ some '/' →
          ((∃ names, s.list t = .ok names ∧ names.count name = 1) ↔
            (∀ dirs ∈ dirsBelow (s.rootDir t).2, (dirs.foldl Path.join s.root).utf8ByteSize < Files.maxPath) ∧
            '.' ∉ s.shaderExtension.toList ∧ '/' ∉ s.shaderExtension.toList ∧
            (Path.names name).getLast? ≠ some "." ∧ ((Path.names name).getLast? = some ".." →
              ∀ other, ¬ s.Holds t dirs ("." ++ "." ++ s.shaderExtension) other)) := by
  refine ⟨⟨nodup_dirsBelow hproper, fun dirs => mem_dirsBelow hproper⟩, ?_⟩
  intro dirs file content name hheld hpath hne hlast
  have hlisted : (∃ names, s.list t = .ok names ∧ names.count name = 1) ↔
      (∀ dirs ∈ dirsBelow (s.rootDir t).2, (dirs.foldl Path.join s.root).utf8ByteSize < Files.maxPath) ∧
        (namesBelow s.shaderExtension (s.rootDir t).2).count name = 1 := by
    rw [list_eq]
    split
    · next hlong =>
      obtain ⟨dirs, hdirs, hlong⟩ := List.any_eq_true.1 hlong
      have hlong : Files.maxPath ≤ (dirs.foldl Path.join s.root).utf8ByteSize := by simpa using hlong
      constructor
      · rintro ⟨names, hnames, -⟩
        cases hnames
      · exact fun h => absurd (h.1 dirs hdirs) (Nat.not_lt.2 hlong)
    · next hshort =>
      have hshort : ∀ dirs ∈ dirsBelow (s.rootDir t).2, (dirs.foldl Path.join s.root).utf8ByteSize < Files.maxPath := by
        simpa using hshort
      simpa using fun _ => hshort
  rw [hlisted]
  refine and_congr_right fun _ => ?_
  by_cases hslash : '/' ∈ s.shaderExtension.toList
  · simp [count_of_slash hproper hslash, hslash]
  · obtain ⟨stem, hstem, rfl, rfl⟩ := Path.exists_stem hpath hne hlast hslash
    have hmem := (mem_filesBelow hproper).2 ⟨content, hheld⟩
    rw [count_stem hproper hmem hstem, Path.names_intercalate (plain_stem (entryNames_of_mem hproper hmem) hstem),
      List.getLast?_concat]
    simp [hslash, mem_filesBelow hproper, Holds]

/-- A directory with links back to it, and a file of two dots next to one of three. -/
def looped : Tree :=
  { top := .dir [
      ("s", .dir [
        ("sub", .dir [("up", .link ".."), ("...frag", .file ⟨#[1]⟩)]),
        ("self", .link "../s"),
        ("....frag", .file ⟨#[2]⟩)])]
    workDir := [] }

theorem list_once_iff_looped :
    properEntries ((⟨"s", "frag", "glsl"⟩ : Store).rootDir looped).2 = true ∧
      (⟨"s", "frag", "glsl"⟩ : Store).Holds looped ["sub"] "...frag" ⟨#[1]⟩ ∧
      ∃ names, (⟨"s", "frag", "glsl"⟩ : Store).list looped = .ok names ∧ names.count "sub/.." = 1 := by
  have hproper : properEntries ((⟨"s", "frag", "glsl"⟩ : Store).rootDir looped).2 = true := by decide +kernel
  have hheld : (⟨"s", "frag", "glsl"⟩ : Store).Holds looped ["sub"] "...frag" ⟨#[1]⟩ := by
    unfold Holds
    cbv
  refine ⟨hproper, hheld, ?_⟩
  refine ((list_once_iff ⟨"s", "frag", "glsl"⟩ looped hproper).2 ["sub"] "...frag" ⟨#[1]⟩ "sub/.." hheld
    (by decide +kernel) (by decide) (by decide +kernel)).2 ⟨?_, by decide, by decide, by decide +kernel, ?_⟩
  · have hdirs : dirsBelow ((⟨"s", "frag", "glsl"⟩ : Store).rootDir looped).2 = [["sub"]] := by cbv
    rw [hdirs]
    decide +kernel
  · intro _ other hother
    have hfiles :
        (filesBelow ((⟨"s", "frag", "glsl"⟩ : Store).rootDir looped).2).map (·.2) = ["...frag", "....frag"] := by
      cbv
    have hmem := List.mem_map_of_mem (f := (·.2)) ((mem_filesBelow hproper).2 ⟨other, hother⟩)
    rw [hfiles] at hmem
    exact absurd hmem (by decide +kernel)

/-- **An extension with a dot in it is accepted**, and a file with it is found under its name but never listed. -/
theorem list_dottedExtension :
    Config.Settings.extensionFlaw? "shader_extension" "frag.glsl" = none ∧
      (⟨"s", "frag.glsl", "glsl"⟩ : Store).contains
        ⟨.dir [("s", .dir [("a.frag.glsl", .file ⟨#[1]⟩)])], []⟩ "a" = true ∧
      (⟨"s", "frag.glsl", "glsl"⟩ : Store).list
        ⟨.dir [("s", .dir [("a.frag.glsl", .file ⟨#[1]⟩)])], []⟩ = .ok [] := by
  exact ⟨by decide +kernel, by decide +kernel, by cbv⟩

end Store
end LiveShader
