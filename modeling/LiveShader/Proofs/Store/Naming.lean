import LiveShader.Store.Listing
import LiveShader.Proofs.Files.Walking
import LiveShader.Proofs.Text.ByteOrder
import Mathlib
/-!
# Proofs.Store.Naming — a listed name and the file it stands for

A file below the root is listed under its names joined by slashes, the last one without the extension; looking that
name up joins it to the root and puts the extension back.  The two undo each other (`list_recalls`) for every file but
one whose name up to the extension is a single dot: that one is listed as `..` (`list_singleDot`).
-/
namespace LiveShader
namespace Files

/-! ## Directories as they can be -/

mutual
/-- Whether every directory has each name once, and only names that a directory can have. -/
def Node.proper : Node → Bool
  | .dir entries => properEntries entries
  | _ => true
def properEntries : List (String × Node) → Bool
  | [] => true
  | (name, node) :: rest => isEntryName name && (findEntry name rest).isNone && node.proper && properEntries rest
end

section Proper

variable {name : String} {node : Node} {entries rest : List (String × Node)}

theorem properEntries_cons : properEntries ((name, node) :: rest) = true ↔
    isEntryName name = true ∧ findEntry name rest = none ∧ node.proper = true ∧ properEntries rest = true := by
  simp [properEntries, and_assoc]

theorem properEntries_find (h : properEntries entries = true) (hfind : findEntry name entries = some node) :
    isEntryName name = true ∧ node.proper = true := by
  induction entries with
  | nil => simp [findEntry] at hfind
  | cons entry rest ih =>
    obtain ⟨n, first⟩ := entry
    obtain ⟨hname, -, hfirst, hrest⟩ := properEntries_cons.1 h
    by_cases hn : n = name
    · obtain rfl : first = node := by simpa [findEntry, hn] using hfind
      exact ⟨hn ▸ hname, hfirst⟩
    · exact ih hrest (by simpa [findEntry, hn] using hfind)

theorem properEntries_names : ∀ {location : Location} {entries : List (String × Node)}, properEntries entries = true →
    (Node.dir entries).get? location = some node → ∀ name ∈ location, isEntryName name = true
  | [], _, _, _ => by simp
  | name :: location, entries, h, hnode => by
    obtain ⟨_, child, hdir, hchild, hbelow⟩ := Node.get?_cons_eq_some hnode
    cases hdir
    obtain ⟨hname, hproper⟩ := properEntries_find h hchild
    intro n hn
    obtain rfl | hn := List.mem_cons.1 hn
    · exact hname
    · cases child with
      | dir es => exact properEntries_names hproper hbelow n hn
      | file _ | link _ => cases location <;> simp [Node.get?] at hbelow hn

theorem get?_of_fresh (hfresh : findEntry name rest = none) (location : Location) :
    (Node.dir rest).get? (name :: location) = none := by
  simp [Node.get?, hfresh]

/-- What a path leads to: the first entry itself, what is below it, or what the others lead to. -/
theorem get?_cons_iff (hfresh : findEntry name rest = none) {dirs : List String} {file : String} {found : Node} :
    (Node.dir ((name, node) :: rest)).get? (dirs ++ [file]) = some found ↔
      (dirs = [] ∧ name = file ∧ node = found) ∨ (∃ ds, dirs = name :: ds ∧ node.get? (ds ++ [file]) = some found) ∨
        (Node.dir rest).get? (dirs ++ [file]) = some found := by
  have hstep : ∀ (n : String) (location : Location), (Node.dir ((name, node) :: rest)).get? (n :: location) =
      if name = n then node.get? location else (Node.dir rest).get? (n :: location) := by
    intro n location
    by_cases h : name = n <;> simp [Node.get?, findEntry, h]
  cases dirs with
  | nil =>
    rw [List.nil_append, hstep]
    by_cases h : name = file
    · subst h
      simp [Node.get?, hfresh]
    · simp [h]
  | cons dir dirs =>
    rw [List.cons_append, hstep]
    by_cases h : name = dir
    · subst h
      simp [get?_of_fresh hfresh]
    · simp [h, Ne.symm h]

end Proper
end Files

namespace Path

/-- **A file name and its parts**: the extension is what follows the last dot. -/
theorem splitExtension?_eq_some_iff {file stem extension : String} : splitExtension? file = some (stem, extension) ↔
    file = stem ++ "." ++ extension ∧ stem ≠ "" ∧ '.' ∉ extension.toList ∧ file ≠ ".." := by
  unfold splitExtension?
  simp only
  constructor
  · intro h
    have hsplit := List.takeWhile_append_dropWhile (p := (· != '.')) (l := file.toList.reverse)
    have hdot := List.head?_dropWhile_not (· != '.') file.toList.reverse
    have hfree : '.' ∉ file.toList.reverse.takeWhile (· != '.') := by
      intro hmem
      simpa using List.mem_takeWhile_imp hmem
    cases hd : file.toList.reverse.dropWhile (· != '.') with
    | nil => simp [hd] at h
    | cons c rest =>
      rw [hd] at h hsplit hdot
      obtain rfl : c = '.' := by simpa using hdot
      simp only [Option.ite_none_left_eq_some, Option.some.injEq, Prod.mk.injEq, Bool.or_eq_true, not_or] at h
      obtain ⟨⟨hne, hup⟩, rfl, rfl⟩ := h
      have hlist : file.toList = rest.reverse ++ '.' :: (file.toList.reverse.takeWhile (· != '.')).reverse := by
        have hrev := congrArg List.reverse hsplit
        simpa using hrev.symm
      refine ⟨?_, by simpa using hne, by simpa using hfree, by simpa using hup⟩
      rw [← String.toList_inj]
      simpa using hlist
  · rintro ⟨hfile, hne, hdot, hup⟩
    have hlist : file.toList.reverse = extension.toList.reverse ++ '.' :: stem.toList.reverse := by
      rw [hfile]
      simp
    have hfree : ∀ c ∈ extension.toList.reverse, (c != '.') = true := by
      intro c hc
      have : c ≠ '.' := fun e => hdot (e ▸ List.mem_reverse.1 hc)
      simpa using this
    rw [hlist, List.dropWhile_append_of_pos hfree, List.takeWhile_append_of_pos hfree]
    simp [hne, hup]

end Path

namespace Store

open Files (Node Tree Location properEntries)

variable {entries : List (String × Node)} {dirs : List String} {file extension name : String}

/-! ## The files below a directory -/

theorem mem_filesBelow (h : properEntries entries = true) :
    (dirs, file) ∈ filesBelow entries ↔ ∃ content, (Node.dir entries).get? (dirs ++ [file]) = some (.file content) := by
  induction entries using filesBelow.induct generalizing dirs with
  | case1 => cases dirs <;> simp [filesBelow, Node.get?, Files.findEntry]
  | case2 n content rest ih =>
    obtain ⟨-, hfresh, -, hrest⟩ := Files.properEntries_cons.1 h
    have hleaf : ∀ ds, (Node.file content).get? (ds ++ [file]) = none := by
      intro ds
      cases ds <;> rfl
    simp only [filesBelow, List.mem_cons, ih hrest, Files.get?_cons_iff hfresh, hleaf]
    simp [eq_comm, exists_or]
  | case3 n target rest ih =>
    obtain ⟨-, hfresh, -, hrest⟩ := Files.properEntries_cons.1 h
    have hleaf : ∀ ds, (Node.link target).get? (ds ++ [file]) = none := by
      intro ds
      cases ds <;> rfl
    simp [filesBelow, ih hrest, Files.get?_cons_iff hfresh, hleaf]
  | case4 n below rest ihbelow ihrest =>
    obtain ⟨-, hfresh, hbelow, hrest⟩ := Files.properEntries_cons.1 h
    have hmem : (dirs, file) ∈ filesBelow ((n, .dir below) :: rest) ↔
        (∃ ds, dirs = n :: ds ∧ (ds, file) ∈ filesBelow below) ∨ (dirs, file) ∈ filesBelow rest := by
      simp [filesBelow, and_comm, eq_comm]
    simp only [hmem, ihbelow hbelow, ihrest hrest, Files.get?_cons_iff hfresh, exists_or, reduceCtorEq, and_false,
      false_or]
    rw [exists_comm]
    simp only [exists_and_left]

theorem nodup_filesBelow (h : properEntries entries = true) : (filesBelow entries).Nodup := by
  induction entries using filesBelow.induct with
  | case1 => simp [filesBelow]
  | case2 n content rest ih =>
    obtain ⟨-, hfresh, -, hrest⟩ := Files.properEntries_cons.1 h
    rw [filesBelow, List.nodup_cons, mem_filesBelow hrest]
    exact ⟨by simp [Files.get?_of_fresh hfresh], ih hrest⟩
  | case3 n target rest ih =>
    obtain ⟨-, -, -, hrest⟩ := Files.properEntries_cons.1 h
    rw [filesBelow]
    exact ih hrest
  | case4 n below rest ihbelow ihrest =>
    obtain ⟨-, hfresh, hbelow, hrest⟩ := Files.properEntries_cons.1 h
    rw [filesBelow]
    refine List.nodup_append'.2 ⟨?_, ihrest hrest, ?_⟩
    · refine (ihbelow hbelow).map fun p q hpq => ?_
      simp only [Prod.mk.injEq, List.cons.injEq, true_and] at hpq
      exact Prod.ext hpq.1 hpq.2
    · intro p hp hq
      obtain ⟨⟨ds, f⟩, -, rfl⟩ := List.mem_map.1 hp
      obtain ⟨content, hcontent⟩ := (mem_filesBelow hrest).1 hq
      simp [Files.get?_of_fresh hfresh] at hcontent

/-! ## Listed names -/

theorem listedName?_eq_some_iff : listedName? extension dirs file = some name ↔
    '.' ∉ extension.toList ∧ file ≠ ".." ∧ ∃ stem, file = stem ++ "." ++ extension ∧ stem ≠ "" ∧
      name = "/".intercalate (dirs ++ [listedStem stem]) := by
  unfold listedName?
  constructor
  · intro h
    split at h
    · next stem found hsplit =>
      obtain ⟨hfile, hne, hdot, hup⟩ := Path.splitExtension?_eq_some_iff.1 hsplit
      split at h
      · next hfound => exact ⟨hfound ▸ hdot, hup, stem, hfound ▸ hfile, hne, (Option.some.inj h).symm⟩
      · simp at h
    · simp at h
  · rintro ⟨hdot, hup, stem, hfile, hne, hname⟩
    rw [Path.splitExtension?_eq_some_iff.2 ⟨hfile, hne, hdot, hup⟩]
    simp [hname]

/-- The names of a file and its directories are plain, also without the extension. -/
theorem plain_stem {stem : String} (hnames : ∀ n ∈ dirs ++ [stem ++ "." ++ extension], Files.isEntryName n = true)
    (hne : stem ≠ "") : ∀ p ∈ dirs ++ [stem], p ≠ "" ∧ '/' ∉ p.toList := by
  intro p hp
  obtain hp | hp := List.mem_append.1 hp
  · obtain ⟨hp, -, -, hslash, -⟩ := Files.isEntryName_iff.1 (hnames p (List.mem_append_left _ hp))
    exact ⟨hp, hslash⟩
  · have hfile := hnames (stem ++ "." ++ extension) (List.mem_append_right _ (List.mem_singleton_self _))
    obtain ⟨-, -, -, hslash, -⟩ := Files.isEntryName_iff.1 hfile
    rw [List.mem_singleton.1 hp]
    exact ⟨hne, fun hmem => hslash (by simp [hmem])⟩

/-- The names on a listed name are those that it was made of. -/
theorem listedName?_parts (hnames : ∀ n ∈ dirs ++ [file], Files.isEntryName n = true)
    (h : listedName? extension dirs file = some name) :
    ∃ stem, file = stem ++ "." ++ extension ∧ Path.names name = dirs ++ [listedStem stem] := by
  obtain ⟨-, -, stem, rfl, hne, rfl⟩ := listedName?_eq_some_iff.1 h
  refine ⟨stem, rfl, Path.names_intercalate fun p hp => ?_⟩
  have hplain := plain_stem hnames hne
  obtain hp | hp := List.mem_append.1 hp
  · exact hplain p (List.mem_append_left _ hp)
  · rw [List.mem_singleton.1 hp]
    unfold listedStem
    split
    · exact ⟨by decide, by decide⟩
    · exact hplain stem (List.mem_append_right _ (List.mem_singleton_self _))

/-- **Two files of one name**: they are one file, or their names up to the extension are one dot and two dots. -/
theorem listedName?_inj {ds : List String} {f : String} (hnames : ∀ n ∈ dirs ++ [file], Files.isEntryName n = true)
    (hnames' : ∀ n ∈ ds ++ [f], Files.isEntryName n = true) (h : listedName? extension dirs file = some name)
    (h' : listedName? extension ds f = some name) :
    dirs = ds ∧ (file = f ∨ (file = "." ++ "." ++ extension ∧ f = ".." ++ "." ++ extension) ∨
      (file = ".." ++ "." ++ extension ∧ f = "." ++ "." ++ extension)) := by
  obtain ⟨stem, hfile, hparts⟩ := listedName?_parts hnames h
  obtain ⟨stem', hfile', hparts'⟩ := listedName?_parts hnames' h'
  have hlists : dirs ++ [listedStem stem] = ds ++ [listedStem stem'] := by rw [← hparts, hparts']
  obtain ⟨hdirs, hstems⟩ := List.append_inj' hlists rfl
  have hstems : listedStem stem = listedStem stem' := List.singleton_inj.1 hstems
  refine ⟨hdirs, ?_⟩
  unfold listedStem at hstems
  by_cases hdot : stem = "."
  · by_cases hdot' : stem' = "."
    · exact .inl (by rw [hfile, hfile', hdot, hdot'])
    · rw [if_pos hdot, if_neg hdot'] at hstems
      exact .inr (.inl ⟨by rw [hfile, hdot], by rw [hfile', ← hstems]⟩)
  · by_cases hdot' : stem' = "."
    · rw [if_neg hdot, if_pos hdot'] at hstems
      exact .inr (.inr ⟨by rw [hfile, hstems], by rw [hfile', hdot']⟩)
    · rw [if_neg hdot, if_neg hdot'] at hstems
      exact .inl (by rw [hfile, hfile', hstems])

/-- **Looking a name up** puts together the path of the file that it is the name of up to the extension. -/
theorem shaderPath_eq (s : Store) {stem : String} (hne : stem ≠ "")
    (hnames : ∀ n ∈ dirs ++ [stem ++ "." ++ s.shaderExtension], Files.isEntryName n = true) :
    "/".intercalate (dirs ++ [stem]) ≠ "" ∧ s.shaderPath ("/".intercalate (dirs ++ [stem])) =
      Path.join s.root ("/".intercalate (dirs ++ [stem ++ "." ++ s.shaderExtension])) := by
  have hparts : ∀ p ∈ dirs ++ [stem], p ≠ "" ∧ '/' ∉ p.toList := plain_stem hnames hne
  have hempty : "/".intercalate (dirs ++ [stem]) ≠ "" := by
    intro hempty
    have hlist := Path.names_intercalate hparts
    rw [hempty] at hlist
    exact absurd hlist.symm (by simp [Path.names, Path.pieces])
  obtain ⟨front, -, hfront⟩ := Path.intercalate_concat dirs
  have hback : "/".intercalate (dirs ++ [stem]) ++ ("." ++ s.shaderExtension) =
      "/".intercalate (dirs ++ [stem ++ "." ++ s.shaderExtension]) := by
    rw [hfront, hfront]
    simp only [String.append_assoc]
  refine ⟨hempty, ?_⟩
  unfold shaderPath Path.withExtension
  rw [String.append_assoc, Path.join_append hempty (Path.isAbsolute_intercalate hparts), hback]

/-! ## Listings -/

/-- The directory that the root leads to and where it is; where there is none, one without entries. -/
def rootDir (s : Store) (t : Tree) : Location × List (String × Node) :=
  match t.walk s.root true with
  | .ok (.found location (.dir entries)) => (location, entries)
  | _ => ([], [])

theorem list_eq (s : Store) (t : Tree) : s.list t =
    if (dirsBelow (s.rootDir t).2).any fun dirs => Files.maxPath ≤ (dirs.foldl Path.join s.root).utf8ByteSize
    then .error .nameTooLong else .ok (namesBelow s.shaderExtension (s.rootDir t).2) := by
  unfold list Tree.node? rootDir
  rcases t.walk s.root true with e | place
  · simp [dirsBelow, namesBelow, filesBelow]
  · rcases place with ⟨location, node⟩ | ⟨directory, name⟩
    · cases node <;> simp [dirsBelow, namesBelow, filesBelow]
    · simp [dirsBelow, namesBelow, filesBelow]

theorem list_of_readable {s : Store} {t : Tree}
    (hreadable : ∀ dirs ∈ dirsBelow (s.rootDir t).2, (dirs.foldl Path.join s.root).utf8ByteSize < Files.maxPath) :
    s.list t = .ok (namesBelow s.shaderExtension (s.rootDir t).2) := by
  have hnone : ((dirsBelow (s.rootDir t).2).any fun dirs =>
      decide (Files.maxPath ≤ (dirs.foldl Path.join s.root).utf8ByteSize)) = false := by
    rw [List.any_eq_false]
    intro dirs hdirs
    simpa using hreadable dirs hdirs
  rw [list_eq, hnone]
  rfl

theorem mem_namesBelow : name ∈ namesBelow extension entries ↔
    ∃ dirs file, (dirs, file) ∈ filesBelow entries ∧ listedName? extension dirs file = some name := by
  unfold namesBelow
  rw [List.mem_mergeSort, List.mem_filterMap]
  exact Prod.exists

theorem sorted_namesBelow (extension : String) (entries : List (String × Node)) :
    (namesBelow extension entries).Pairwise (· ≤ ·) := by
  unfold namesBelow
  refine (List.pairwise_mergeSort ?_ ?_ _).imp fun h => by simpa using h
  · intro a b c hab hbc
    simp only [decide_eq_true_eq] at hab hbc ⊢
    exact String.le_trans hab hbc
  · intro a b
    simpa using String.le_total a b

/-- Names in the order of their characters are in that of their bytes, and go up unless one is there twice. -/
theorem ascending_namesBelow_iff :
    (namesBelow extension entries).Pairwise (Text.bytes · < Text.bytes ·) ↔ (namesBelow extension entries).Nodup := by
  constructor
  · intro h
    exact h.imp fun hlt e => absurd (e ▸ hlt) (List.lt_irrefl _)
  · intro h
    exact (sorted_namesBelow _ _).imp₂ (fun a b hle hne => Text.bytes_lt (lt_of_le_of_ne hle hne)) h

theorem eq_of_nodup_filterMap {α β : Type} {f : α → Option β} {l : List α} (h : (l.filterMap f).Nodup) {a a' : α}
    {b : β} (ha : a ∈ l) (ha' : a' ∈ l) (hb : f a = some b) (hb' : f a' = some b) : a = a' := by
  by_contra hne
  have hsymm : Std.Symm fun x y => ∀ b, f x = some b → ∀ b', f y = some b' → b ≠ b' :=
    ⟨fun _ _ hxy b hb b' hb' e => hxy b' hb' b hb e.symm⟩
  exact (List.pairwise_filterMap.1 h).forall ha ha' hne b hb b hb' rfl

/-- **When names are listed twice**: just when a directory has files named one dot and two dots up to the extension. -/
theorem nodup_namesBelow (h : properEntries entries = true) :
    (namesBelow extension entries).Nodup ↔ ('.' ∉ extension.toList → ∀ dirs,
      (dirs, "." ++ "." ++ extension) ∈ filesBelow entries → (dirs, ".." ++ "." ++ extension) ∉ filesBelow entries) := by
  have hentry : ∀ {ds : List String} {f : String}, (ds, f) ∈ filesBelow entries →
      ∀ n ∈ ds ++ [f], Files.isEntryName n = true := by
    intro ds f hmem
    obtain ⟨content, hcontent⟩ := (mem_filesBelow h).1 hmem
    exact Files.properEntries_names h hcontent
  unfold namesBelow
  rw [(List.mergeSort_perm _ _).nodup_iff]
  constructor
  · intro hnodup hext dirs hone htwo
    have hlisted : ∀ stem, (dirs, stem ++ "." ++ extension) ∈ filesBelow entries → stem ≠ "" → listedStem stem = ".." →
        listedName? extension dirs (stem ++ "." ++ extension) = some ("/".intercalate (dirs ++ [".."])) := by
      intro stem hmem hne hstem
      have hfile := hentry hmem _ (List.mem_append_right _ (List.mem_singleton_self _))
      obtain ⟨-, -, hup, -⟩ := Files.isEntryName_iff.1 hfile
      exact listedName?_eq_some_iff.2 ⟨hext, hup, stem, rfl, hne, by rw [hstem]⟩
    have hsame := eq_of_nodup_filterMap hnodup hone htwo (hlisted "." hone (by decide) (by decide))
      (hlisted ".." htwo (by decide) (by decide))
    simp at hsame
  · intro hdots
    refine List.pairwise_filterMap.2 ((nodup_filesBelow h).pairwise_of_forall_ne ?_)
    rintro ⟨ds, f⟩ hp ⟨ds', f'⟩ hq hne name hname name' hname' rfl
    obtain ⟨hext, -⟩ := listedName?_eq_some_iff.1 hname
    obtain ⟨rfl, rfl | ⟨rfl, rfl⟩ | ⟨rfl, rfl⟩⟩ := listedName?_inj (hentry hp) (hentry hq) hname hname'
    · exact hne rfl
    · exact hdots hext ds hp hq
    · exact hdots hext ds hq hp

/-! ## Listing and looking up -/

section Recall

variable {s : Store} {t : Tree} {stem : String} {content : ByteArray}

/-- The file that a directory below the root has under a name. -/
def Holds (s : Store) (t : Tree) (dirs : List String) (file : String) (content : ByteArray) : Prop :=
  (Node.dir (s.rootDir t).2).get? (dirs ++ [file]) = some (.file content)

theorem Holds.walk_root (h : s.Holds t dirs file content) :
    t.walk s.root true = .ok (.found (s.rootDir t).1 (.dir (s.rootDir t).2)) := by
  unfold Holds rootDir at h
  unfold rootDir
  split
  · next hwalk => exact hwalk
  · next hnone =>
    split at h
    · next location entries hwalk => exact absurd hwalk (hnone location entries)
    · cases dirs <;> simp [Node.get?, Files.findEntry] at h

theorem mem_namesBelow_iff (hproper : properEntries (s.rootDir t).2 = true) :
    name ∈ namesBelow s.shaderExtension (s.rootDir t).2 ↔ '.' ∉ s.shaderExtension.toList ∧
      ∃ dirs stem content, s.Holds t dirs (stem ++ "." ++ s.shaderExtension) content ∧ stem ≠ "" ∧
        name = "/".intercalate (dirs ++ [if stem = "." then ".." else stem]) := by
  rw [mem_namesBelow]
  constructor
  · rintro ⟨dirs, file, hmem, hname⟩
    obtain ⟨hext, -, stem, rfl, hne, rfl⟩ := listedName?_eq_some_iff.1 hname
    obtain ⟨content, hcontent⟩ := (mem_filesBelow hproper).1 hmem
    exact ⟨hext, dirs, stem, content, hcontent, hne, rfl⟩
  · rintro ⟨hext, dirs, stem, content, hheld, hne, rfl⟩
    have hentry := Files.properEntries_names hproper hheld
    obtain ⟨-, -, hup, -⟩ := Files.isEntryName_iff.1 (hentry _ (List.mem_append_right _ (List.mem_singleton_self _)))
    exact ⟨dirs, _, (mem_filesBelow hproper).2 ⟨content, hheld⟩,
      listedName?_eq_some_iff.2 ⟨hext, hup, stem, rfl, hne, rfl⟩⟩

/-- **A file is found under its name** up to the extension. -/
theorem Holds.recalled (hproper : properEntries (s.rootDir t).2 = true)
    (h : s.Holds t dirs (stem ++ "." ++ s.shaderExtension) content) (hne : stem ≠ "")
    (hshort : (s.shaderPath ("/".intercalate (dirs ++ [stem]))).utf8ByteSize < Files.maxPath) :
    s.contains t ("/".intercalate (dirs ++ [stem])) = true ∧
      t.walk (s.shaderPath ("/".intercalate (dirs ++ [stem]))) true =
        .ok (.found ((s.rootDir t).1 ++ (dirs ++ [stem ++ "." ++ s.shaderExtension])) (.file content)) := by
  have hnames := Files.properEntries_names hproper h
  obtain ⟨hempty, hpath⟩ := s.shaderPath_eq hne hnames
  rw [hpath] at hshort
  have hwalk := Tree.walk_below h.walk_root hnames h hshort
  rw [← hpath] at hwalk
  refine ⟨?_, hwalk⟩
  unfold contains Tree.isFile Tree.node?
  rw [hwalk]
  simp [hempty, Node.isFile]

end Recall

/-- **A listing has the name of every shader, in the order of the bytes, and a shader's name leads back to its file**
when the path can be followed.  One name is listed as another: a file name that is a single dot up to the extension
stands there as two dots, and twice just when the directory has a file of two dots as well. -/
theorem list_recalls (s : Store) (t : Tree) (hproper : properEntries (s.rootDir t).2 = true)
    (hreadable : ∀ dirs ∈ dirsBelow (s.rootDir t).2, (dirs.foldl Path.join s.root).utf8ByteSize < Files.maxPath) :
    ∃ names, s.list t = .ok names ∧
      (∀ name, name ∈ names ↔ '.' ∉ s.shaderExtension.toList ∧
        ∃ dirs stem content, s.Holds t dirs (stem ++ "." ++ s.shaderExtension) content ∧ stem ≠ "" ∧
          name = "/".intercalate (dirs ++ [if stem = "." then ".." else stem])) ∧
      (names.Pairwise (Text.bytes · < Text.bytes ·) ↔ ('.' ∉ s.shaderExtension.toList →
        ∀ dirs one two, s.Holds t dirs ("." ++ "." ++ s.shaderExtension) one →
          ¬ s.Holds t dirs (".." ++ "." ++ s.shaderExtension) two)) ∧
      ∀ dirs stem content, s.Holds t dirs (stem ++ "." ++ s.shaderExtension) content → stem ≠ "" →
        (s.shaderPath ("/".intercalate (dirs ++ [stem]))).utf8ByteSize < Files.maxPath →
          s.contains t ("/".intercalate (dirs ++ [stem])) = true ∧
            t.walk (s.shaderPath ("/".intercalate (dirs ++ [stem]))) true =
              .ok (.found ((s.rootDir t).1 ++ (dirs ++ [stem ++ "." ++ s.shaderExtension])) (.file content)) := by
  refine ⟨_, list_of_readable hreadable, fun name => mem_namesBelow_iff hproper, ?_,
    fun dirs stem content hheld hne hshort => hheld.recalled hproper hne hshort⟩
  rw [ascending_namesBelow_iff, nodup_namesBelow hproper]
  simp only [mem_filesBelow hproper, not_exists, forall_exists_index, Holds]
  constructor
  · intro h hext dirs one two hone
    exact h hext dirs one hone two
  · intro h hext dirs one hone two
    exact h hext dirs one two hone

/-- Directories with names of several dots, below a root that is a link. -/
def dotted : Tree :=
  { top := .dir [
      ("s", .link "res"),
      ("res", .dir [
        ("é.v2.frag", .file ⟨#[1]⟩),
        (".frag", .file ⟨#[2]⟩),
        ("sub", .dir [("...frag", .file ⟨#[3]⟩), ("a.frag", .link "../é.v2.frag")])])]
    workDir := [] }

def linked : Store := { root := "s/" }

theorem list_recalls_dotted :
    (properEntries (linked.rootDir dotted).2 = true ∧
      ∀ dirs ∈ dirsBelow (linked.rootDir dotted).2, (dirs.foldl Path.join linked.root).utf8ByteSize < Files.maxPath) ∧
    ∃ names, linked.list dotted = .ok names ∧ "sub/.." ∈ names ∧ names.Pairwise (Text.bytes · < Text.bytes ·) ∧
      linked.contains dotted "sub/.." = true ∧
        dotted.walk (linked.shaderPath "sub/..") true = .ok (.found ["res", "sub", "...frag"] (.file ⟨#[3]⟩)) := by
  have hproper : properEntries (linked.rootDir dotted).2 = true := by decide +kernel
  have hreadable : ∀ dirs ∈ dirsBelow (linked.rootDir dotted).2,
      (dirs.foldl Path.join linked.root).utf8ByteSize < Files.maxPath := by
    have hdirs : dirsBelow (linked.rootDir dotted).2 = [["sub"]] := by cbv
    rw [hdirs]
    decide +kernel
  have hheld : linked.Holds dotted ["sub"] (".." ++ "." ++ linked.shaderExtension) ⟨#[3]⟩ := by
    unfold Holds
    cbv
  have hlocation : (linked.rootDir dotted).1 = ["res"] := by decide +kernel
  have hname : "/".intercalate (["sub"] ++ [".."]) = "sub/.." := by decide +kernel
  have hfile : ".." ++ "." ++ linked.shaderExtension = "...frag" := by decide +kernel
  obtain ⟨names, hlist, hnames, hsorted, hfound⟩ := list_recalls linked dotted hproper hreadable
  obtain ⟨hcontains, hwalk⟩ := hfound ["sub"] ".." ⟨#[3]⟩ hheld (by decide) (by decide +kernel)
  rw [hname] at hcontains hwalk
  rw [hlocation, hfile] at hwalk
  refine ⟨⟨hproper, hreadable⟩, names, hlist, (hnames _).2 ?_, hsorted.2 ?_, hcontains, hwalk⟩
  · exact ⟨by decide, ["sub"], "..", ⟨#[3]⟩, hheld, by decide, by decide +kernel⟩
  · intro _ dirs one two hone
    have hfiles : (filesBelow (linked.rootDir dotted).2).map (·.2) = ["é.v2.frag", ".frag", "...frag"] := by cbv
    have hmem : "." ++ "." ++ linked.shaderExtension ∈ (filesBelow (linked.rootDir dotted).2).map (·.2) :=
      List.mem_map.2 ⟨_, (mem_filesBelow hproper).2 ⟨one, hone⟩, rfl⟩
    rw [hfiles] at hmem
    exact absurd hmem (by decide +kernel)

/-- **A file of a single dot up to the extension** is listed under two dots, which stand for another file or none. -/
theorem list_singleDot :
    (⟨"s", "frag", "glsl"⟩ : Store).list ⟨.dir [("s", .dir [("..frag", .file ⟨#[1]⟩)])], []⟩ = .ok [".."] ∧
      (⟨"s", "frag", "glsl"⟩ : Store).contains ⟨.dir [("s", .dir [("..frag", .file ⟨#[1]⟩)])], []⟩ ".." = false ∧
      (⟨"s", "frag", "glsl"⟩ : Store).list
        ⟨.dir [("s", .dir [("..frag", .file ⟨#[1]⟩), ("...frag", .file ⟨#[2]⟩)])], []⟩ = .ok ["..", ".."] := by
  exact ⟨by cbv, by decide +kernel, by cbv⟩

end Store
end LiveShader
