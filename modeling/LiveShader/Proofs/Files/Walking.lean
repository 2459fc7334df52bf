import LiveShader.Files.Access
import Mathlib.Data.List.Basic
/-!
# Proofs.Files.Walking — a path below another one leads on from where that one leads

The names on a joined path are those on its two parts (`names_join`), and a walk along two lists of names is one along
the second from where the first one leads (`walkFrom_append`), however many links are on the way.
-/
namespace LiveShader
namespace Path

/-! ## Names on a path -/

theorem pieces_ne_nil (cs : List Char) : pieces cs ≠ [] := by
  cases cs with
  | nil => simp [pieces]
  | cons c cs =>
    unfold pieces
    split
    · simp
    · split <;> simp

theorem pieces_append_slash (cs ds : List Char) : pieces (cs ++ '/' :: ds) = pieces cs ++ pieces ds := by
  induction cs with
  | nil => simp [pieces]
  | cons c cs ih =>
    by_cases hc : c = '/'
    · simp [pieces, hc, ih]
    · obtain ⟨p, ps, hp⟩ := List.exists_cons_of_ne_nil (pieces_ne_nil cs)
      simp [pieces, hc, ih, hp]

theorem pieces_of_not_mem {cs : List Char} (h : '/' ∉ cs) : pieces cs = [cs] := by
  induction cs with
  | nil => rfl
  | cons c cs ih =>
    rw [List.mem_cons, not_or] at h
    have hc : c ≠ '/' := fun e => h.1 e.symm
    simp [pieces, hc, ih h.2]

/-- The names between slashes. -/
def names (p : String) : List String := ((pieces p.toList).filter (!·.isEmpty)).map String.ofList

theorem components_eq (p : String) :
    components p = if p.toList.getLast? = some '/' then names p ++ ["."] else names p := by
  unfold components names
  simp only
  split
  · rw [List.map_append]
    rfl
  · rfl

theorem names_append_slash (p q : String) : names (p ++ "/" ++ q) = names p ++ names q := by
  have hlist : (p ++ "/" ++ q).toList = p.toList ++ '/' :: q.toList := by simp
  unfold names
  rw [hlist, pieces_append_slash, List.filter_append, List.map_append]

theorem names_of_not_mem {p : String} (hne : p ≠ "") (h : '/' ∉ p.toList) : names p = [p] := by
  have hlist : p.toList.isEmpty = false := by simp [hne]
  unfold names
  rw [pieces_of_not_mem h]
  simp [hlist]

theorem names_intercalate {parts : List String} (hparts : ∀ p ∈ parts, p ≠ "" ∧ '/' ∉ p.toList) :
    names ("/".intercalate parts) = parts := by
  induction parts with
  | nil => simp [names, pieces]
  | cons p parts ih =>
    have hp := hparts p List.mem_cons_self
    have hrest := ih fun q hq => hparts q (List.mem_cons_of_mem _ hq)
    by_cases hnil : parts = []
    · rw [hnil, String.intercalate_singleton, names_of_not_mem hp.1 hp.2]
    · rw [String.intercalate_cons_of_ne_nil hnil, names_append_slash, names_of_not_mem hp.1 hp.2, hrest]
      rfl

/-- **The names on a joined path** are those on the one before those on the other. -/
theorem names_join (root : String) {p : String} (hp : isAbsolute p = false) :
    names (join root p) = names root ++ names p := by
  unfold join
  rw [if_neg (by simp [hp])]
  split
  · next hall =>
    cases hlast : root.toList.getLast? with
    | none =>
      have hroot : root = "" := by simpa using hlast
      rw [hroot]
      simp [names, pieces]
    | some c =>
      rw [hlast] at hall
      obtain rfl : c = '/' := by simpa using hall
      obtain ⟨init, hinit⟩ := List.getLast?_eq_some_iff.1 hlast
      have hroot : root = String.ofList init ++ "/" ++ "" := by
        rw [← String.toList_inj, hinit]
        simp
      have hjoined : root ++ p = String.ofList init ++ "/" ++ p := by
        rw [← String.toList_inj, String.toList_append, hinit]
        simp
      rw [hjoined, names_append_slash, hroot, names_append_slash]
      simp [names, pieces]
  · rw [names_append_slash]

theorem isAbsolute_append {p : String} (hp : p ≠ "") (more : String) : isAbsolute (p ++ more) = isAbsolute p := by
  obtain ⟨c, cs, hcs⟩ := List.exists_cons_of_ne_nil (l := p.toList) (by simp [hp])
  unfold isAbsolute
  rw [String.toList_append, hcs]
  rfl

/-- What is joined to a path follows it, after one slash at most. -/
theorem join_eq (root : String) : ∃ slash : String, (∀ c ∈ slash.toList, c = '/') ∧
    ∀ p, isAbsolute p = false → join root p = root ++ slash ++ p := by
  by_cases hall : root.toList.getLast?.all (· == '/') = true
  · refine ⟨"", by simp, fun p hp => ?_⟩
    simp [join, hp, hall]
  · refine ⟨"/", by simp, fun p hp => ?_⟩
    simp [join, hp, hall]

theorem isAbsolute_join {root p : String} (hroot : root ≠ "") (hp : isAbsolute p = false) :
    isAbsolute (join root p) = isAbsolute root := by
  obtain ⟨slash, -, hjoin⟩ := join_eq root
  rw [hjoin p hp, String.append_assoc, isAbsolute_append hroot]

theorem join_append {root p : String} (hne : p ≠ "") (hp : isAbsolute p = false) (more : String) :
    join root p ++ more = join root (p ++ more) := by
  obtain ⟨slash, -, hjoin⟩ := join_eq root
  have hmore : isAbsolute (p ++ more) = false := by rw [isAbsolute_append hne, hp]
  rw [hjoin p hp, hjoin _ hmore, String.append_assoc]

/-- A list of names as a text ends in the last of them. -/
theorem intercalate_concat (dirs : List String) :
    ∃ front : String, (∀ c ∈ front.toList, c = '/' ∨ ∃ dir ∈ dirs, c ∈ dir.toList) ∧
      ∀ file, "/".intercalate (dirs ++ [file]) = front ++ file := by
  induction dirs with
  | nil => exact ⟨"", by simp, by simp⟩
  | cons dir dirs ih =>
    obtain ⟨front, hchars, hfront⟩ := ih
    refine ⟨dir ++ "/" ++ front, fun c hc => ?_, fun file => ?_⟩
    · simp only [String.toList_append, List.mem_append] at hc
      obtain (hc | hc) | hc := hc
      · exact .inr ⟨dir, List.mem_cons_self, hc⟩
      · exact .inl (by simpa using hc)
      · obtain hslash | ⟨d, hd, hcd⟩ := hchars c hc
        · exact .inl hslash
        · exact .inr ⟨d, List.mem_cons_of_mem _ hd, hcd⟩
    · rw [List.cons_append, String.intercalate_cons_of_ne_nil (by simp), hfront]
      simp only [String.append_assoc]

section Below

variable {dirs : List String} {file : String} (hparts : ∀ p ∈ dirs ++ [file], p ≠ "" ∧ '/' ∉ p.toList)
include hparts

theorem isAbsolute_intercalate : isAbsolute ("/".intercalate (dirs ++ [file])) = false := by
  obtain ⟨first, others, hfirst⟩ := List.exists_cons_of_ne_nil (l := dirs ++ [file]) (by simp)
  obtain ⟨hne, hslash⟩ := hparts first (by simp [hfirst])
  have hplain : isAbsolute first = false := by
    obtain ⟨c, cs, hcs⟩ := List.exists_cons_of_ne_nil (l := first.toList) (by simp [hne])
    have hc : c ≠ '/' := fun e => hslash (by simp [hcs, e])
    simp [isAbsolute, hcs, hc]
  rw [hfirst]
  by_cases hnil : others = []
  · rw [hnil, String.intercalate_singleton, hplain]
  · rw [String.intercalate_cons_of_ne_nil hnil, String.append_assoc, isAbsolute_append hne, hplain]

/-- **The names on a path below another one**: nothing asks for a directory at its end. -/
theorem components_join (root : String) :
    components (join root ("/".intercalate (dirs ++ [file]))) = names root ++ (dirs ++ [file]) := by
  have hrel := isAbsolute_intercalate hparts
  obtain ⟨hne, hslash⟩ := hparts file (by simp)
  obtain ⟨slash, -, hjoin⟩ := join_eq root
  obtain ⟨front, -, hfront⟩ := intercalate_concat dirs
  obtain ⟨c, hc⟩ := Option.ne_none_iff_exists'.1 (show file.toList.getLast? ≠ none by simp [hne])
  have hend : (join root ("/".intercalate (dirs ++ [file]))).toList.getLast? = some c := by
    rw [hjoin _ hrel, hfront]
    simp [List.getLast?_append, hc]
  have hlast : c ≠ '/' := fun e => hslash (e ▸ List.mem_of_getLast? hc)
  rw [components_eq, hend, if_neg (by simp [hlast]), names_join root hrel, names_intercalate hparts]

theorem mem_join {root : String} {c : Char} (hc : c ∈ (join root ("/".intercalate (dirs ++ [file]))).toList) :
    c ∈ root.toList ∨ c = '/' ∨ ∃ p ∈ dirs ++ [file], c ∈ p.toList := by
  obtain ⟨slash, hslash, hjoin⟩ := join_eq root
  obtain ⟨front, hchars, hfront⟩ := intercalate_concat dirs
  rw [hjoin _ (isAbsolute_intercalate hparts), hfront] at hc
  simp only [String.toList_append, List.mem_append] at hc
  obtain (hc | hc) | hc | hc := hc
  · exact .inl hc
  · exact .inr (.inl (hslash c hc))
  · obtain h | ⟨dir, hdir, h⟩ := hchars c hc
    · exact .inr (.inl h)
    · exact .inr (.inr ⟨dir, by simp [hdir], h⟩)
  · exact .inr (.inr ⟨file, by simp, hc⟩)

end Below

end Path

namespace Files

/-! ## Entries along a location -/

/-- Names as directories have them. -/
def isEntryName (name : String) : Bool :=
  !name.isEmpty && name != "." && name != ".." && !name.toList.contains '/' && !name.toList.contains '\x00' &&
    decide (name.utf8ByteSize ≤ maxName)

theorem isEntryName_iff {name : String} :
    isEntryName name = true ↔ name ≠ "" ∧ name ≠ "." ∧ name ≠ ".." ∧ '/' ∉ name.toList ∧ '\x00' ∉ name.toList ∧
      name.utf8ByteSize ≤ maxName := by
  simp [isEntryName, and_assoc]

theorem Node.get?_append (node : Node) (l m : Location) : node.get? (l ++ m) = (node.get? l).bind (·.get? m) := by
  induction l generalizing node with
  | nil => simp [Node.get?]
  | cons name l ih =>
    cases node with
    | file _ | link _ => simp [Node.get?]
    | dir entries =>
      simp only [List.cons_append, Node.get?]
      cases findEntry name entries with
      | none => rfl
      | some node => exact ih node

theorem Node.get?_cons_eq_some {node found : Node} {name : String} {l : Location}
    (h : node.get? (name :: l) = some found) :
    ∃ entries child, node = .dir entries ∧ findEntry name entries = some child ∧ child.get? l = some found := by
  cases node with
  | file _ | link _ => simp [Node.get?] at h
  | dir entries =>
    simp only [Node.get?] at h
    obtain ⟨child, hchild, hl⟩ := Option.bind_eq_some_iff.1 h
    exact ⟨entries, child, rfl, hchild, hl⟩

namespace Tree

variable {t : Tree} {here location : Location} {names rest : List String} {links : Nat} {place : Place}
  {entries : List (String × Node)}

theorem entriesAt_concat {name : String} (h : findEntry name (t.entriesAt here) = some (.dir entries)) :
    t.entriesAt (here ++ [name]) = entries := by
  unfold entriesAt at h ⊢
  rw [Node.get?_append]
  cases hnode : t.top.get? here with
  | none => simp [hnode, findEntry] at h
  | some node =>
    cases node with
    | file _ | link _ => simp [hnode, findEntry] at h
    | dir es =>
      rw [hnode] at h
      simp [Node.get?, h]

/-! ## Walks -/

/-- A leg along two lists of names. -/
theorem leg_append (t : Tree) (hrest : rest ≠ []) : ∀ (names : List String) (here : Location),
    t.leg true here (names ++ rest) =
      match t.leg true here names with
      | .arrived (.found location (.dir _)) => t.leg true location rest
      | .arrived (.found _ _) => .failed .notDirectory
      | .arrived (.free _ _) => .failed .notFound
      | .atLink target directory more => .atLink target directory (more ++ rest)
      | .failed error => .failed error
  | [], here => by simp [leg]
  | name :: names, here => by
    have ih := leg_append t hrest names
    have hmore : names ++ rest ≠ [] := by simp [hrest]
    rw [List.cons_append, leg.eq_def t true here (name :: (names ++ rest)), leg.eq_def t true here (name :: names)]
    simp only
    split_ifs with hdot hup hlong
    · exact ih here
    · exact ih here.dropLast
    · rfl
    · obtain ⟨r, rs, hr⟩ := List.exists_cons_of_ne_nil hmore
      cases findEntry name (t.entriesAt here) with
      | none => cases names <;> simp [hr]
      | some node =>
        cases node with
        | dir _ => exact ih (here ++ [name])
        | link target => simp
        | file content => cases names <;> simp [hr]

theorem leg_entries : ∀ (names : List String) (here : Location),
    t.leg true here names = .arrived (.found location (.dir entries)) → entries = t.entriesAt location
  | [], here, h => by
    simp only [leg, Leg.arrived.injEq, Place.found.injEq, Node.dir.injEq] at h
    rw [← h.1, ← h.2]
  | name :: names, here, h => by
    have ih := leg_entries names
    rw [leg.eq_def] at h
    simp only at h
    split_ifs at h with hdot hup hlong
    · exact ih here h
    · exact ih here.dropLast h
    · cases hentry : findEntry name (t.entriesAt here) with
      | none => cases names <;> simp [hentry] at h
      | some node =>
        cases node with
        | dir _ =>
          rw [hentry] at h
          exact ih (here ++ [name]) h
        | link target => simp [hentry] at h
        | file content => cases names <;> simp [hentry] at h

theorem walkFrom_eq (t : Tree) (links : Nat) (here : Location) (names : List String) :
    t.walkFrom true links here names =
      match t.leg true here names with
      | .arrived place => .ok place
      | .failed error => .error error
      | .atLink target directory rest =>
        match links with
        | 0 => .error .tooManyLinks
        | links + 1 =>
          t.walkFrom true links (if Path.isAbsolute target then [] else directory) (Path.components target ++ rest) :=
  walkFrom.eq_def t true links here names

/-- What a directory that a walk leads to has in it. -/
theorem walkFrom_entries (links : Nat) (here : Location) (names : List String)
    (h : t.walkFrom true links here names = .ok (.found location (.dir entries))) :
    entries = t.entriesAt location := by
  induction links using Nat.strongRecOn generalizing here names with
  | ind links ih =>
  rw [walkFrom_eq] at h
  cases hleg : t.leg true here names with
  | failed e => simp [hleg] at h
  | arrived p =>
    simp only [hleg, Except.ok.injEq] at h
    exact leg_entries names here (h ▸ hleg)
  | atLink target directory more =>
    cases links with
    | zero => simp [hleg] at h
    | succ links =>
      simp only [hleg] at h
      exact ih links (Nat.lt_succ_self links) _ _ h

/-- **A walk along two lists of names** is one along the second from where the first one leads. -/
theorem walkFrom_append (hrest : rest ≠ []) (hon : ∀ links, t.walkFrom true links location rest = .ok place)
    (links : Nat) (here : Location) (names : List String)
    (h : t.walkFrom true links here names = .ok (.found location (.dir entries))) :
    t.walkFrom true links here (names ++ rest) = .ok place := by
  induction links using Nat.strongRecOn generalizing here names with
  | ind links ih =>
  rw [walkFrom_eq] at h ⊢
  rw [leg_append t hrest]
  cases hleg : t.leg true here names with
  | failed e => simp [hleg] at h
  | arrived p =>
    simp only [hleg, Except.ok.injEq] at h
    subst h
    have hlast := hon links
    rw [walkFrom_eq] at hlast
    exact hlast
  | atLink target directory more =>
    cases links with
    | zero => simp [hleg] at h
    | succ links =>
      simp only [hleg] at h ⊢
      rw [← List.append_assoc]
      exact ih links (Nat.lt_succ_self links) _ _ h

/-- A last name that stands for the directory itself changes nothing. -/
theorem walkFrom_dot (links : Nat) (here : Location) (names : List String)
    (h : t.walkFrom true links here (names ++ ["."]) = .ok (.found location (.dir entries))) :
    ∃ es, t.walkFrom true links here names = .ok (.found location (.dir es)) := by
  induction links using Nat.strongRecOn generalizing here names with
  | ind links ih =>
  rw [walkFrom_eq, leg_append t (by simp)] at h
  rw [walkFrom_eq]
  cases hleg : t.leg true here names with
  | failed e => simp [hleg] at h
  | arrived p =>
    match p with
    | .free _ _ => simp [hleg] at h
    | .found _ (.file _) => simp [hleg] at h
    | .found _ (.link _) => simp [hleg] at h
    | .found there (.dir es) =>
      have hdot : t.leg true there ["."] = .arrived (.found there (.dir (t.entriesAt there))) := by
        rw [leg.eq_def]
        simp [leg]
      simp only [hleg, hdot, Except.ok.injEq, Place.found.injEq] at h
      exact ⟨es, by rw [h.1]⟩
  | atLink target directory more =>
    cases links with
    | zero => simp [hleg] at h
    | succ links =>
      simp only [hleg] at h ⊢
      rw [← List.append_assoc] at h
      exact ih links (Nat.lt_succ_self links) _ _ h

theorem leg_plain {name : String} (hname : isEntryName name = true) (names : List String) :
    t.leg true here (name :: names) =
      match findEntry name (t.entriesAt here), names with
      | none, [] => .arrived (.free here name)
      | none, _ :: _ => .failed .notFound
      | some (.dir _), names => t.leg true (here ++ [name]) names
      | some (.file content), [] => .arrived (.found (here ++ [name]) (.file content))
      | some (.file _), _ :: _ => .failed .notDirectory
      | some (.link target), names => .atLink target here names := by
  obtain ⟨-, hdot, hup, -, -, hlong⟩ := isEntryName_iff.1 hname
  have hleg := leg.eq_def t true here (name :: names)
  simp only [hdot, hup, Nat.not_lt.2 hlong, if_false, Bool.not_true, Bool.and_false, Bool.false_eq_true] at hleg
  exact hleg

/-- **A walk down to a file** through directories alone. -/
theorem leg_down {file : String} {content : ByteArray} : ∀ (dirs : List String) (here : Location),
    (∀ name ∈ dirs ++ [file], isEntryName name = true) →
      (Node.dir (t.entriesAt here)).get? (dirs ++ [file]) = some (.file content) →
        t.leg true here (dirs ++ [file]) = .arrived (.found (here ++ (dirs ++ [file])) (.file content))
  | [], here, hnames, h => by
    obtain ⟨_, child, hdir, hchild, hfile⟩ := Node.get?_cons_eq_some h
    cases hdir
    simp only [Node.get?, Option.some.injEq] at hfile
    rw [List.nil_append, leg_plain (hnames file (by simp)), hchild, hfile]
  | dir :: dirs, here, hnames, h => by
    obtain ⟨_, child, hdir, hchild, hbelow⟩ := Node.get?_cons_eq_some h
    cases hdir
    have hplain := hnames dir (by simp)
    obtain ⟨first, others, hrest⟩ := List.exists_cons_of_ne_nil (l := dirs ++ [file]) (by simp)
    have hbelow : child.get? (dirs ++ [file]) = some (.file content) := hbelow
    rw [hrest] at hbelow
    obtain ⟨entries, -, rfl, -, -⟩ := Node.get?_cons_eq_some hbelow
    rw [← hrest, ← entriesAt_concat hchild] at hbelow
    have ih := leg_down dirs (here ++ [dir]) (fun name hname => hnames name (List.mem_cons_of_mem _ hname)) hbelow
    rw [List.cons_append, leg_plain hplain, hchild]
    simp only [ih, List.append_assoc, List.cons_append, List.nil_append]

theorem walkFrom_down {dirs : List String} {file : String} {content : ByteArray}
    (hnames : ∀ name ∈ dirs ++ [file], isEntryName name = true)
    (h : (Node.dir (t.entriesAt here)).get? (dirs ++ [file]) = some (.file content)) (links : Nat) :
    t.walkFrom true links here (dirs ++ [file]) = .ok (.found (here ++ (dirs ++ [file])) (.file content)) := by
  rw [walkFrom_eq, leg_down dirs here hnames h]

/-- Where a path starts. -/
def start (t : Tree) (path : String) : Location := if Path.isAbsolute path then [] else t.workDir

theorem walk_ok_iff {path : String} :
    t.walk path true = .ok place ↔
      '\x00' ∉ path.toList ∧ path ≠ "" ∧ path.utf8ByteSize < maxPath ∧
        t.walkFrom true maxLinks (t.start path) (Path.components path) = .ok place := by
  unfold walk
  change (if _ then _ else if _ then _ else if _ then _ else t.walkFrom true maxLinks (t.start path) _) = _ ↔ _
  split_ifs with hnul hempty hlong
  · simp [List.contains_iff_mem.1 hnul]
  · simp [String.isEmpty_iff.1 hempty]
  · simp [Nat.not_lt.2 hlong]
  · have hnul : '\x00' ∉ path.toList := fun h => hnul (List.contains_iff_mem.2 h)
    have hempty : path ≠ "" := fun h => hempty (String.isEmpty_iff.2 h)
    simp [hnul, hempty, Nat.not_le.1 hlong]

/-- A final slash adds a name to a path, which leads to the same directory without it. -/
theorem walkFrom_names {path : String} (h : t.walk path true = .ok (.found location (.dir entries))) :
    ∃ es, t.walkFrom true maxLinks (t.start path) (Path.names path) = .ok (.found location (.dir es)) := by
  obtain ⟨-, -, -, h⟩ := walk_ok_iff.1 h
  rw [Path.components_eq] at h
  split at h
  · exact walkFrom_dot _ _ _ h
  · exact ⟨entries, h⟩

/-- **A path below a directory** leads to the file that its names lead to from there. -/
theorem walk_below {root : String} {dirs : List String} {file : String} {content : ByteArray}
    (hroot : t.walk root true = .ok (.found location (.dir entries)))
    (hnames : ∀ name ∈ dirs ++ [file], isEntryName name = true)
    (hfile : (Node.dir entries).get? (dirs ++ [file]) = some (.file content))
    (hshort : (Path.join root ("/".intercalate (dirs ++ [file]))).utf8ByteSize < maxPath) :
    t.walk (Path.join root ("/".intercalate (dirs ++ [file]))) true =
      .ok (.found (location ++ (dirs ++ [file])) (.file content)) := by
  obtain ⟨es, hes⟩ := walkFrom_names hroot
  obtain ⟨hnul, hne, -, hroot⟩ := walk_ok_iff.1 hroot
  have hparts : ∀ p ∈ dirs ++ [file], p ≠ "" ∧ '/' ∉ p.toList := by
    intro p hp
    obtain ⟨hp, -, -, hslash, -⟩ := isEntryName_iff.1 (hnames p hp)
    exact ⟨hp, hslash⟩
  have hrel := Path.isAbsolute_intercalate hparts
  have hstart : t.start (Path.join root ("/".intercalate (dirs ++ [file]))) = t.start root := by
    unfold start
    rw [Path.isAbsolute_join hne hrel]
  refine walk_ok_iff.2 ⟨fun hmem => ?_, fun hempty => ?_, hshort, ?_⟩
  · obtain h | h | ⟨p, hp, h⟩ := Path.mem_join hparts hmem
    · exact hnul h
    · exact absurd h (by decide)
    · obtain ⟨-, -, -, -, hnul, -⟩ := isEntryName_iff.1 (hnames p hp)
      exact hnul h
  · have hall := Path.components_join hparts root
    rw [hempty] at hall
    exact absurd hall.symm (by simp [Path.components, Path.pieces])
  · rw [Path.components_join hparts root, hstart]
    have hentries : entries = t.entriesAt location := walkFrom_entries _ _ _ hroot
    have hdown : ∀ links, t.walkFrom true links location (dirs ++ [file]) =
        .ok (.found (location ++ (dirs ++ [file])) (.file content)) := walkFrom_down hnames (hentries ▸ hfile)
    exact walkFrom_append (by simp) hdown _ _ _ hes

end Tree
end Files
end LiveShader
