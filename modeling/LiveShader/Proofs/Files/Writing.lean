import LiveShader.Proofs.Files.Walking
import LiveShader.Proofs.Text.ByteOrder
/-!
# Proofs.Files.Writing — what is written is read back

A change of one directory leaves every node elsewhere of the kind it was (`get?_alterDir_elsewhere`).  So a walk to the
place that is written goes the same way afterwards and ends at the file (`walkFrom_putFile`), and a path that can be
written reads what was written (`read_write`).
-/
namespace LiveShader
namespace Files

variable {entries : List (String × Node)} {directory here location : Location} {name : String} {content : ByteArray}

/-! ## A change of one directory -/

/-- A node without what is below it. -/
def Node.bare : Node → Node
  | .dir _ => .dir []
  | node => node

theorem Node.bare_eq_dir_iff {node : Node} : node.bare = .dir [] ↔ ∃ entries, node = .dir entries := by
  cases node <;> simp [bare]

theorem Node.bare_eq_file_iff {node : Node} : node.bare = .file content ↔ node = .file content := by
  cases node <;> simp [bare]

theorem Node.bare_eq_link_iff {node : Node} {target : String} : node.bare = .link target ↔ node = .link target := by
  cases node <;> simp [bare]

theorem Node.get?_cons (entries : List (String × Node)) (name : String) (location : Location) :
    (Node.dir entries).get? (name :: location) = (findEntry name entries).bind (·.get? location) := rfl

/-- At the directory and below it are the changed entries. -/
theorem get?_alterDir (f : List (String × Node) → List (String × Node)) {top : Node}
    (h : top.get? directory = some (.dir entries)) (location : Location) :
    (top.alterDir f directory).get? (directory ++ location) = (Node.dir (f entries)).get? location := by
  induction directory generalizing top with
  | nil =>
    obtain rfl : top = .dir entries := by simpa [Node.get?] using h
    rfl
  | cons n rest ih =>
    obtain ⟨es, child, rfl, hchild, hrest⟩ := Node.get?_cons_eq_some h
    simp only [Node.alterDir, hchild, List.cons_append, Node.get?_cons, findEntry_putEntry, if_pos, Option.bind_some]
    exact ih hrest

/-- **Elsewhere every node is of the kind it was**, and a file or link is the same. -/
theorem get?_alterDir_elsewhere (f : List (String × Node) → List (String × Node)) {top : Node}
    (h : ¬ directory <+: location) :
    ((top.alterDir f directory).get? location).map Node.bare = (top.get? location).map Node.bare := by
  induction directory generalizing top location with
  | nil => exact absurd (List.nil_prefix) h
  | cons n rest ih =>
    cases top with
    | file _ | link _ => rfl
    | dir es =>
      cases hchild : findEntry n es with
      | none => rw [Node.alterDir, hchild]
      | some child =>
        rw [Node.alterDir, hchild]
        cases location with
        | nil => rfl
        | cons m location =>
          rw [Node.get?_cons, Node.get?_cons, findEntry_putEntry]
          by_cases hname : n = m
          · subst hname
            rw [if_pos rfl, hchild]
            exact ih fun hprefix => h (List.cons_prefix_cons.2 ⟨rfl, hprefix⟩)
          · rw [if_neg hname]

namespace Tree

variable {t : Tree}

theorem findEntry_entriesAt (t : Tree) (here : Location) (name : String) :
    findEntry name (t.entriesAt here) = t.top.get? (here ++ [name]) := by
  unfold entriesAt
  rw [Node.get?_append]
  cases t.top.get? here with
  | none => rfl
  | some node =>
    cases node with
    | file _ | link _ => rfl
    | dir es =>
      show _ = (findEntry name es).bind (Node.get? · [])
      cases findEntry name es <;> rfl

/-! ## Putting a file into a directory -/

/-- A directory can take a file: it has one of this name, or nothing. -/
structure Takes (t : Tree) (directory : Location) (name : String) : Prop where
  isDir : ∃ entries, t.top.get? directory = some (.dir entries)
  entry : t.top.get? (directory ++ [name]) = none ∨ ∃ old, t.top.get? (directory ++ [name]) = some (.file old)

/-- The tree after a file was put into a directory. -/
def putFile (t : Tree) (directory : Location) (name : String) (content : ByteArray) : Tree :=
  t.alter directory (putEntry name (.file content))

theorem get?_putFile (h : t.Takes directory name) :
    (t.putFile directory name content).top.get? (directory ++ [name]) = some (.file content) := by
  obtain ⟨entries, hentries⟩ := h.isDir
  show (t.top.alterDir _ directory).get? _ = _
  rw [get?_alterDir _ hentries, Node.get?_cons, findEntry_putEntry, if_pos rfl]
  rfl

/-- **Nothing else changes its kind.** -/
theorem get?_putFile_elsewhere (h : t.Takes directory name) (content : ByteArray)
    (hne : location ≠ directory ++ [name]) :
    ((t.putFile directory name content).top.get? location).map Node.bare = (t.top.get? location).map Node.bare := by
  by_cases hprefix : directory <+: location
  · obtain ⟨entries, hentries⟩ := h.isDir
    obtain ⟨below, rfl⟩ := hprefix
    show ((t.top.alterDir _ directory).get? _).map _ = _
    rw [get?_alterDir _ hentries, Node.get?_append, hentries]
    cases below with
    | nil => rfl
    | cons n below =>
      rw [Node.get?_cons, findEntry_putEntry]
      by_cases hname : name = n
      · subst hname
        -- there is nothing below the file, and was nothing there before
        cases below with
        | nil => exact absurd rfl hne
        | cons m below =>
          have hentry := h.entry
          rw [Node.get?_append, hentries] at hentry
          simp only [Option.bind_some, Node.get?_cons] at hentry ⊢
          rcases hfind : findEntry name entries with _ | node
          · simp [Node.get?]
          · rw [hfind] at hentry
            obtain hentry | ⟨old, hentry⟩ := hentry
            · simp [Node.get?] at hentry
            · obtain rfl : node = .file old := by simpa [Node.get?] using hentry
              simp [Node.get?]
      · rw [if_neg hname]
        rfl
  · exact get?_alterDir_elsewhere _ hprefix

/-- The places at which a file is put into a directory. -/
inductive Ends (directory : Location) (name : String) : Place → Prop
  | free : Ends directory name (.free directory name)
  | found (old : ByteArray) : Ends directory name (.found (directory ++ [name]) (.file old))

/-- What a place turns into once the file is there: it is at its place, and every file elsewhere is as it was. -/
inductive Turns (directory : Location) (name : String) (content : ByteArray) : Place → Place → Prop
  | ended {place : Place} :
    Ends directory name place → Turns directory name content place (.found (directory ++ [name]) (.file content))
  | elsewhere {location : Location} {old : ByteArray} :
    location ≠ directory ++ [name] →
      Turns directory name content (.found location (.file old)) (.found location (.file old))

/-- What a leg comes to once the file is there: what its place turns into, and one to a link is the same. -/
def Reaches (directory : Location) (name : String) (content : ByteArray) : Leg → Leg → Prop
  | .arrived place, leg => ∀ after, Turns directory name content place after → leg = .arrived after
  | .atLink target here rest, leg => leg = .atLink target here rest
  | .failed _, _ => True

/-- A name that is free elsewhere is not said to turn into anything. -/
theorem not_turns_free {after : Place} {n : String} (h : here ++ [n] ≠ directory ++ [name]) :
    ¬ Turns directory name content (.free here n) after := by
  rintro ⟨⟨⟩⟩
  exact h rfl

theorem not_turns_dir {after : Place} : ¬ Turns directory name content (.found location (.dir entries)) after := by
  rintro ⟨⟨⟩⟩

theorem leg_putFile (h : t.Takes directory name) (content : ByteArray) : ∀ (names : List String) (here : Location),
    Reaches directory name content (t.leg true here names) ((t.putFile directory name content).leg true here names)
  | [], here => fun _ hturns => absurd hturns not_turns_dir
  | n :: names, here => by
    have ih := leg_putFile h content names
    rw [leg.eq_def t, leg.eq_def (t.putFile _ _ _)]
    simp only
    split_ifs with hdot hup hlong
    · exact ih here
    · exact ih here.dropLast
    · exact trivial
    · rw [findEntry_entriesAt, findEntry_entriesAt]
      by_cases hplace : here ++ [n] = directory ++ [name]
      · -- the place itself, where nothing but a file can have been
        obtain ⟨rfl, hn⟩ := List.append_inj' hplace rfl
        obtain rfl : n = name := List.singleton_inj.1 hn
        rw [get?_putFile h]
        obtain hentry | ⟨old, hentry⟩ := h.entry
        · rw [hentry]
          cases names with
          | nil =>
            rintro after ⟨⟨⟩⟩
            rfl
          | cons m names => exact trivial
        · rw [hentry]
          cases names with
          | nil =>
            rintro after (_ | hne)
            · rfl
            · exact absurd rfl hne
          | cons m names => exact trivial
      · have hkind := get?_putFile_elsewhere h content hplace
        generalize (t.putFile directory name content).top.get? (here ++ [n]) = after at hkind ⊢
        cases hentry : t.top.get? (here ++ [n]) with
        | none =>
          rw [hentry] at hkind
          obtain rfl : after = none := by simpa using hkind
          cases names with
          | nil => exact fun _ hturns => absurd hturns (not_turns_free hplace)
          | cons m names => exact trivial
        | some node =>
          rw [hentry] at hkind
          obtain ⟨node', rfl, hbare⟩ : ∃ node', after = some node' ∧ node'.bare = node.bare := by simpa using hkind
          cases node with
          | dir es =>
            obtain ⟨es', rfl⟩ := Node.bare_eq_dir_iff.1 hbare
            exact ih (here ++ [n])
          | link target =>
            obtain rfl := Node.bare_eq_link_iff.1 hbare
            simp [Reaches]
          | file old =>
            obtain rfl := Node.bare_eq_file_iff.1 hbare
            cases names with
            | nil =>
              intro after hturns
              generalize hlocation : here ++ [n] = location at hturns
              obtain ⟨⟨⟩⟩ | hne := hturns
              · exact absurd hlocation hplace
              · rfl
            | cons m names => exact trivial

theorem walkFrom_putFile (h : t.Takes directory name) {place after : Place}
    (hturns : Turns directory name content place after) (links : Nat) (here : Location) (names : List String)
    (hwalk : t.walkFrom true links here names = .ok place) :
    (t.putFile directory name content).walkFrom true links here names = .ok after := by
  induction links using Nat.strongRecOn generalizing here names with
  | ind links ih =>
  rw [walkFrom_eq] at hwalk ⊢
  have hreaches := leg_putFile h content names here
  cases hleg : t.leg true here names with
  | failed e => simp [hleg] at hwalk
  | arrived p =>
    rw [hleg] at hwalk hreaches
    obtain rfl := Except.ok.inj hwalk
    rw [hreaches after hturns]
  | atLink target directory' rest =>
    rw [hleg] at hwalk hreaches
    rw [hreaches]
    cases links with
    | zero => cases hwalk
    | succ links => exact ih links (Nat.lt_succ_self links) _ _ hwalk

/-- **A path leads to what its place turns into**, once the file is there. -/
theorem walk_putFile (h : t.Takes directory name) {path : String} {place after : Place}
    (hturns : Turns directory name content place after) (hwalk : t.walk path true = .ok place) :
    (t.putFile directory name content).walk path true = .ok after := by
  obtain ⟨hnul, hne, hshort, hfrom⟩ := walk_ok_iff.1 hwalk
  exact walk_ok_iff.2 ⟨hnul, hne, hshort, walkFrom_putFile h hturns _ _ _ hfrom⟩

/-! ## Writing -/

/-- A path that can be written: it leads to a file, or to a name that is free in a directory. -/
inductive Writable (t : Tree) (path : String) : Prop
  | file {location : Location} {old : ByteArray} :
    t.walk path true = .ok (.found location (.file old)) → Writable t path
  | free {directory : Location} {name : String} {entries : List (String × Node)} :
    t.walk path true = .ok (.free directory name) → t.top.get? directory = some (.dir entries) → Writable t path

/-- What a place that a leg leads to says about the tree. -/
def Stands (t : Tree) : Place → Prop
  | .free directory name => t.top.get? (directory ++ [name]) = none
  | .found location (.file old) => location ≠ [] ∧ t.top.get? location = some (.file old)
  | .found _ _ => True

theorem leg_stands {place : Place} : ∀ (names : List String) (here : Location),
    t.leg true here names = .arrived place → t.Stands place
  | [], here, h => by
    obtain rfl := Leg.arrived.inj h
    exact trivial
  | n :: names, here, h => by
    have ih : ∀ here, t.leg true here names = .arrived place → t.Stands place := leg_stands names
    rw [leg.eq_def] at h
    simp only at h
    split_ifs at h with hdot hup hlong
    · exact ih here h
    · exact ih here.dropLast h
    · rw [findEntry_entriesAt] at h
      cases hentry : t.top.get? (here ++ [n]) with
      | none =>
        rw [hentry] at h
        cases names with
        | nil =>
          obtain rfl := Leg.arrived.inj h
          exact hentry
        | cons m names => cases h
      | some node =>
        rw [hentry] at h
        cases node with
        | dir _ => exact ih (here ++ [n]) h
        | link target => simp at h
        | file content =>
          cases names with
          | nil =>
            obtain rfl := Leg.arrived.inj h
            exact ⟨by simp, hentry⟩
          | cons m names => cases h

theorem walkFrom_stands {place : Place} (links : Nat) (here : Location) (names : List String)
    (h : t.walkFrom true links here names = .ok place) : t.Stands place := by
  induction links using Nat.strongRecOn generalizing here names with
  | ind links ih =>
  rw [walkFrom_eq] at h
  cases hleg : t.leg true here names with
  | failed e => simp [hleg] at h
  | arrived p =>
    rw [hleg] at h
    obtain rfl := Except.ok.inj h
    exact leg_stands names here hleg
  | atLink target directory rest =>
    rw [hleg] at h
    cases links with
    | zero => cases h
    | succ links => exact ih links (Nat.lt_succ_self links) _ _ h

/-- A path that can be written leads to a place at which a file is put. -/
theorem Writable.ends {path : String} (h : t.Writable path) : ∃ directory name place, t.Takes directory name ∧
    t.walk path true = .ok place ∧ Ends directory name place ∧
      ∀ content, t.write path content = t.putFile directory name content := by
  cases h with
  | @file location old hwalk =>
    obtain ⟨-, -, -, hfrom⟩ := walk_ok_iff.1 hwalk
    obtain ⟨hne, hentry⟩ := walkFrom_stands _ _ _ hfrom
    obtain ⟨directory, name, rfl⟩ : ∃ directory name, location = directory ++ [name] :=
      ⟨_, _, (List.dropLast_append_getLast hne).symm⟩
    refine ⟨directory, name, _, ⟨?_, .inr ⟨old, hentry⟩⟩, hwalk, .found old, fun content => ?_⟩
    · rw [Node.get?_append] at hentry
      obtain ⟨node, hnode, hchild⟩ := Option.bind_eq_some_iff.1 hentry
      obtain ⟨entries, -, rfl, -⟩ := Node.get?_cons_eq_some hchild
      exact ⟨entries, hnode⟩
    · simp [write, hwalk, putFile]
  | @free directory name entries hwalk hdir =>
    obtain ⟨-, -, -, hfrom⟩ := walk_ok_iff.1 hwalk
    refine ⟨directory, name, _, ⟨⟨entries, hdir⟩, .inl (walkFrom_stands _ _ _ hfrom)⟩, hwalk, .free, fun content => ?_⟩
    simp [write, hwalk, putFile]

/-- **What is written is read back.** -/
theorem read_write {path : String} (h : t.Writable path) (content : ByteArray) :
    (t.write path content).read path = .ok content := by
  obtain ⟨directory, name, place, htakes, hwalk, hends, hwrite⟩ := h.ends
  rw [hwrite, read, walk_putFile htakes (.ended hends) hwalk]

theorem readText_write {path : String} (h : t.Writable path) (text : String) :
    (t.write path text.toUTF8).readText path = .ok text := by
  rw [readText, read_write h]
  simp only [Text.fromUTF8?_toUTF8]

end Tree
end Files
end LiveShader
