import LiveShader.Proofs.Files.Writing
/-!
# Proofs.Files.Overwriting — what a write does to the files at other paths

Paths that lead to the file that is written read what was written (`read_write_same`), and every other file reads as it
did (`read_write_apart`).  The same write once more changes nothing (`write_write`).
-/
namespace LiveShader
namespace Files

variable {entries : List (String × Node)} {directory location : Location} {name : String} {content : ByteArray}

/-! ## Changes that change nothing -/

theorem putEntry_of_findEntry {node : Node} : ∀ {entries : List (String × Node)},
    findEntry name entries = some node → putEntry name node entries = entries
  | [], h => by cases h
  | (n, old) :: rest, h => by
    rw [findEntry] at h
    rw [putEntry]
    split at h
    · next hname =>
      obtain rfl := Option.some.inj h
      rw [if_pos hname]
    · next hname => rw [if_neg hname, putEntry_of_findEntry h]

/-- A change that leaves the entries of its directory, or that has none, changes nothing. -/
theorem Node.alterDir_eq_self {f : List (String × Node) → List (String × Node)} : ∀ {directory : Location} {top : Node},
    (∀ es, top.get? directory = some (.dir es) → f es = es) → top.alterDir f directory = top
  | [], .dir es, h => congrArg Node.dir (h es rfl)
  | [], .file _, _ | [], .link _, _ => rfl
  | _ :: _, .file _, _ | _ :: _, .link _, _ => rfl
  | n :: rest, .dir es, h => by
    rw [alterDir]
    cases hchild : findEntry n es with
    | none => rfl
    | some child =>
      have hbelow : child.alterDir f rest = child :=
        Node.alterDir_eq_self fun es' hes' => h es' (by rw [get?_cons, hchild]; exact hes')
      simp only [hbelow, putEntry_of_findEntry hchild]

namespace Tree

variable {t : Tree} {p q : String}

/-- Putting a file where it is already changes nothing. -/
theorem putFile_eq_self (h : t.top.get? (directory ++ [name]) = some (.file content)) :
    t.putFile directory name content = t := by
  have htop : t.top.alterDir (putEntry name (.file content)) directory = t.top := by
    refine Node.alterDir_eq_self fun es hes => putEntry_of_findEntry ?_
    rw [Node.get?_append, hes, Option.bind_some, Node.get?_cons] at h
    obtain ⟨child, hchild, hfile⟩ := Option.bind_eq_some_iff.1 h
    rw [hchild]
    exact congrArg some (Option.some.inj hfile)
  show ({ t with top := _ } : Tree) = t
  rw [htop]

/-! ## Reading -/

theorem read_eq_ok_iff :
    t.read p = .ok content ↔ ∃ location, t.walk p true = .ok (.found location (.file content)) := by
  unfold read
  constructor
  · intro h
    split at h
    · cases h
    · cases h
    · next location old hwalk =>
      obtain rfl := Except.ok.inj h
      exact ⟨location, hwalk⟩
    · cases h
    · cases h
  · rintro ⟨location, hwalk⟩
    rw [hwalk]

theorem readText_eq_ok_iff {text : String} :
    t.readText p = .ok text ↔ ∃ content, t.read p = .ok content ∧ String.fromUTF8? content = some text := by
  unfold readText
  cases t.read p with
  | error cause => simp
  | ok content => cases hdecoded : String.fromUTF8? content <;> simp [hdecoded]

theorem readText_congr {t' : Tree} (h : t.read p = t'.read p) : t.readText p = t'.readText p := by
  unfold readText
  rw [h]

theorem isFile_iff : t.isFile p = true ↔ ∃ content, t.read p = .ok content := by
  unfold isFile node?
  constructor
  · intro h
    split at h
    · next location node hwalk =>
      cases node with
      | file content => exact ⟨content, read_eq_ok_iff.2 ⟨location, hwalk⟩⟩
      | link _ | dir _ => cases h
    · cases h
  · rintro ⟨content, hread⟩
    obtain ⟨location, hwalk⟩ := read_eq_ok_iff.1 hread
    rw [hwalk]
    rfl

/-! ## Two paths to one file -/

/-- Where the file is that a path leads to. -/
def fileAt? (t : Tree) (p : String) : Option Location :=
  match t.walk p true with
  | .ok (.found location (.file _)) => some location
  | _ => none

/-- Two paths lead to one file, whatever links are on the way. -/
def SameFile (t : Tree) (p q : String) : Prop := (t.fileAt? p).isSome = true ∧ t.fileAt? p = t.fileAt? q

instance (t : Tree) (p q : String) : Decidable (t.SameFile p q) := inferInstanceAs (Decidable (_ ∧ _))

theorem fileAt?_eq_some_iff :
    t.fileAt? p = some location ↔ ∃ content, t.walk p true = .ok (.found location (.file content)) := by
  unfold fileAt?
  constructor
  · intro h
    split at h
    · next there content hwalk =>
      obtain rfl := Option.some.inj h
      exact ⟨content, hwalk⟩
    · cases h
  · rintro ⟨content, hwalk⟩
    rw [hwalk]

/-- Where a walk says a file is, there it is. -/
theorem get?_of_walk (h : t.walk p true = .ok (.found location (.file content))) :
    t.top.get? location = some (.file content) := by
  obtain ⟨-, -, -, hfrom⟩ := walk_ok_iff.1 h
  exact (walkFrom_stands _ _ _ hfrom).2

theorem sameFile_iff : t.SameFile p q ↔ ∃ location content, t.walk p true = .ok (.found location (.file content)) ∧
    t.walk q true = .ok (.found location (.file content)) := by
  constructor
  · rintro ⟨hp, hpq⟩
    obtain ⟨location, hat⟩ := Option.isSome_iff_exists.1 hp
    obtain ⟨content, hp⟩ := fileAt?_eq_some_iff.1 hat
    obtain ⟨content', hq⟩ := fileAt?_eq_some_iff.1 (hpq.symm.trans hat)
    obtain rfl : content' = content := by simpa [get?_of_walk hq] using get?_of_walk hp
    exact ⟨location, content', hp, hq⟩
  · rintro ⟨location, content, hp, hq⟩
    have hat := fileAt?_eq_some_iff.2 ⟨content, hp⟩
    exact ⟨Option.isSome_of_eq_some hat, hat.trans (fileAt?_eq_some_iff.2 ⟨content, hq⟩).symm⟩

/-- **A path to the file that is written** reads what was written. -/
theorem read_write_same (h : t.SameFile p q) (content : ByteArray) : (t.write p content).read q = .ok content := by
  obtain ⟨location, old, hp, hq⟩ := sameFile_iff.1 h
  obtain ⟨directory, name, place, htakes, hwalk, hends, hwrite⟩ := Writable.ends (.file hp)
  obtain rfl : place = .found location (.file old) := Except.ok.inj (hwalk.symm.trans hp)
  rw [hwrite, read, walk_putFile htakes (.ended hends) hq]

theorem write_of_not_writable (h : ¬ t.Writable p) (content : ByteArray) : t.write p content = t := by
  unfold write
  split
  · next location old hwalk => exact absurd (.file hwalk) h
  · next directory name hwalk =>
    have hnone : t.top.alterDir (putEntry name (.file content)) directory = t.top :=
      Node.alterDir_eq_self fun es hes => absurd (.free hwalk hes) h
    show ({ t with top := _ } : Tree) = t
    rw [hnone]
  · rfl

/-- **Every other file reads as it did.** -/
theorem read_write_apart {old : ByteArray} (hread : t.read q = .ok old) (hapart : ¬ t.SameFile p q)
    (content : ByteArray) : (t.write p content).read q = .ok old := by
  obtain ⟨location, hq⟩ := read_eq_ok_iff.1 hread
  by_cases hwritable : t.Writable p
  · obtain ⟨directory, name, place, htakes, hp, hends, hwrite⟩ := hwritable.ends
    have hne : location ≠ directory ++ [name] := by
      rintro rfl
      have hthere := get?_of_walk hq
      cases hends with
      | free =>
        -- the name is taken
        obtain ⟨-, -, -, hfrom⟩ := walk_ok_iff.1 hp
        have hfree : t.top.get? (directory ++ [name]) = none := walkFrom_stands _ _ _ hfrom
        rw [hfree] at hthere
        cases hthere
      | found older =>
        obtain rfl : old = older := by simpa [hthere] using get?_of_walk hp
        exact hapart (sameFile_iff.2 ⟨_, _, hp, hq⟩)
    rw [hwrite]
    exact read_eq_ok_iff.2 ⟨location, walk_putFile htakes (.elsewhere hne) hq⟩
  · rw [write_of_not_writable hwritable, hread]

/-- **The same write once more changes nothing.** -/
theorem write_write (t : Tree) (p : String) (content : ByteArray) :
    (t.write p content).write p content = t.write p content := by
  by_cases hwritable : t.Writable p
  · obtain ⟨directory, name, place, htakes, hp, hends, hwrite⟩ := hwritable.ends
    have hagain : (t.putFile directory name content).walk p true = _ := walk_putFile htakes (.ended hends) hp
    rw [hwrite, write, hagain]
    simp only [List.getLast?_concat, List.dropLast_concat]
    exact putFile_eq_self (get?_putFile htakes)
  · rw [write_of_not_writable hwritable, write_of_not_writable hwritable]

end Tree
end Files
end LiveShader
