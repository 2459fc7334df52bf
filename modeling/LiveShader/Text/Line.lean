import LiveShader.Text.Blank
/-!
# Text.Line — lines, and the first place where a marker stands

A line ends at a newline, which takes one carriage return right before it along; a rest without a newline is a
last line, whose carriage return stays.  `cut?` finds the first occurrence of a marker.
-/
namespace LiveShader
namespace Text

def consLine (c : Char) : List (List Char) → List (List Char)
  | [] => [[c]]
  | l :: ls => (c :: l) :: ls

/-- The lines of a text. -/
def lines : List Char → List (List Char)
  | [] => []
  | c :: cs =>
    if c = '\n' then [] :: lines cs
    else if c = '\r' ∧ cs.head? = some '\n' then lines cs
    else consLine c (lines cs)

/-- Each line ended by a newline. -/
def unlines (ls : List (List Char)) : List Char := ls.flatMap (· ++ ['\n'])

/-- The rest of a text that begins with a marker. -/
def dropMarker? : List Char → List Char → Option (List Char)
  | [], s => some s
  | _ :: _, [] => none
  | m :: ms, c :: cs => if m = c then dropMarker? ms cs else none

/-- The texts before and after the first occurrence of a marker. -/
def cut? (marker : List Char) : List Char → Option (List Char × List Char)
  | [] => (dropMarker? marker []).map fun rest => ([], rest)
  | c :: cs =>
    match dropMarker? marker (c :: cs) with
    | some rest => some ([], rest)
    | none => (cut? marker cs).map fun (before, rest) => (c :: before, rest)

def occursIn (marker s : List Char) : Bool := (cut? marker s).isSome

/-- The text before a character that fails the test, and the text after it; none when every character passes. -/
def cutAt? (stop : Char → Bool) (s : List Char) : Option (List Char × List Char) :=
  match s.dropWhile (!stop ·) with
  | [] => none
  | _ :: rest => some (s.takeWhile (!stop ·), rest)

/-- The rest of a text that ends in a character, without it. -/
def dropLast? (c : Char) (s : List Char) : Option (List Char) :=
  if s.getLast? = some c then some s.dropLast else none

theorem dropMarker?_eq_some {m s r : List Char} : dropMarker? m s = some r ↔ s = m ++ r := by
  fun_induction dropMarker? m s <;> grind

theorem cut?_append {m s b r : List Char} (h : cut? m s = some (b, r)) : s = b ++ (m ++ r) := by
  fun_induction cut? m s generalizing b with
  | case1 =>
    obtain ⟨t, ht, he⟩ := Option.map_eq_some_iff.1 h
    obtain ⟨rfl, rfl⟩ := Prod.mk.inj he
    simpa using dropMarker?_eq_some.1 ht
  | case2 c cs t ht =>
    obtain ⟨rfl, rfl⟩ := Prod.mk.inj (Option.some.inj h)
    simpa using dropMarker?_eq_some.1 ht
  | case3 c cs hn ih =>
    obtain ⟨⟨b', r'⟩, hc, he⟩ := Option.map_eq_some_iff.1 h
    obtain ⟨rfl, rfl⟩ := Prod.mk.inj he
    rw [ih hc, List.cons_append]

theorem occursIn_iff {m s : List Char} : occursIn m s = true ↔ ∃ b r, s = b ++ (m ++ r) := by
  constructor
  · intro h
    obtain ⟨⟨b, r⟩, hc⟩ := Option.isSome_iff_exists.1 h
    exact ⟨b, r, cut?_append hc⟩
  · rintro ⟨b, r, rfl⟩
    unfold occursIn
    induction b with
    | nil =>
      have hd : dropMarker? m (m ++ r) = some r := dropMarker?_eq_some.2 rfl
      cases hs : m ++ r with
      | nil => rw [hs] at hd; simp [cut?, hd]
      | cons c cs => rw [hs] at hd; simp [cut?, hd]
    | cons c b ih =>
      rw [List.cons_append, cut?]
      split
      · rfl
      · simpa using ih

@[simp] theorem lines_nil : lines [] = [] := rfl

theorem lines_newline (cs : List Char) : lines ('\n' :: cs) = [] :: lines cs := by simp [lines]

end Text
end LiveShader
