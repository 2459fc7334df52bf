import LiveShader.Text.Line
import Mathlib.Data.List.Infix
import Mathlib.Data.List.TakeWhile
/-!
# Proofs.Text.Search — what cutting and trimming find

`FirstAt` and `Trimmed` say what the first occurrence of a marker and the text between the blanks at both ends are,
without saying how they are found; `cut?` and `trimChars` find just these.  `cutAt?` cuts at the first character that it
has to stop at (`cutAt?_eq_some_iff`).
-/
namespace LiveShader
namespace Text

/-! ## The first occurrence of a marker -/

/-- A text with a marker in it, cut at the first place where the marker stands. -/
structure FirstAt (marker s before rest : List Char) : Prop where
  split : s = before ++ (marker ++ rest)
  first : ∀ b r, s = b ++ (marker ++ r) → before.length ≤ b.length

theorem cut?_first {m s b r : List Char} (h : cut? m s = some (b, r)) {b' r' : List Char}
    (hs : s = b' ++ (m ++ r')) : b.length ≤ b'.length := by
  fun_induction cut? m s generalizing b b' with
  | case1 =>
    obtain ⟨t, -, he⟩ := Option.map_eq_some_iff.1 h
    cases he
    exact Nat.zero_le _
  | case2 c cs t ht =>
    cases h
    exact Nat.zero_le _
  | case3 c cs hn ih =>
    obtain ⟨⟨b, r⟩, hc, he⟩ := Option.map_eq_some_iff.1 h
    cases he
    cases b' with
    | nil =>
      have hd : dropMarker? m (c :: cs) = some r' := dropMarker?_eq_some.2 hs
      rw [hn] at hd
      cases hd
    | cons d b' =>
      rw [List.cons_append] at hs
      exact Nat.succ_le_succ (ih hc (List.cons.inj hs).2)

/-- **Cutting finds the first occurrence.** -/
theorem cut?_eq_some_iff {m s b r : List Char} : cut? m s = some (b, r) ↔ FirstAt m s b r := by
  constructor
  · exact fun h => ⟨cut?_append h, fun b' r' hs => cut?_first h hs⟩
  · rintro ⟨hs, hfirst⟩
    obtain ⟨⟨b', r'⟩, hc⟩ := Option.isSome_iff_exists.1 (occursIn_iff.2 ⟨b, r, hs⟩)
    have hlen : b.length = b'.length := Nat.le_antisymm (hfirst b' r' (cut?_append hc)) (cut?_first hc hs)
    obtain ⟨rfl, hrest⟩ := List.append_inj (hs.symm.trans (cut?_append hc)) hlen
    rw [hc, List.append_cancel_left hrest]

theorem occursIn_iff_isInfix {m s : List Char} : occursIn m s = true ↔ m <:+: s := by
  rw [occursIn_iff]
  constructor
  · rintro ⟨b, r, rfl⟩
    exact ⟨b, r, List.append_assoc b m r⟩
  · rintro ⟨b, r, rfl⟩
    exact ⟨b, r, List.append_assoc b m r⟩

theorem cut?_eq_none_iff {m s : List Char} : cut? m s = none ↔ ¬ m <:+: s := by
  rw [← occursIn_iff_isInfix, occursIn, Option.isSome_iff_ne_none, not_not]

/-! ## The first character to stop at -/

theorem cutAt?_append {stop : Char → Bool} {c : Char} {before rest : List Char} (hbefore : ∀ d ∈ before, stop d = false)
    (hc : stop c = true) : cutAt? stop (before ++ c :: rest) = some (before, rest) := by
  have hpass : ∀ d ∈ before, (!stop d) = true := fun d hd => by rw [hbefore d hd]; rfl
  unfold cutAt?
  rw [List.dropWhile_append_of_pos hpass, List.takeWhile_append_of_pos hpass, List.dropWhile_cons_of_neg (by simp [hc]),
    List.takeWhile_cons_of_neg (by simp [hc]), List.append_nil]

/-- **Cutting finds the first character to stop at.** -/
theorem cutAt?_eq_some_iff {stop : Char → Bool} {s before rest : List Char} :
    cutAt? stop s = some (before, rest) ↔
      ∃ c, s = before ++ c :: rest ∧ stop c = true ∧ ∀ d ∈ before, stop d = false := by
  constructor
  · intro h
    unfold cutAt? at h
    cases hrest : s.dropWhile (!stop ·) with
    | nil => rw [hrest] at h; cases h
    | cons c cs =>
      rw [hrest] at h
      obtain ⟨rfl, rfl⟩ := Prod.mk.inj (Option.some.inj h)
      have hc := List.head?_dropWhile_not (!stop ·) s
      rw [hrest] at hc
      refine ⟨c, ?_, by simpa using hc, fun d hd => by simpa using List.mem_takeWhile_imp hd⟩
      rw [← hrest, List.takeWhile_append_dropWhile]
  · rintro ⟨c, rfl, hc, hbefore⟩
    exact cutAt?_append hbefore hc

/-! ## Trimming -/

/-- The text between the blanks at both ends of another. -/
structure Trimmed (s t : List Char) : Prop where
  blanks : ∃ front back, s = front ++ (t ++ back) ∧ (∀ c ∈ front, isBlank c = true) ∧ ∀ c ∈ back, isBlank c = true
  head : ∀ c ∈ t.head?, isBlank c = false
  last : ∀ c ∈ t.getLast?, isBlank c = false

theorem trimFront_append {front : List Char} (h : ∀ c ∈ front, isBlank c = true) (s : List Char) :
    trimFront (front ++ s) = trimFront s := List.dropWhile_append_of_pos h

theorem trimBack_append {back : List Char} (h : ∀ c ∈ back, isBlank c = true) (s : List Char) :
    trimBack (s ++ back) = trimBack s := by
  unfold trimBack
  rw [List.reverse_append, List.dropWhile_append_of_pos]
  exact fun c hc => h c (List.mem_reverse.1 hc)

theorem trimFront_of_head {s : List Char} (h : ∀ c ∈ s.head?, isBlank c = false) : trimFront s = s := by
  cases s with
  | nil => rfl
  | cons c cs => exact List.dropWhile_cons_of_neg (by rw [h c rfl]; exact Bool.noConfusion)

theorem trimBack_of_last {s : List Char} (h : ∀ c ∈ s.getLast?, isBlank c = false) : trimBack s = s := by
  have hrev : trimFront s.reverse = s.reverse := trimFront_of_head (fun c hc => h c (by rwa [List.head?_reverse] at hc))
  show (trimFront s.reverse).reverse = s
  rw [hrev, List.reverse_reverse]

theorem trimFront_split (s : List Char) : ∃ front, s = front ++ trimFront s ∧ ∀ c ∈ front, isBlank c = true :=
  ⟨s.takeWhile isBlank, List.takeWhile_append_dropWhile.symm, fun _ hc => List.mem_takeWhile_imp hc⟩

theorem trimBack_split (s : List Char) : ∃ back, s = trimBack s ++ back ∧ ∀ c ∈ back, isBlank c = true := by
  obtain ⟨front, hs, hblank⟩ := trimFront_split s.reverse
  refine ⟨front.reverse, ?_, fun c hc => hblank c (List.mem_reverse.1 hc)⟩
  show s = (trimFront s.reverse).reverse ++ front.reverse
  rw [← List.reverse_append, ← hs, List.reverse_reverse]

theorem trimFront_head (s : List Char) : ∀ c ∈ (trimFront s).head?, isBlank c = false := by
  intro c hc
  have h := List.head?_dropWhile_not isBlank s
  rw [show (s.dropWhile isBlank).head? = some c from hc] at h
  simpa using h

theorem trimBack_last (s : List Char) : ∀ c ∈ (trimBack s).getLast?, isBlank c = false := by
  intro c hc
  refine trimFront_head s.reverse c ?_
  rwa [show trimBack s = (trimFront s.reverse).reverse from rfl, List.getLast?_reverse] at hc

/-- Trimming the back keeps a front that is not blank. -/
theorem trimBack_head {s : List Char} (h : ∀ c ∈ s.head?, isBlank c = false) :
    ∀ c ∈ (trimBack s).head?, isBlank c = false := by
  intro c hc
  obtain ⟨back, hs, -⟩ := trimBack_split s
  refine h c ?_
  rw [hs, List.head?_append, show (trimBack s).head? = some c from hc]
  rfl

/-- **Trimming leaves the text between the blanks at both ends.** -/
theorem trimChars_eq_iff {s t : List Char} : trimChars s = t ↔ Trimmed s t := by
  constructor
  · rintro rfl
    obtain ⟨front, hfront, hblank⟩ := trimFront_split s
    obtain ⟨back, hback, hblank'⟩ := trimBack_split (trimFront s)
    refine ⟨⟨front, back, ?_, hblank, hblank'⟩, trimBack_head (trimFront_head s), trimBack_last (trimFront s)⟩
    rw [trimChars, ← hback]
    exact hfront
  · rintro ⟨⟨front, back, rfl, hfront, hback⟩, hhead, hlast⟩
    unfold trimChars
    rw [trimFront_append hfront]
    cases t with
    | nil =>
      rw [List.nil_append, show trimFront back = [] from (trimFront_eq_nil_iff back).2 (List.all_eq_true.2 hback)]
      rfl
    | cons c t =>
      rw [trimFront_of_head (s := (c :: t) ++ back) hhead, trimBack_append hback, trimBack_of_last hlast]

theorem dropLast?_eq_some_iff {c : Char} {s t : List Char} : dropLast? c s = some t ↔ s = t ++ [c] := by
  unfold dropLast?
  constructor
  · intro h
    split at h
    · next hl => rw [← Option.some.inj h, List.dropLast_append_getLast? c hl]
    · cases h
  · rintro rfl
    rw [if_pos (List.getLast?_concat), List.dropLast_concat]

theorem isAllBlank_eq_false_iff {s : List Char} : isAllBlank s = false ↔ ∃ c ∈ s, isBlank c = false := by
  simp [isAllBlank]

end Text
end LiveShader
