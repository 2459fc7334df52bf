import LiveShader.Proofs.Machine.Follows
import LiveShader.Window.Open
import Mathlib.Order.Bounds.Basic
/-!
# Proofs.Window.Choice — which framebuffer configuration a window takes

Going through the candidates keeps the first of those seen so far that have the most samples (`FirstOfMost.concat`), so
the first of all of them is taken (`mostSamples_isLeast`).  A window asks for that one by its place (`chooseConfig_calls`).
-/
namespace LiveShader
namespace Window

open Machine

variable {β : Type} {samples : β → Nat} {seen candidates : List β} {best c : β}

/-- A candidate with the most samples, where each one before it has fewer. -/
def FirstOfMost (samples : β → Nat) (seen : List β) (best : β) : Prop :=
  ∃ before after, seen = before ++ best :: after ∧ (∀ c ∈ before, samples c < samples best) ∧
    ∀ c ∈ after, samples c ≤ samples best

/-- The places of the candidates with the most samples. -/
def placesOfMost (samples : β → Nat) (candidates : List β) : Set Nat :=
  {i | ∃ c, candidates[i]? = some c ∧ ∀ d ∈ candidates, samples d ≤ samples c}

namespace FirstOfMost

theorem le (h : FirstOfMost samples seen best) : ∀ c ∈ seen, samples c ≤ samples best := by
  obtain ⟨before, after, rfl, hbefore, hafter⟩ := h
  intro c hc
  obtain hc | hc := List.mem_append.1 hc
  · exact Nat.le_of_lt (hbefore c hc)
  · obtain rfl | hc := List.mem_cons.1 hc
    · exact Nat.le_refl _
    · exact hafter c hc

/-- **One more candidate** takes the place of the best only if it has more samples. -/
theorem concat (h : FirstOfMost samples seen best) (c : β) :
    FirstOfMost samples (seen ++ [c]) (if samples best < samples c then c else best) := by
  split
  · next hmore =>
    refine ⟨seen, [], rfl, fun d hd => ?_, by simp⟩
    exact Nat.lt_of_le_of_lt (h.le d hd) hmore
  · next hnot =>
    obtain ⟨before, after, rfl, hbefore, hafter⟩ := h
    refine ⟨before, after ++ [c], by simp, hbefore, fun d hd => ?_⟩
    obtain hd | hd := List.mem_append.1 hd
    · exact hafter d hd
    · rw [List.mem_singleton.1 hd]
      exact Nat.le_of_not_lt hnot

theorem foldl (h : FirstOfMost samples seen best) (cs : List β) :
    FirstOfMost samples (seen ++ cs) (cs.foldl (fun best c => if samples best < samples c then c else best) best) := by
  induction cs generalizing seen best with
  | nil => rwa [List.append_nil]
  | cons c cs ih =>
    rw [List.foldl_cons, ← List.singleton_append, ← List.append_assoc]
    exact ih (h.concat c)

/-- Its place is the least of those with the most samples. -/
theorem isLeast (h : FirstOfMost samples candidates best) :
    ∃ i, IsLeast (placesOfMost samples candidates) i ∧ candidates[i]? = some best := by
  have hle := h.le
  obtain ⟨before, after, hsplit, hbefore, -⟩ := h
  have hbest : candidates[before.length]? = some best := by
    rw [hsplit, List.getElem?_append_right (Nat.le_refl _), Nat.sub_self]
    rfl
  refine ⟨before.length, ⟨⟨best, hbest, hle⟩, ?_⟩, hbest⟩
  rintro i ⟨c, hc, hmost⟩
  -- a candidate before it has fewer samples than it
  by_contra hlt
  rw [not_le] at hlt
  rw [hsplit, List.getElem?_append_left hlt] at hc
  have hfewer : samples c < samples best := hbefore c (List.mem_of_getElem? hc)
  exact absurd (hmost best (List.mem_of_getElem? hbest)) (Nat.not_le.2 hfewer)

end FirstOfMost

theorem mostSamples_eq_none_iff : mostSamples samples candidates = none ↔ candidates = [] := by
  cases candidates <;> simp [mostSamples]

theorem firstOfMost_of_mostSamples (h : mostSamples samples candidates = some c) :
    FirstOfMost samples candidates c := by
  cases candidates with
  | nil => cases h
  | cons first rest =>
    obtain rfl := Option.some.inj h
    have hfirst : FirstOfMost samples [first] first := ⟨[], [], rfl, by simp, by simp⟩
    exact hfirst.foldl rest

/-- **The candidate that is taken** is the one at the least place among those with the most samples, and only where there
are no candidates none is taken. -/
theorem mostSamples_isLeast (samples : β → Nat) (candidates : List β) :
    (mostSamples samples candidates = none ↔ candidates = []) ∧
    ∀ c, mostSamples samples candidates = some c ↔
      ∃ i, IsLeast (placesOfMost samples candidates) i ∧ candidates[i]? = some c := by
  refine ⟨mostSamples_eq_none_iff, fun c => ⟨fun h => (firstOfMost_of_mostSamples h).isLeast, ?_⟩⟩
  rintro ⟨i, hleast, hc⟩
  cases htaken : mostSamples samples candidates with
  | none =>
    rw [mostSamples_eq_none_iff.1 htaken] at hc
    cases hc
  | some taken =>
    obtain ⟨j, hleast', htaken⟩ := (firstOfMost_of_mostSamples htaken).isLeast
    rw [hleast'.unique hleast, hc] at htaken
    exact htaken.symm

/-- Of two with the most samples the first is taken. -/
example : mostSamples (·.2) [('a', 0), ('b', 4), ('c', 2), ('d', 4)] = some ('b', 4) := rfl

/-! ## The request for a configuration -/

/-- How the choice of a configuration goes. -/
inductive Chooses : Except OpenError Unit → Trace → Prop
  | refused {message : String} :
    Chooses (.error (.display message)) [.call ⟨.screen .findConfigs, .error message⟩]
  | nothing : Chooses (.error (.display noConfigs)) [.call ⟨.screen .findConfigs, .ok []⟩]
  | chosen {counts : List Nat} {index count : Nat} (first : IsLeast (placesOfMost id counts) index)
    (count_at : counts[index]? = some count) :
    Chooses (.ok ()) [.call ⟨.screen .findConfigs, .ok counts⟩, .call ⟨.screen (.chooseConfig index count), ()⟩]

theorem placesOfMost_zipIdx (counts : List Nat) : placesOfMost (·.1) counts.zipIdx = placesOfMost id counts := by
  ext i
  simp only [placesOfMost, Set.mem_ofPred_eq, List.getElem?_zipIdx, Option.map_eq_some_iff]
  constructor
  · rintro ⟨c, ⟨count, hcount, rfl⟩, hmost⟩
    refine ⟨count, hcount, fun d hd => ?_⟩
    obtain ⟨j, hj⟩ := List.mem_iff_getElem?.1 hd
    exact hmost (d, j) (List.mem_zipIdx_iff_getElem?.2 hj)
  · rintro ⟨count, hcount, hmost⟩
    refine ⟨(count, 0 + i), ⟨count, hcount, rfl⟩, fun d hd => ?_⟩
    exact hmost d.1 (List.mem_of_getElem? (List.mem_zipIdx_iff_getElem?.1 hd))

/-- **A window asks for the first of the configurations with the most samples.** -/
theorem chooseConfig_calls {σ : Type} : (chooseConfig : Run σ (Except OpenError Unit)).Calls Chooses := by
  intro files
  refine .ask fun found => ?_
  match found with
  | .error message => exact .pure ⟨.refused, rfl⟩
  | .ok counts =>
    simp only
    split
    · next hnone =>
      obtain rfl : counts = [] := List.zipIdx_eq_nil_iff.1 (mostSamples_eq_none_iff.1 hnone)
      exact .pure ⟨.nothing, rfl⟩
    · next count index htaken =>
      obtain ⟨i, hleast, hi⟩ := (firstOfMost_of_mostSamples htaken).isLeast
      rw [placesOfMost_zipIdx] at hleast
      rw [List.getElem?_zipIdx, Option.map_eq_some_iff] at hi
      obtain ⟨_, hcount, hpair⟩ := hi
      obtain ⟨rfl, rfl⟩ := Prod.mk.inj hpair
      rw [Nat.zero_add]
      exact .ask fun _ => .pure ⟨.chosen hleast hcount, rfl⟩

end Window
end LiveShader
