import LiveShader.Machine.Request
import Mathlib.Data.List.Basic
/-!
# Proofs.Machine.Accounts — what a trace makes and frees

`Throughout` says that a condition holds of every entry of a trace, given all that happened before it; `Around` is the
same for conditions that ask about what comes next as well.  Where only what is live is freed, and only what is not live
is made, everything that is gone at the end was freed exactly once (`Accounts.deletions_of_made`), whatever the things
are.
-/
namespace LiveShader
namespace Machine

/-- A condition holds of every entry of a trace that comes after a past, with what was before it and what came next. -/
def Around (P : Trace → Entry → Trace → Prop) (past t : Trace) : Prop :=
  ∀ pre e post, t = pre ++ e :: post → P (past ++ pre) e post

namespace Around

variable {P : Trace → Entry → Trace → Prop} {past t u : Trace} {e : Entry}

theorem nil : Around P past [] :=
  fun pre _ _ h => by cases pre <;> cases h

theorem cons_iff : Around P past (e :: t) ↔ P past e t ∧ Around P (past ++ [e]) t := by
  constructor
  · intro h
    refine ⟨?_, fun pre x post ht => ?_⟩
    · have hfirst := h [] e t rfl
      rwa [List.append_nil] at hfirst
    · have hlater := h (e :: pre) x post (by rw [ht]; rfl)
      rwa [List.append_cons] at hlater
  · rintro ⟨he, ht⟩ pre x post h
    cases pre with
    | nil =>
      cases h
      rwa [List.append_nil]
    | cons y pre =>
      cases h
      rw [List.append_cons]
      exact ht pre x post rfl

theorem cons (he : P past e t) (ht : Around P (past ++ [e]) t) : Around P past (e :: t) := cons_iff.2 ⟨he, ht⟩

/-- Where more that comes next does no harm, traces can be put together. -/
theorem append (hP : ∀ past e post more, P past e post → P past e (post ++ more)) (ht : Around P past t)
    (hu : Around P (past ++ t) u) : Around P past (t ++ u) := by
  induction t generalizing past with
  | nil =>
    rw [List.append_nil] at hu
    exact hu
  | cons e t ih =>
    rw [cons_iff] at ht
    rw [List.append_cons past e t] at hu
    exact .cons (hP _ _ _ u ht.1) (ih ht.2 hu)

theorem of_all (h : ∀ e ∈ t, ∀ past post, P past e post) : Around P past t := by
  rintro pre e post rfl
  exact h e (List.mem_append_right _ List.mem_cons_self) _ _

end Around

/-- A condition holds of every entry of a trace that comes after a past. -/
def Throughout (P : Trace → Entry → Prop) (past t : Trace) : Prop :=
  ∀ pre e post, t = pre ++ e :: post → P (past ++ pre) e

namespace Throughout

variable {P : Trace → Entry → Prop} {past t u : Trace} {e : Entry}

theorem nil : Throughout P past [] := Around.nil (P := fun past e _ => P past e)

theorem cons_iff : Throughout P past (e :: t) ↔ P past e ∧ Throughout P (past ++ [e]) t :=
  Around.cons_iff (P := fun past e _ => P past e)

theorem append_iff : Throughout P past (t ++ u) ↔ Throughout P past t ∧ Throughout P (past ++ t) u := by
  induction t generalizing past with
  | nil =>
    rw [List.nil_append, List.append_nil]
    exact ⟨fun h => ⟨nil, h⟩, And.right⟩
  | cons e t ih =>
    rw [List.cons_append, cons_iff, cons_iff, ih, and_assoc, List.append_cons past e t]

theorem cons (he : P past e) (ht : Throughout P (past ++ [e]) t) : Throughout P past (e :: t) := cons_iff.2 ⟨he, ht⟩

theorem append (ht : Throughout P past t) (hu : Throughout P (past ++ t) u) : Throughout P past (t ++ u) :=
  append_iff.2 ⟨ht, hu⟩

theorem of_all (h : ∀ e ∈ t, ∀ past, P past e) : Throughout P past t :=
  Around.of_all fun e he past _ => h e he past

end Throughout

/-- Things that entries make and free, and which of them are live after a past. -/
structure Accounts (K : Type) where
  makes? : Entry → Option K
  frees? : Entry → Option K
  live : Trace → List K
  mem_live_concat : ∀ past e k, k ∈ live (past ++ [e]) ↔ makes? e = some k ∨ (k ∈ live past ∧ frees? e ≠ some k)

namespace Accounts

variable {K : Type} [DecidableEq K] (A : Accounts K)

/-- An entry frees nothing but what is live. -/
def FreesLive (past : Trace) (e : Entry) : Prop := ∀ k, A.frees? e = some k → k ∈ A.live past

/-- An entry makes nothing that is live. -/
def MakesNew (past : Trace) (e : Entry) : Prop := ∀ k, A.makes? e = some k → k ∉ A.live past

/-- How often a thing is freed before it is made again. -/
def deletions (k : K) (t : Trace) : Nat := (t.takeWhile (A.makes? · != some k)).countP (A.frees? · == some k)

variable {A} {k : K} {past t : Trace}

theorem deletions_cons {e : Entry} (hmakes : A.makes? e ≠ some k) :
    A.deletions k (e :: t) = A.deletions k t + if A.frees? e = some k then 1 else 0 := by
  unfold deletions
  rw [List.takeWhile_cons_of_pos (by simpa using hmakes), List.countP_cons]
  simp

theorem deletions_eq_zero (hlive : k ∉ A.live past) (hfrees : Throughout A.FreesLive past t) : A.deletions k t = 0 := by
  induction t generalizing past with
  | nil => rfl
  | cons e t ih =>
    rw [Throughout.cons_iff] at hfrees
    by_cases hmakes : A.makes? e = some k
    · unfold deletions
      rw [List.takeWhile_cons_of_neg (by simp [hmakes])]
      rfl
    · have hfree : A.frees? e ≠ some k := fun h => hlive (hfrees.1 k h)
      have hlive' : k ∉ A.live (past ++ [e]) := by
        rw [A.mem_live_concat]
        exact fun h => h.elim hmakes fun h => hlive h.1
      rw [deletions_cons hmakes, ih hlive' hfrees.2, if_neg hfree]

/-- **What is live and is gone at the end was freed exactly once.** -/
theorem deletions_eq_one (hlive : k ∈ A.live past) (hgone : k ∉ A.live (past ++ t))
    (hmakes : Throughout A.MakesNew past t) (hfrees : Throughout A.FreesLive past t) : A.deletions k t = 1 := by
  -- `k` stays live, so it is not made again, until the entry that frees it; after that it is not freed
  induction t generalizing past with
  | nil =>
    rw [List.append_nil] at hgone
    exact absurd hlive hgone
  | cons e t ih =>
    rw [Throughout.cons_iff] at hmakes hfrees
    rw [List.append_cons] at hgone
    have hmake : A.makes? e ≠ some k := fun h => hmakes.1 k h hlive
    rw [deletions_cons hmake]
    by_cases hfree : A.frees? e = some k
    · have hlive' : k ∉ A.live (past ++ [e]) := by
        rw [A.mem_live_concat]
        exact fun h => h.elim hmake fun h => h.2 hfree
      rw [deletions_eq_zero hlive' hfrees.2, if_pos hfree]
    · have hlive' : k ∈ A.live (past ++ [e]) := (A.mem_live_concat past e k).2 (Or.inr ⟨hlive, hfree⟩)
      rw [ih hlive' hgone hmakes.2 hfrees.2, if_neg hfree]

/-- **Where nothing is left at the end, all that was made was freed exactly once.** -/
theorem deletions_of_made (hmakes : Throughout A.MakesNew past t) (hfrees : Throughout A.FreesLive past t)
    (hend : A.live (past ++ t) = []) {pre post : Trace} {e : Entry} (hsplit : t = pre ++ e :: post)
    (hmade : A.makes? e = some k) : A.deletions k post = 1 := by
  subst hsplit
  rw [Throughout.append_iff, Throughout.cons_iff] at hmakes hfrees
  have hlive : k ∈ A.live (past ++ pre ++ [e]) := (A.mem_live_concat _ e k).2 (Or.inl hmade)
  refine deletions_eq_one hlive ?_ hmakes.2.2 hfrees.2.2
  rw [List.append_assoc, List.append_assoc, List.singleton_append, hend]
  exact List.not_mem_nil

end Accounts
end Machine
end LiveShader
