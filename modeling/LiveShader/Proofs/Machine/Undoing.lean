import LiveShader.Proofs.Machine.Ledger
import Mathlib.Data.List.Nodup
import Mathlib.Data.List.TakeWhile
/-!
# Proofs.Machine.Undoing — calls that come to nothing

`Unwinds` says of calls that they delete all they made, the latest first; `Restores` that they leave the ledger as it
was.  Both stay true when a stage is made before the calls and deleted after them (`Unwinds.within`,
`Restores.within`), so nested scopes are dealt with one at a time.  Calls that do both delete everything that they made
exactly once (`Restores.deletions_of_created`).
-/
namespace LiveShader
namespace Machine

/-- The handles that are handed out, in order. -/
def created (t : Trace) : List Handle := t.filterMap Entry.creates?

/-- The handles that are deleted, in order. -/
def deleted (t : Trace) : List Handle := t.filterMap Entry.deletes?

theorem created_append (t u : Trace) : created (t ++ u) = created t ++ created u := List.filterMap_append

theorem deleted_append (t u : Trace) : deleted (t ++ u) = deleted t ++ deleted u := List.filterMap_append

/-- Calls that make one object and delete none. -/
structure Makes (h : Handle) (t : Trace) : Prop where
  created_eq : created t = [h]
  deleted_eq : deleted t = []

/-- Calls that delete all they made, the latest first, and nothing else.  A program is the first to go. -/
structure Unwinds (t : Trace) : Prop where
  latest_first : deleted t = (created t).reverse
  program_first : ∀ p, .program p ∉ (deleted t).tail

theorem Unwinds.of_none {t : Trace} (hc : created t = []) (hd : deleted t = []) : Unwinds t :=
  ⟨by rw [hc, hd]; rfl, fun p => by rw [hd]; exact List.not_mem_nil⟩

theorem Unwinds.of_one {t : Trace} {h : Handle} (hc : created t = [h]) (hd : deleted t = [h]) : Unwinds t :=
  ⟨by rw [hc, hd]; rfl, fun p => by rw [hd]; exact List.not_mem_nil⟩

theorem created_within {s : ShaderId} {t : Trace} (ht : Makes (.shader s) t) (u : Trace) :
    created (t ++ (u ++ [said (.deleteShader s) ()])) = .shader s :: created u := by
  rw [created_append, created_append, ht.created_eq]
  exact congrArg _ (List.append_nil _)

theorem Unwinds.within {s : ShaderId} {t u : Trace} (ht : Makes (.shader s) t) (hu : Unwinds u) :
    Unwinds (t ++ (u ++ [said (.deleteShader s) ()])) := by
  have hdeleted : deleted (t ++ (u ++ [said (.deleteShader s) ()])) = deleted u ++ [.shader s] := by
    rw [deleted_append, deleted_append, ht.deleted_eq]
    rfl
  refine ⟨?_, fun p hp => ?_⟩
  · rw [hdeleted, created_within ht, hu.latest_first, List.reverse_cons]
  · rw [hdeleted] at hp
    have hfirst := hu.program_first p
    cases hdel : deleted u with
    | nil =>
      rw [hdel] at hp
      cases hp
    | cons h hs =>
      rw [hdel] at hp hfirst
      rcases List.mem_append.1 hp with hin | hlast
      · exact hfirst hin
      · cases List.mem_singleton.1 hlast

namespace Ledger

variable {L : Ledger} {t u : Trace}

/-- Calls after which every object is what it was, and whose own objects were new. -/
structure Restores (L : Ledger) (t : Trace) : Prop where
  after_eq : L.after t = L
  new : ∀ h ∈ created t, h ∉ L.live
  nodup : (created t).Nodup

theorem Restores.of_none (ha : L.after t = L) (hc : created t = []) : Restores L t :=
  ⟨ha, fun h hh => (by rw [hc] at hh; cases hh), by rw [hc]; exact List.nodup_nil⟩

theorem Restores.of_one {h : Handle} (ha : L.after t = L) (hc : created t = [h]) (hnew : h ∉ L.live) :
    Restores L t := by
  refine ⟨ha, fun k hk => ?_, by rw [hc]; exact List.nodup_singleton h⟩
  rw [hc] at hk
  rwa [List.mem_singleton.1 hk]

/-- **What is restored between the making of a stage and its deletion is restored in all.** -/
theorem Restores.within {x : ShaderRecord} (ht : Makes (.shader x.id) t) (hx : .shader x.id ∉ L.live)
    (hafter : L.after t = L.addShader x) (hu : Restores (L.addShader x) u) :
    Restores L (t ++ (u ++ [said (.deleteShader x.id) ()])) := by
  have hcreated := created_within ht u
  refine ⟨?_, fun h hh => ?_, ?_⟩
  · rw [after_append, after_append, hafter, hu.after_eq]
    exact dropShader_addShader hx
  · rw [hcreated] at hh
    rcases List.mem_cons.1 hh with rfl | hlater
    · exact hx
    · exact fun hlive => hu.new h hlater (mem_live_addShader.2 (.inr hlive))
  · rw [hcreated, List.nodup_cons]
    exact ⟨fun hagain => hu.new _ hagain (mem_live_addShader.2 (.inl rfl)), hu.nodup⟩

/-! ## Deleted once -/

theorem deletions_eq_count {h : Handle} (hnot : h ∉ created t) : deletions h t = (deleted t).count h := by
  have hall : t.takeWhile (·.creates? != some h) = t :=
    List.takeWhile_eq_self_iff.2 fun e he => by
      have hother : e.creates? ≠ some h := fun hc => hnot (List.mem_filterMap.2 ⟨e, he, hc⟩)
      simpa using hother
  unfold deletions deleted
  rw [hall, List.count_filterMap]

/-- What is live and not deleted stays live. -/
theorem mem_live_after {h : Handle} (hlive : h ∈ L.live) (hnot : h ∉ deleted t) : h ∈ (L.after t).live := by
  induction t generalizing L with
  | nil => exact hlive
  | cons e t ih =>
    have hkept : e.deletes? ≠ some h := fun hd => hnot (List.mem_filterMap.2 ⟨e, List.mem_cons_self, hd⟩)
    refine ih ((mem_live_enter L e h).2 (.inr ⟨hlive, hkept⟩)) fun hd => hnot ?_
    obtain ⟨e', he', hd'⟩ := List.mem_filterMap.1 hd
    exact List.mem_filterMap.2 ⟨e', List.mem_cons_of_mem e he', hd'⟩

/-- **What calls make on the way to where they started they delete exactly once.** -/
theorem Restores.deletions_of_created (h : Restores L t) (hu : Unwinds t) {pre post : Trace} {e : Entry} {k : Handle}
    (hsplit : t = pre ++ e :: post) (hc : e.creates? = some k) : deletions k post = 1 := by
  have hcreated : created t = created pre ++ k :: created post := by
    rw [hsplit, created_append]
    exact congrArg _ (List.filterMap_cons_some hc)
  have honce : (deleted t).count k = 1 := by
    rw [hu.latest_first, List.count_reverse]
    exact List.count_eq_one_of_mem h.nodup (by rw [hcreated]; exact List.mem_append_right _ List.mem_cons_self)
  have hnot : k ∉ created post := by
    have hnodup := h.nodup
    rw [hcreated, List.nodup_append, List.nodup_cons] at hnodup
    exact hnodup.2.1.1
  -- it is deleted after it was made, or it would be live at the end, where it was not live at the start
  have hlater : k ∈ deleted post := by
    by_contra hnone
    have hlive : k ∈ ((L.after pre).enter e).live := (mem_live_enter _ e k).2 (.inl hc)
    have hend := mem_live_after hlive hnone
    rw [← after_cons, ← after_append, ← hsplit, h.after_eq] at hend
    exact h.new k (by rw [hcreated]; exact List.mem_append_right _ List.mem_cons_self) hend
  rw [deletions_eq_count hnot]
  refine Nat.le_antisymm ?_ (List.count_pos_iff.2 hlater)
  have hsub : (deleted post).Sublist (deleted t) := by
    rw [hsplit]
    exact ((List.sublist_cons_self e post).trans (List.sublist_append_right pre _)).filterMap _
  exact Nat.le_trans (hsub.count_le k) (Nat.le_of_eq honce)

end Ledger
end Machine
end LiveShader
