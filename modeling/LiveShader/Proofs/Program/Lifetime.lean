import LiveShader.Proofs.Program.Ownership
import LiveShader.Simulator.Answer
/-!
# Proofs.Program.Lifetime — a slot from its making to its end

A new slot is used in any way and then emptied for good.  The files and the driver's state may change between any two
operations; all that the driver owes is that it hands out no handle that is live.
-/
namespace LiveShader
namespace Program
namespace Slot

open Machine Source
open Ledger (Along Fresh Permits Leads deletions along_append along_iff)

variable {σ : Type}

def performAll (s : Slot) : List (Interlude σ × Operation) → Run σ Slot
  | [] => return s
  | (change, op) :: steps => do
    interlude change
    let (_, s) ← s.perform op
    performAll s steps

/-- **However a slot is used, it keeps to the discipline and owns what lives after it.** -/
theorem performAll_follows : ∀ (steps : List (Interlude σ × Operation)) (s : Slot) (files : Files.Tree),
    (s.performAll steps).Follows files fun s' t _ =>
      ∀ L : Ledger, s.Owns L → L.Along Fresh t → ∃ M, Leads L t M ∧ s'.Owns M
  | [], s, files => .pure fun L hs _ => ⟨L, .nil L, hs⟩
  | (change, op) :: steps, s, files => by
    refine .interlude (.bind (perform_follows s _ op) fun r t f hp => ?_)
    refine (performAll_follows steps r.2 f).mono fun s' u _ hrest L hs hf => ?_
    rw [along_append] at hf
    obtain ⟨M, hL, hM⟩ := hp.owns hs hf.1
    obtain ⟨N, hN, hs'⟩ := hrest M hM (hL.after_eq ▸ hf.2)
    exact ⟨N, hL.append hN, hs'⟩

theorem tearing_fresh (s : Slot) (L : Ledger) : L.Along Fresh s.tearing := by
  unfold tearing
  cases s.active with
  | none => trivial
  | some l => exact ⟨fun _ h => (by cases h), fun _ h => (by cases h), fun _ h => (by cases h),
      fun _ h => (by cases h), trivial⟩

theorem perform_active_of_error {s : Slot} {L : Ledger} (hs : s.Owns L) (op : Operation) (host : Host σ)
    (world : World σ) {e : BuildError} (he : ((s.perform op).on host world).1.1 = .error e) :
    ((s.perform op).on host world).1.2.active = none := by
  obtain ⟨t, -, ht⟩ := perform_follows s world.files op host world rfl
  rw [← Prod.eta ((s.perform op).on host world).1, he] at ht
  refine ht.active_of_error fun hn => ?_
  cases hl : s.active with
  | none => rfl
  | some l =>
    have hnamed := hs.named (isLoaded_of_active hl)
    rw [hn] at hnamed
    cases hnamed

/-- **A slot accounts for every object it makes.**  Whatever was done with a new slot, it owns what lives; an operation
that fails leaves it empty; and when it is emptied for good, every call kept to the discipline, nothing is left, and
every object that was made has been deleted exactly once. -/
theorem lifetime_accounted (recipe : Recipe) (host : Host σ) (state : σ) (files : Files.Tree)
    (steps : List (Interlude σ × Operation)) {s : Slot} {world : World σ}
    (hrun : (performAll { recipe } steps).on host { host := state, files } = (s, world))
    (hfresh : Along Fresh {} world.trace) :
    let ended := (s.teardown.on host world).2.trace
    s.Owns (ledger world.trace) ∧
    (∀ op (host : Host σ) world e, ((s.perform op).on host world).1.1 = .error e →
      ((s.perform op).on host world).1.2.active = none) ∧
    Along Permits {} ended ∧ (ledger ended).live = [] ∧
    ∀ pre e post h, ended = pre ++ e :: post → e.creates? = some h → deletions h post = 1 := by
  intro ended
  obtain ⟨t, ht, hfollows⟩ := performAll_follows steps { recipe } files host { host := state, files } rfl
  rw [hrun] at ht hfollows
  have ht : world.trace = t := ht
  subst ht
  obtain ⟨M, hM, hs⟩ := hfollows {} (owns_empty recipe) hfresh
  obtain ⟨u, hended, ⟨-, rfl⟩, -⟩ := teardown_calls s world.files host world rfl
  have hended : ended = world.trace ++ s.tearing := hended
  obtain ⟨current, hempty⟩ := tearing_leads hs
  have hleads := hM.append hempty
  have hfresh' := (along_append _ _ _).2 ⟨hfresh, tearing_fresh s _⟩
  rw [← hended] at hleads hfresh'
  have hlive : (ledger ended).live = [] := by
    rw [ledger, hleads.after_eq]
    rfl
  refine ⟨?_, fun op host world e he => perform_active_of_error hs op host world he, hleads.along, hlive, ?_⟩
  · rw [ledger, hM.after_eq]
    exact hs
  · intro pre e post h hsplit hc
    exact Ledger.deletions_of_created hfresh' hleads.along hlive hsplit hc

/-- A directory with one shader, which is blank. -/
def blankShader : Files.Tree := ⟨.dir [("a.frag", .file ByteArray.empty)], []⟩

def blankRecipe : Recipe := { store := { root := "." }, version := ⟨3, 3⟩ }

/-- A shader is loaded and swapped; the next link fails, and the swap after that finds an empty slot. -/
def swaps : List (Interlude Simulator.State × Operation) :=
  [({}, .load "a"), ({}, .hotSwap), ({ host := (·.arm .link 1) }, .hotSwap), ({}, .hotSwap)]

/-- The slot after this, and the world. -/
@[irreducible] def swapped : Slot × World Simulator.State :=
  (performAll { recipe := blankRecipe } swaps).on Simulator.host { host := {}, files := blankShader }

theorem lifetime_accounted_swapped :
    let ended := (swapped.1.teardown.on Simulator.host swapped.2).2.trace
    (swapped.1.isLoaded = true ∧ Along Fresh {} swapped.2.trace) ∧
    swapped.1.Owns (ledger swapped.2.trace) ∧
    (∀ op (host : Host Simulator.State) world e, ((swapped.1.perform op).on host world).1.1 = .error e →
      ((swapped.1.perform op).on host world).1.2.active = none) ∧
    Along Permits {} ended ∧ (ledger ended).live = [] ∧
    ∀ pre e post h, ended = pre ++ e :: post → e.creates? = some h → deletions h post = 1 := by
  have hrun : (performAll { recipe := blankRecipe } swaps).on Simulator.host { host := {}, files := blankShader } =
      (swapped.1, swapped.2) := by
    rw [Prod.eta, swapped]
  have hfresh : Along Fresh {} swapped.2.trace := by decide +kernel
  exact ⟨⟨by decide +kernel, hfresh⟩, lifetime_accounted blankRecipe Simulator.host {} blankShader swaps hrun hfresh⟩

end Slot
end Program
end LiveShader
