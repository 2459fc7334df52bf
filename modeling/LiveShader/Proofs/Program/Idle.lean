import LiveShader.Proofs.Program.Outcomes
/-!
# Proofs.Program.Idle — when a program that is deleted is current

A driver keeps a program that is deleted while it is current, with its stages.  A slot that is emptied first makes no
program current (`Slot.tearing`); a swap that fails does not, so it deletes a current program just if the program it
gives up was made current last (`deletes_idle_iff`).
-/
namespace LiveShader
namespace Machine

/-- Whether an entry neither deletes a program nor says which is current. -/
def Entry.sparesPrograms : Entry → Bool
  | .call ⟨.pipeline (.useProgram _), _⟩ => false
  | .call ⟨.pipeline (.deleteProgram _), _⟩ => false
  | _ => true

namespace Ledger

/-- A program that is deleted is not the one that was made current last. -/
def DeletesIdle (L : Ledger) (e : Entry) : Prop := ∀ p, e.deletes? = some (.program p) → L.current ≠ some p

instance DeletesIdle.decidable (L : Ledger) (e : Entry) : Decidable (DeletesIdle L e) :=
  decidable_of_iff (∀ p ∈ L.current, e.deletes? ≠ some (.program p))
    ⟨fun h p hd hc => h p hc hd, fun h p hc hd => h p hd hc⟩

variable {L : Ledger} {e : Entry} {t : Trace}

/-- Only one request deletes a program. -/
theorem eq_said_of_deletes {p : ProgramId} (h : e.deletes? = some (.program p)) : e = said (.deleteProgram p) () := by
  match e with
  | .event _ => cases h
  | .call ⟨.draw _, _⟩ => cases h
  | .call ⟨.screen _, _⟩ => cases h
  | .call ⟨.pipeline r, _⟩ =>
    cases r with
    | deleteProgram _ =>
      cases h
      rfl
    | _ => cases h

theorem deletesIdle_of_spares (h : e.sparesPrograms = true) : DeletesIdle L e := by
  intro p hdeletes
  obtain rfl := eq_said_of_deletes hdeletes
  cases h

theorem binds?_of_spares (h : e.sparesPrograms = true) : e.binds? = none := by
  unfold Entry.sparesPrograms at h
  unfold Entry.binds?
  split at h
  · cases h
  · cases h
  · next hbind _ =>
    split
    · exact absurd rfl (hbind _ _)
    · rfl

theorem idle_of_spares (h : t.all Entry.sparesPrograms = true) :
    Along DeletesIdle L t ∧ (L.after t).current = L.current := by
  induction t generalizing L with
  | nil => exact ⟨trivial, rfl⟩
  | cons e t ih =>
    rw [List.all_cons, Bool.and_eq_true] at h
    obtain ⟨hidle, hcurrent⟩ := ih (L := L.enter e) h.2
    have hkept : (L.enter e).current = L.current := by
      rw [current_enter, binds?_of_spares h.1]
      rfl
    exact ⟨⟨deletesIdle_of_spares h.1, hidle⟩, hcurrent.trans hkept⟩

theorem deletesIdle_of_none (hL : L.current = none) : DeletesIdle L e := by
  intro p _ hc
  rw [hL] at hc
  cases hc

/-- As long as no program is current, building and releasing delete idle programs only. -/
theorem idle_of_building (h : t.all Program.isBuildingCall = true) (hL : L.current = none) :
    Along DeletesIdle L t ∧ (L.after t).current = none := by
  induction t generalizing L with
  | nil => exact ⟨trivial, hL⟩
  | cons e t ih =>
    rw [List.all_cons, Bool.and_eq_true] at h
    have hnext : (L.enter e).current = none := by rw [current_enter, hL, Program.binds?_of_building h.1]
    obtain ⟨hidle, hcurrent⟩ := ih h.2 hnext
    exact ⟨⟨deletesIdle_of_none hL, hidle⟩, hcurrent⟩

end Ledger
end Machine

namespace Program

open Machine Source
open Ledger (Along DeletesIdle along_append idle_of_spares idle_of_building)

variable {σ : Type} {L : Ledger} {t : Trace}

theorem Compiles.spares {stage : Stage} {source : String} {r : Except BuildError ShaderId}
    (h : Compiles stage source r t) : t.all Entry.sparesPrograms = true := by
  cases h <;> rfl

theorem FromSource.spares {recipe : Recipe} {files : Files.Tree} {name : String} {r : Except BuildError ShaderId}
    (h : FromSource recipe files name (Compiles .fragment) r t) : t.all Entry.sparesPrograms = true := by
  cases h with
  | unread _ => rfl
  | read _ hc => exact hc.spares

/-- **Releasing a program deletes an idle one just if it was not made current last.** -/
theorem releasing_idle_iff (l : Linked) : L.Along DeletesIdle (releasing l) ↔ L.current ≠ some l.program := by
  have hstages : ∀ M : Ledger, M.Along DeletesIdle [said (.deleteShader l.vertex) (), said (.deleteShader l.fragment) ()] :=
    fun M => (idle_of_spares (by rfl)).1
  unfold releasing
  rw [Ledger.along_cons]
  constructor
  · rintro ⟨hidle, -⟩
    exact hidle l.program rfl
  · intro hne
    refine ⟨fun p hp => ?_, hstages _⟩
    cases hp
    exact hne

namespace Slot

variable {s : Slot} {files : Files.Tree} {name : String} {r : Except BuildError Unit × Slot} {op : Operation}

/-- **What a slot keeps of what is current**: no other program than its own, and without a name it has none. -/
structure Holds (s : Slot) (L : Ledger) : Prop where
  current : ∀ p, L.current = some p → ∃ l, s.active = some l ∧ l.program = p
  unnamed : s.shaderName = none → s.isLoaded = false

theorem Holds.of_none (hL : L.current = none) (hn : s.shaderName = none → s.isLoaded = false) : s.Holds L := by
  refine ⟨fun p hp => ?_, hn⟩
  rw [hL] at hp
  cases hp

theorem Holds.current_of_empty (h : s.Holds L) (hs : s.active = none) : L.current = none := by
  cases hc : L.current with
  | none => rfl
  | some p =>
    obtain ⟨l, hl, -⟩ := h.current p hc
    rw [hs] at hl
    cases hl

/-- **Emptying a slot leaves no program current** before it deletes one; building goes on from there. -/
theorem Holds.tearing_idle (h : s.Holds L) (hbuilding : t.all isBuildingCall = true) :
    L.Along DeletesIdle (s.tearing ++ t) ∧ (L.after (s.tearing ++ t)).current = none := by
  unfold tearing
  cases hs : s.active with
  | none => exact idle_of_building hbuilding (h.current_of_empty hs)
  | some l =>
    have hrest : (releasing l ++ t).all isBuildingCall = true := by
      rw [List.all_append, hbuilding]
      rfl
    have hunbound : (L.enter (said (.useProgram none) ())).current = none := rfl
    obtain ⟨hidle, hcurrent⟩ := idle_of_building hrest hunbound
    exact ⟨⟨fun p hp => (by cases hp), hidle⟩, hcurrent⟩

theorem Loads.idle (h : Loads s files name r t) (hs : s.Holds L) :
    L.Along DeletesIdle t ∧ (L.after t).current = none := by
  cases h with
  | failed hb => exact hs.tearing_idle (hb.all_building Builds.all_building)
  | loaded hb => exact hs.tearing_idle (hb.all_building Builds.all_building)

/-- **A swap that fails while the program it gives up is current.** -/
structure Forfeits (s : Slot) (op : Operation) (result : Except BuildError Unit) (L : Ledger) : Prop where
  swaps : op = .hotSwap
  fails : ∃ e, result = .error e
  current : ∃ l, s.active = some l ∧ L.current = some l.program

theorem current_after_releasing (L : Ledger) (l : Linked) : (L.after (releasing l)).current = L.current := rfl

/-- An exchange deletes the program just if it fails, and changes nothing about what is current. -/
theorem Exchanges.idle {l : Linked} {f : ShaderId} {r : Except BuildError Linked} (h : Exchanges l f r t) :
    (L.Along DeletesIdle t ↔ ((∃ e, r = .error e) → L.current ≠ some l.program)) ∧ (L.after t).current = L.current ∧
      ∀ l', r = .ok l' → l'.program = l.program := by
  cases h with
  | linked =>
    obtain ⟨hidle, hcurrent⟩ := idle_of_spares (L := L) (t := [said (.detachShader l.program l.fragment) (),
      said (.deleteShader l.fragment) (), said (.attachShader l.program f) (), said (.linkProgram l.program) true]) rfl
    refine ⟨⟨fun _ h => ?_, fun _ => hidle⟩, hcurrent, fun l' hl' => ?_⟩
    · obtain ⟨e, he⟩ := h
      cases he
    · cases hl'
      rfl
  | rejected log =>
    obtain ⟨hidle, hcurrent⟩ := idle_of_spares (L := L) (t := [said (.detachShader l.program l.fragment) (),
      said (.deleteShader l.fragment) (), said (.attachShader l.program f) (), said (.linkProgram l.program) false,
      said (.programLog l.program) log]) rfl
    refine ⟨?_, ?_, fun l' hl' => by cases hl'⟩
    · rw [along_append, releasing_idle_iff, hcurrent]
      exact ⟨fun h _ => h.2, fun h => ⟨hidle, h ⟨_, rfl⟩⟩⟩
    · rw [Ledger.after_append, current_after_releasing, hcurrent]

theorem Swaps.idle {l : Linked} (h : Swaps s files name l r t) :
    (L.Along DeletesIdle t ↔ ((∃ e, r.1 = .error e) → L.current ≠ some l.program)) ∧ (L.after t).current = L.current := by
  cases h with
  | unbuilt hb =>
    obtain ⟨hidle, hcurrent⟩ := idle_of_spares (L := L) hb.spares
    refine ⟨?_, ?_⟩
    · rw [along_append, releasing_idle_iff, hcurrent]
      exact ⟨fun h _ => h.2, fun h => ⟨hidle, h ⟨_, rfl⟩⟩⟩
    · rw [Ledger.after_append, current_after_releasing, hcurrent]
  | unlinked hb hx =>
    obtain ⟨hidle, hcurrent⟩ := idle_of_spares (L := L) hb.spares
    obtain ⟨hiff, hkept, -⟩ := Exchanges.idle (L := L.after _) hx
    refine ⟨?_, ?_⟩
    · rw [along_append, hiff, hcurrent]
      exact ⟨fun h _ => h.2 ⟨_, rfl⟩, fun h => ⟨hidle, fun _ => h ⟨_, rfl⟩⟩⟩
    · rw [Ledger.after_append, hkept, hcurrent]
  | swapped hb hx =>
    obtain ⟨hidle, hcurrent⟩ := idle_of_spares (L := L) hb.spares
    obtain ⟨hiff, hkept, -⟩ := Exchanges.idle (L := L.after _) hx
    refine ⟨?_, ?_⟩
    · rw [along_append, hiff]
      exact ⟨fun _ ⟨_, he⟩ => (by cases he), fun _ => ⟨hidle, fun ⟨_, he⟩ => (by cases he)⟩⟩
    · rw [Ledger.after_append, hkept, hcurrent]

/-- A swap that deletes no current program leaves the slot with what is current. -/
theorem Swaps.holds {l : Linked} (h : Swaps s files name l r t) (hs : s.Holds L) (hl : s.active = some l)
    (hidle : L.Along DeletesIdle t) : ∀ p, (L.after t).current = some p → ∃ l', r.2.active = some l' ∧ l'.program = p := by
  obtain ⟨hiff, hcurrent⟩ := Swaps.idle (L := L) h
  have hkept := hiff.1 hidle
  intro p hp
  rw [hcurrent] at hp
  obtain ⟨l', hl', rfl⟩ := hs.current p hp
  rw [hl] at hl'
  obtain rfl := Option.some.inj hl'
  cases h with
  | unbuilt _ | unlinked _ _ => exact absurd hp (hkept ⟨_, rfl⟩)
  | swapped hb hx => exact ⟨_, rfl, (Exchanges.idle (L := L) hx).2.2 _ rfl⟩

/-- **One operation**: it deletes a current program just if it forfeits one, and otherwise the slot keeps what is
current. -/
theorem Performs.idle (h : Performs s files op r t) (hs : s.Holds L) :
    (L.Along DeletesIdle t ↔ ¬ Forfeits s op r.1 L) ∧ (L.Along DeletesIdle t → r.2.Holds (L.after t)) := by
  have hturns := h.turns hs.unnamed
  have hother : op ≠ .hotSwap → L.Along DeletesIdle t → (L.Along DeletesIdle t ↔ ¬ Forfeits s op r.1 L) :=
    fun hop hidle => ⟨fun _ hf => hop hf.swaps, fun _ => hidle⟩
  have hload : ∀ {name}, Loads s files name r t → (op = .hotSwap → s.active = none) →
      (L.Along DeletesIdle t ↔ ¬ Forfeits s op r.1 L) ∧ (L.Along DeletesIdle t → r.2.Holds (L.after t)) := by
    intro name hl hempty
    obtain ⟨hidle, hcurrent⟩ := hl.idle hs
    refine ⟨⟨fun _ hf => ?_, fun _ => hidle⟩, fun _ => .of_none hcurrent hturns.unnamed⟩
    obtain ⟨l, hl, -⟩ := hf.current
    rw [hempty hf.swaps] at hl
    cases hl
  cases h with
  | load hl => exact hload hl fun hop => by cases hop
  | reload _ hl => exact hload hl fun hop => by cases hop
  | swapEmpty _ hempty hl => exact hload hl fun _ => hempty
  | reloadUnnamed _ => exact ⟨hother nofun trivial, fun _ => hs⟩
  | swapUnnamed hn =>
    refine ⟨⟨fun _ hf => ?_, fun _ => trivial⟩, fun _ => hs⟩
    obtain ⟨l, hl, -⟩ := hf.current
    have hloaded := isLoaded_of_active hl
    rw [hs.unnamed hn] at hloaded
    cases hloaded
  | swap hn hl hx =>
    refine ⟨?_, fun hidle => ⟨hx.holds hs hl hidle, hturns.unnamed⟩⟩
    rw [(Swaps.idle (L := L) hx).1]
    constructor
    · intro h hf
      obtain ⟨l', hl', hcurrent⟩ := hf.current
      rw [hl] at hl'
      obtain rfl := Option.some.inj hl'
      exact h hf.fails hcurrent
    · exact fun h hfails hcurrent => h ⟨rfl, hfails, _, hl, hcurrent⟩
  | teardown =>
    have htearing := hs.tearing_idle (t := []) rfl
    rw [List.append_nil] at htearing
    exact ⟨hother nofun htearing.1, fun _ => .of_none htearing.2 hturns.unnamed⟩
  | bindEmpty _ => exact ⟨hother nofun trivial, fun _ => hs⟩
  | bind hl => exact ⟨hother nofun ⟨nofun, trivial⟩, fun _ => ⟨fun p hp => ⟨_, hl, Option.some.inj hp⟩, hs.unnamed⟩⟩
  | unbind => exact ⟨hother nofun ⟨nofun, trivial⟩, fun _ => .of_none rfl hs.unnamed⟩

/-! ## Whole histories -/

/-- An operation of a history: with the slot that it finds, what happened before it, and its result. -/
structure Attempt where
  slot : Slot
  past : Trace
  op : Operation
  result : Except BuildError Unit

/-- The operations of a history, in order. -/
def attemptsFrom (host : Host σ) : Slot → World σ → List (Interlude σ × Operation) → List Attempt
  | _, _, [] => []
  | s, world, (change, op) :: steps =>
    let changed := ((interlude change).on host world).2
    let done := (s.perform op).on host changed
    ⟨s, changed.trace, op, done.1.1⟩ :: attemptsFrom host done.1.2 done.2 steps

/-- An operation that forfeits a current program. -/
abbrev Attempt.forfeits (a : Attempt) : Prop := Forfeits a.slot a.op a.result (ledger a.past)

/-- **However a slot is used, it deletes idle programs only**, but for the swaps that forfeit a current one. -/
theorem performAll_idle (host : Host σ) : ∀ (steps : List (Interlude σ × Operation)) (s : Slot) (world : World σ),
    s.Holds (ledger world.trace) → Along DeletesIdle {} world.trace →
      let run := (s.performAll steps).on host world
      (Along DeletesIdle {} run.2.trace ↔ ∀ a ∈ attemptsFrom host s world steps, ¬ a.forfeits) ∧
        (Along DeletesIdle {} run.2.trace → run.1.Holds (ledger run.2.trace))
  | [], s, world, hs, hidle => ⟨⟨fun _ a ha => (by cases ha), fun _ => hidle⟩, fun _ => hs⟩
  | (change, op) :: steps, s, world, hs, hidle => by
    intro run
    let changed := ((interlude change).on host world).2
    let done := (s.perform op).on host changed
    have hpast : changed.trace = world.trace := trace_interlude change host world
    obtain ⟨t, ht, hp⟩ := perform_follows s changed.files op host changed rfl
    obtain ⟨u, hu, -⟩ := performAll_follows steps done.1.2 done.2.files host done.2 rfl
    have hrun : run.2.trace = done.2.trace ++ u := hu
    rw [← hpast] at hs hidle
    obtain ⟨hiff, hholds⟩ := hp.idle hs
    have hsofar : Along DeletesIdle {} done.2.trace ↔ (ledger changed.trace).Along DeletesIdle t := by
      rw [ht, along_append]
      exact and_iff_right hidle
    have hattempts : (∀ a ∈ attemptsFrom host s world ((change, op) :: steps), ¬ a.forfeits) ↔
        ¬ Forfeits s op done.1.1 (ledger changed.trace) ∧
          ∀ a ∈ attemptsFrom host done.1.2 done.2 steps, ¬ a.forfeits := List.forall_mem_cons
    rw [hattempts, ← hiff, ← hsofar]
    by_cases hnow : Along DeletesIdle {} done.2.trace
    · have hheld : done.1.2.Holds (ledger done.2.trace) := by
        rw [ledger, ht, Ledger.after_append]
        exact hholds (hsofar.1 hnow)
      rw [and_iff_right hnow]
      exact performAll_idle host steps done.1.2 done.2 hheld hnow
    · -- a current program has been deleted, whatever comes later
      have hlater : ¬ Along DeletesIdle {} run.2.trace := by
        rw [hrun, along_append]
        exact fun h => hnow h.1
      exact ⟨⟨fun h => absurd h hlater, fun h => absurd h.1 hnow⟩, fun h => absurd h hlater⟩

/-- **A slot deletes a current program just where a swap fails while its program is current.**  Whatever a new slot is
used for, up to its end: every program is deleted when it is not the one that was made current last, unless some swap of
a loaded slot failed, for whatever reason, with the program in the slot made current last. -/
theorem deletes_idle_iff (recipe : Recipe) (host : Host σ) (state : σ) (files : Files.Tree)
    (steps : List (Interlude σ × Operation)) :
    let world : World σ := { host := state, files }
    let run := (performAll { recipe } steps).on host world
    let ended := (run.1.teardown.on host run.2).2.trace
    Along DeletesIdle {} ended ↔ ∀ a ∈ attemptsFrom host { recipe } world steps, ¬ a.forfeits := by
  intro world run ended
  have hnew : ({ recipe } : Slot).Holds (ledger world.trace) := .of_none rfl fun _ => rfl
  obtain ⟨hiff, hholds⟩ := performAll_idle host steps { recipe } world hnew trivial
  obtain ⟨u, hu, ⟨-, rfl⟩, -⟩ := teardown_calls run.1 run.2.files host run.2 rfl
  have hended : ended = run.2.trace ++ run.1.tearing := hu
  rw [hended, along_append, hiff]
  refine and_iff_left_of_imp fun hnone => ?_
  have htearing := (hholds (hiff.2 hnone)).tearing_idle (t := []) rfl
  rw [List.append_nil] at htearing
  exact htearing.1

/-- A shader is loaded and made current, and is swapped for one that does not compile. -/
def givingUp : List (Interlude Simulator.State × Operation) :=
  [({}, .load "a"), ({}, .bind), ({ host := (·.arm .compileFragment 1) }, .hotSwap)]

@[irreducible] def givenUp : Slot × World Simulator.State :=
  (performAll { recipe := blankRecipe } givingUp).on Simulator.host { host := {}, files := blankShader }

/-- **A current program is deleted**: the swap that fails gives it up as it is. -/
theorem deletes_current_givenUp :
    ∃ pre p post, givenUp.2.trace = pre ++ said (.deleteProgram p) () :: post ∧ (ledger pre).current = some p := by
  have hnot : ¬ Along DeletesIdle {} givenUp.2.trace := by decide +kernel
  rw [Ledger.along_iff] at hnot
  by_contra hnone
  refine hnot fun pre e post hsplit p hdeletes hcurrent => hnone ?_
  obtain rfl := Ledger.eq_said_of_deletes hdeletes
  exact ⟨pre, p, post, hsplit, hcurrent⟩

end Slot
end Program
end LiveShader
