import LiveShader.Proofs.Window.Sizing
/-!
# Proofs.Window.History — what shaders see of keys and buttons is a count of the events since the last reset

Whatever a viewer does, its controls change by the events that were delivered and by nothing else, so they are the
count of those events (`redraw_recounts`), and the next frame shows them.
-/
namespace LiveShader
namespace Window

open Machine
open Controls (Ignores ignores_of_calls isCall heard recount)

variable {σ : Type}

namespace Viewer

variable {v w : Viewer} {t : Trace}

theorem isCall_of_object : ∀ {e : Entry}, Program.isObjectCall e = true → isCall e = true
  | .call _, _ => rfl

theorem Quad.Makes.ignored {size : Size} {quad : Option Quad} (h : Quad.Makes size quad t) : Ignores t :=
  ignores_of_calls (by cases h <;> rfl)

theorem dropping_ignored (v : Viewer) : Ignores v.dropping := by
  unfold dropping
  cases v.quad <;> exact fun _ => rfl

theorem painting_ignored (v : Viewer) : Ignores v.painting := by
  obtain hblank | ⟨quad, l, -, -, hpainting⟩ := painting_cases v
  · rw [hblank]
    exact fun _ => rfl
  · rw [hpainting]
    refine ignores_of_calls (List.all_eq_true.2 fun e he => ?_)
    simp only [List.mem_cons, List.mem_append, Uniform.Table.mem_uploads, Quad.painting, List.not_mem_nil, or_false] at he
    rcases he with rfl | ⟨u, -, n, -, rfl⟩ | (rfl | rfl | rfl) | rfl <;> rfl

theorem Resizes.controls {size : Size} (h : Resizes v size w t) : w.input.controls = v.input.controls ∧ Ignores t := by
  cases h with
  | ignored _ => exact ⟨rfl, fun _ => rfl⟩
  | @taken quad t _ hmade =>
    have hdone : Ignores (v.dropping ++ t) := (dropping_ignored v).append (Quad.Makes.ignored hmade)
    exact ⟨rfl, fun c => hdone c⟩

theorem Renders.controls (h : Renders v w t) : w.input.controls = v.input.controls ∧ Ignores t := by
  cases h with
  | @rendered now table q swapped codes hs =>
    have hqueries : Ignores q := by
      refine ignores_of_calls (List.all_eq_true.2 fun e he => ?_)
      obtain ⟨p, name, answer, rfl⟩ := hs.queries e he
      rfl
    have hpainted : Ignores (drew .clear () :: ((v.rendered now table).painting ++
        [showed .swapBuffers swapped, drew .drainErrors codes])) :=
      fun c => ((painting_ignored _).append fun _ => rfl) c
    exact ⟨rfl, fun c => (hqueries.append hpainted) c⟩

/-- **A step changes the controls by the events in it and by nothing else.** -/
theorem Step.controls (h : Step v w t) : w.input.controls = v.input.controls.after t := by
  cases h with
  | still _ _ _ _ hc => exact hc
  | operated _ hperformed =>
    have hcalls : Ignores t := by
      refine ignores_of_calls (List.all_eq_true.2 fun e he => ?_)
      exact isCall_of_object (List.all_eq_true.1 hperformed.all_objects e he)
    exact (hcalls _).symm
  | @resized size w offer t hoffer hr =>
    obtain ⟨hkept, hcalls⟩ := hr.controls
    have hoffered : Ignores offer := by cases hoffer <;> exact fun _ => rfl
    rw [hkept]
    exact (hoffered.append hcalls _).symm
  | rendered hr =>
    obtain ⟨hkept, hcalls⟩ := hr.controls
    rw [hkept]
    exact (hcalls _).symm

theorem Steps.controls (h : Steps v w t) : w.input.controls = v.input.controls.after t := by
  induction h with
  | nil v => rfl
  | cons h _ ih => rw [ih, h.controls, Controls.after_append]

theorem session_recounts (o : Options) (order : Uniform.Order) (turns : List (Turn σ)) (happenings : List (Happening σ))
    (files : Files.Tree) :
    (session o order turns happenings).Follows files fun r t _ =>
      ∀ p, r = .ok p → p.1.input.controls = recount (Event.sinceReset (heard t)) := by
  refine (session_steps o order turns happenings files).mono fun r t _ h p hp => ?_
  obtain ⟨v, pre, s, rfl, -, hcalls, hopened, hsteps⟩ := h p hp
  have hstart : v.input.controls = {} := by rw [hopened.input, Controls.controls_initial]
  rw [← Controls.foldl_take_eq_recount, ← Controls.after_eq_foldl, Controls.after_append, hcalls, hsteps.controls, hstart]

theorem Renders.shown (h : Renders v w t) (hshaped : v.uniforms.Shaped) : v.input.controls.Shown w.uniforms := by
  cases h with
  | @rendered now table q swapped codes hs =>
    obtain ⟨-, hset, -⟩ := hs.values hshaped (frameValues_assigns _ _)
    have hinput : (v.rendered now table).input.Shown table := (shown_of_frameValues hset).1
    have hkept : (v.rendered now table).input.controls = v.input.controls := rfl
    rw [← hkept]
    exact Controls.shown_of_input hinput

theorem handleEvent_stray (v : Viewer) : ∀ {e : Event}, e.isStray = true →
    (v.handleEvent e : Run σ (Viewer × Bool)) = pure (v, false)
  | .foreign _, _ => rfl
  | .window (.mouseButton none _), _ => rfl
  | .window (.keyboard none _ _), _ => rfl
  | .window (.keyboard (some (.unbound _)) _ _), _ => rfl

/-- **What shaders see of keys and buttons is a count of events.**  Whatever a session did, flags, mode, counter, arrows
and buttons are what the events since the last reset add up to, and the next frame puts them in the table; an event of
another window, of a key without an action or of an unseen button makes no call and changes nothing. -/
theorem redraw_recounts (o : Options) (order : Uniform.Order) (turns : List (Turn σ)) (happenings : List (Happening σ))
    (host : Host σ) (state : σ) (files : Files.Tree) {v : Viewer} {left : Bool} {world : World σ}
    (hrun : (session o order turns happenings).on host { host := state, files } = (.ok (v, left), world)) :
    let counted := recount (Event.sinceReset (heard world.trace))
    v.input.controls = counted ∧ counted.Shown (v.redraw.on host world).1.1.uniforms ∧
    ∀ (w : Viewer) (e : Event) (now : World σ), e.isStray = true → (w.handleEvent e).on host now = ((w, false), now) := by
  intro counted
  obtain ⟨past, hpast, hsized⟩ := session_sized o order turns happenings files host { host := state, files } rfl
  obtain ⟨past', hpast', hcounts⟩ := session_recounts o order turns happenings files host { host := state, files } rfl
  rw [hrun] at hpast hsized hpast' hcounts
  have hpast : world.trace = past := hpast
  have hpast' : world.trace = past' := hpast'
  subst hpast
  subst hpast'
  obtain ⟨t, -, ⟨-, u, -, hrenders⟩, -⟩ := v.redraw_calls world.files host world rfl
  have hcontrols : v.input.controls = counted := hcounts _ rfl
  refine ⟨hcontrols, ?_, fun w e now hstray => ?_⟩
  · rw [← hcontrols]
    exact hrenders.shown (hsized _ rfl).shaped
  · rw [handleEvent_stray w hstray]
    rfl

def key (k : Key) (pressed held : Bool) : Happening Simulator.State := .event (.window (.keyboard (some k) pressed held))

/-- A run in which a flag, the mode and the counter are moved behind a reset. -/
def moved : List (Happening Simulator.State) :=
  [key (.digit 5) true false, key .f9 true false, key (.digit 3) true false, key .letterM true false,
    key .bracketRight true false, .event (.window .closeRequested)]

/-- Keys that are struck, held and let go, before and after a reload, and events that count for nothing. -/
def mingled : List (Happening Simulator.State) :=
  [.event (.window (.modifiersChanged true)), key (.digit 3) true true, key .f5 true false, key (.numpad 7) true false,
    .event (.window .redrawRequested), key .letterM true false, key .letterM true true, key .bracketRight true true,
    key .bracketLeft true false, key .bracketRight false false, key (.arrow .left) true false,
    .event (.window (.modifiersChanged false)), key (.arrow .left) false false, key (.arrow .up) true true,
    .event (.window (.mouseButton (some .right) true)), .event (.foreign (.keyboard (some .f9) true false)),
    .event (.window (.mouseButton none true)), key (.unbound "KeyA") true false]

/-- A session of two runs with a blank shader. -/
@[irreducible] def handled : Except OpenError (Viewer × Bool) × World Simulator.State :=
  (session { store := { root := "." } } .declared [.load "a", .run moved] mingled).on timeHost
    { host := {}, files := Program.Slot.blankShader }

theorem redraw_recounts_mingled : ∃ v, handled.1 = .ok (v, false) ∧
    let counted := recount (Event.sinceReset (heard handled.2.trace))
    ((counted.flags 3 = true ∧ counted.flags 5 = false ∧ counted.flags 7 = true) ∧ counted.mode = 2 ∧
      counted.increment = 1 ∧ (counted.arrows .left = false ∧ counted.arrows .up = true) ∧
      counted.buttons .right = true) ∧
    v.input.controls = counted ∧ counted.Shown (v.redraw.on timeHost handled.2).1.1.uniforms ∧
    ∀ (w : Viewer) (e : Event) (now : World Simulator.State), e.isStray = true →
      (w.handleEvent e).on timeHost now = ((w, false), now) := by
  have hrun : (session { store := { root := "." } } .declared [.load "a", .run moved] mingled).on timeHost
      { host := {}, files := Program.Slot.blankShader } = (handled.1, handled.2) := by
    rw [Prod.eta, handled]
  have hstate : handled.1.toOption.any (·.2 == false) = true := by decide +kernel
  cases hhandled : handled.1 with
  | error e =>
    rw [hhandled] at hstate
    cases hstate
  | ok p =>
    obtain ⟨v, left⟩ := p
    rw [hhandled] at hrun hstate
    simp only [Except.toOption, Option.any_some, beq_iff_eq] at hstate
    subst hstate
    exact ⟨v, rfl, by decide +kernel, redraw_recounts _ _ _ _ _ _ _ hrun⟩

end Viewer
end Window
end LiveShader
