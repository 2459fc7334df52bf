import LiveShader.Proofs.Program.Lifetime
import LiveShader.Proofs.Window.Handling
/-!
# Proofs.Window.Session — every frame of a session

A session opens a viewer and then loads, unloads and runs in any order, with any events while it runs and any change of
files and driver in between.  A viewer is sound when it is opened and every turn keeps it sound, so whenever a frame is
asked for it is one of a sound viewer.
-/
namespace LiveShader
namespace Window

open Machine
open Ledger (Along)
open LiveShader.Uniform (Reports)
open LiveShader.Uniform.Table (Assigns)

namespace Viewer

variable {σ : Type}

/-- Handles what happens; the second component tells whether the loop was left. -/
def during (v : Viewer) : List (Happening σ) → Run σ (Viewer × Bool)
  | [] => return (v, false)
  | .change change :: rest => do
    interlude change
    during v rest
  | .event event :: rest => do
    deliver event
    match ← v.handleEvent event with
    | (v, true) => return (v, true)
    | (v, false) => during v rest

theorem loop_append : ∀ (v : Viewer) (happenings rest : List (Happening σ)),
    v.loop (happenings ++ rest) = v.during happenings >>= fun r => if r.2 then pure r.1 else r.1.loop rest
  | v, [], rest => rfl
  | v, .change change :: happenings, rest => by
    simp only [List.cons_append, loop, during, bind_assoc, loop_append v happenings rest]
  | v, .event event :: happenings, rest => by
    simp only [List.cons_append, loop, during, bind_assoc]
    congr 1
    funext _
    congr 1
    funext r
    match r with
    | (w, true) => simp
    | (w, false) => exact loop_append w happenings rest

/-- What is done with an open viewer. -/
inductive Turn (σ : Type) where
  | load (name : String)
  | unload
  | run (happenings : List (Happening σ))
  | change (change : Interlude σ)

def take (v : Viewer) : Turn σ → Run σ Viewer
  | .load name => do return (← v.loadShader name).2
  | .unload => v.unload
  | .run happenings => do return (← v.run happenings).2
  | .change change => do
    interlude change
    return v

def takeAll (v : Viewer) : List (Turn σ) → Run σ Viewer
  | [] => return v
  | turn :: turns => do
    let v ← v.take turn
    takeAll v turns

/-- Shows an open viewer after some turns; the second component tells whether the loop was left or never entered. -/
def showing (v : Viewer) (turns : List (Turn σ)) (happenings : List (Happening σ)) : Run σ (Viewer × Bool) := do
  let v ← v.takeAll turns
  let v ← v.beginRun
  match ← screen .runLoop with
  | .error _ => return (v, true)
  | .ok () => v.during happenings

/-- **A session up to some moment**: a viewer is opened, takes its turns and is shown. -/
def session (o : Options) (order : Uniform.Order) (turns : List (Turn σ)) (happenings : List (Happening σ)) :
    Run σ (Except OpenError (Viewer × Bool)) := do
  match ← opened o order with
  | .error e => return .error e
  | .ok v => return .ok (← v.showing turns happenings)

def redraw (v : Viewer) : Run σ (Viewer × Bool) := do
  deliver (.window .redrawRequested)
  v.handleEvent (.window .redrawRequested)

/-! ## Sessions proceed in steps -/

theorem during_proceeds : ∀ (v : Viewer) (happenings : List (Happening σ)),
    Proceeds [] v Prod.fst (v.during happenings)
  | v, [] => .pure (.nil v)
  | v, .change change :: happenings => .interlude (during_proceeds v happenings)
  | v, .event event :: happenings => by
    refine .deliver (.bind (handleEvent_proceeds v event) fun r => ?_)
    match r with
    | (w, true) => exact .pure (.nil w)
    | (w, false) => exact during_proceeds w happenings

theorem loop_proceeds (v : Viewer) (happenings : List (Happening σ)) : Proceeds [] v id (v.loop happenings) := by
  rw [← List.append_nil happenings, loop_append]
  refine .bind (during_proceeds v happenings) fun r => ?_
  split
  · exact .pure (.nil _)
  · exact .pure (.nil _)

theorem run_proceeds (v : Viewer) (happenings : List (Happening σ)) : Proceeds [] v Prod.snd (v.run happenings) := by
  refine .bind (beginRun_proceeds v) fun w => .ask fun started => ?_
  have hstarted : Steps w w [showed .runLoop started] := Step.steps (.still rfl rfl rfl ⟨rfl, fun _ => rfl⟩ rfl)
  match started with
  | .error _ => exact .ask fun _ => .still rfl rfl rfl ⟨rfl, fun _ => rfl⟩ rfl
  | .ok () =>
    refine .bind (.after (t := []) hstarted (loop_proceeds w happenings)) fun x => ?_
    exact .ask fun _ => .still rfl rfl rfl ⟨rfl, fun _ => rfl⟩ rfl

theorem take_proceeds (v : Viewer) (turn : Turn σ) : Proceeds [] v id (v.take turn) := by
  match turn with
  | .load name => exact .bind (loadShader_proceeds v name) fun _ => .pure (.nil _)
  | .unload => exact unload_proceeds v
  | .run happenings => exact .bind (run_proceeds v happenings) fun _ => .pure (.nil _)
  | .change change => exact .interlude (.pure (.nil v))

theorem takeAll_proceeds : ∀ (v : Viewer) (turns : List (Turn σ)), Proceeds [] v id (v.takeAll turns)
  | v, [] => .pure (.nil v)
  | v, turn :: turns => .bind (take_proceeds v turn) fun w => takeAll_proceeds w turns

theorem showing_proceeds (v : Viewer) (turns : List (Turn σ)) (happenings : List (Happening σ)) :
    Proceeds [] v Prod.fst (v.showing turns happenings) := by
  refine .bind (takeAll_proceeds v turns) fun w => .bind (beginRun_proceeds w) fun x => .ask fun started => ?_
  have hstarted : Steps x x [showed .runLoop started] := Step.steps (.still rfl rfl rfl ⟨rfl, fun _ => rfl⟩ rfl)
  match started with
  | .error _ => exact .pure hstarted
  | .ok () => exact .after (t := []) hstarted (during_proceeds x happenings)

/-- **A viewer that is shown has come there in steps** from one that was opened. -/
theorem session_steps (o : Options) (order : Uniform.Order) (turns : List (Turn σ)) (happenings : List (Happening σ))
    (files : Files.Tree) :
    (session o order turns happenings).Follows files fun r t _ => ∀ p, r = .ok p →
      ∃ v pre s, t = pre ++ s ∧ Inert pre ∧ Controls.Ignores pre ∧ Opened order v ∧ Steps v p.1 s := by
  refine .calls (opened_calls o order) fun made pre h => ?_
  match made with
  | .error _ => exact .pure fun _ h => by cases h
  | .ok v =>
    obtain ⟨hinert, hopened⟩ := h.2 v rfl
    refine .bind (showing_proceeds v turns happenings files) fun r s _ hsteps => .pure fun p hp => ?_
    cases hp
    exact ⟨v, pre, s, by rw [List.append_nil], hinert, ignores_of_bareCalls h.1, hopened, hsteps⟩

theorem redraw_calls (v : Viewer) : (v.redraw : Run σ (Viewer × Bool)).Calls fun r t =>
    r.2 = false ∧ ∃ u, t = .event (.window .redrawRequested) :: u ∧ Renders v r.1 u := by
  intro files
  refine .deliver (.calls (renderFrame_calls v) fun w t h => .pure ⟨⟨rfl, _, rfl, ?_⟩, rfl⟩)
  rw [List.append_nil]
  exact h

/-! ## Soundness -/

theorem lastSize_resized (past : Trace) (size : Size) {t : Trace} (ht : t.all isQuiet = true) :
    lastSize (past ++ showed (.resizeSurface size) () :: t) = some size := by
  rw [List.append_cons, lastSize_append (fun e he => resized?_of_quiet (List.all_eq_true.1 ht e he))]
  unfold lastSize
  rw [List.filterMap_append]
  exact List.getLast?_concat

theorem Keeps.resized {report : Nat → String → Option Nat} {order : Uniform.Order} {v w : Viewer} {size : Size}
    {values : List (Uniform × Uniform.Value)} {t : Trace}
    (hvalues : values = (ViewProjection.ofSize .standard size).values) (hp : w.programs = v.programs)
    (hu : w.uniforms = v.uniforms.setAll values) (ht : t.all isQuiet = true) :
    Keeps report order v w (showed (.resizeSurface size) () :: t) := by
  intro past hv _
  have hassigns : Assigns values := hvalues ▸ camera_assigns _
  obtain ⟨hshaped, hset, -⟩ := Uniform.Table.value_setAll hv.shaped hassigns
  have hlast := lastSize_resized past size ht
  have hquiet : ∀ e ∈ t, isQuiet e = true := List.all_eq_true.1 ht
  refine ⟨⟨trivial, along_of_all (fun e he => located_of_quiet (hquiet e he)) _⟩, ?_⟩
  constructor
  · rw [hp, ledger_append, Ledger.after_cons, after_of_quiet _ ht]
    exact hv.tracks
  · rw [hu]; exact hv.cached.setAll values
  · rw [hu]; exact hshaped
  · rw [hu, (Uniform.Table.setAll_keeps values v.uniforms).1]; exact hv.ordered
  · intro _
    rw [hlast, Option.isSome_some]
  · intro size' h
    rw [hlast, Option.some.injEq] at h
    rw [← h, ← hvalues, hu]
    exact hset

theorem Resizes.keeps {report : Nat → String → Option Nat} {order : Uniform.Order} {v w : Viewer} {size : Size}
    {t : Trace} (h : Resizes v size w t) : Keeps report order v w t := by
  cases h with
  | ignored _ => exact .same rfl rfl id
  | @taken quad t _ hmade =>
    generalize hvalues : (ViewProjection.ofSize .standard size).values = values
    refine Keeps.resized hvalues.symm rfl rfl ?_
    rw [List.all_cons, List.all_append, dropping_quiet, hmade.quiet]
    rfl

theorem Opened.sound {report : Nat → String → Option Nat} {order : Uniform.Order} {v : Viewer} (h : Opened order v) :
    Sound report order [] v := by
  obtain ⟨recipe, hp⟩ := h.programs
  refine ⟨?_, ?_, ?_, ?_, fun hq => ?_, fun _ hs => by cases hs⟩
  · rw [hp]; rfl
  · rw [h.uniforms]; exact Uniform.Table.cached_initial order
  · rw [h.uniforms]; exact Uniform.Table.shaped_initial order
  · rw [h.uniforms]; rfl
  · rw [h.quad] at hq
    cases hq

section

variable {report : Nat → String → Option Nat} {order : Uniform.Order}
  (hfits : ∀ n name, ∀ k ∈ report n name, k ≤ Uniform.Location.limit)

include hfits

/-- **Every step keeps a viewer sound.** -/
theorem Step.keeps {v w : Viewer} {t : Trace} (h : Step v w t) : Keeps report order v w t := by
  cases h with
  | still hp hu hq ht _ =>
    have hquiet : Keeps report order v v t := .quiet ht.quiet
    rw [← List.append_nil t]
    exact hquiet.trans (.same hp hu fun h => hq ▸ h)
  | operated _ hperformed => exact .performed hperformed
  | resized hoffer hr =>
    have hquiet : Keeps report order v v _ := .quiet hoffer.quiet
    exact hquiet.trans hr.keeps
  | rendered hr => exact hr.keeps hfits

theorem Steps.keeps {v w : Viewer} {t : Trace} (h : Steps v w t) : Keeps report order v w t := by
  induction h with
  | nil v => exact .same rfl rfl id
  | cons h _ ih => exact (h.keeps hfits).trans ih

/-- **A viewer that is shown is sound**, and all that was uploaded went to locations of the program then current. -/
theorem session_follows (o : Options) (turns : List (Turn σ)) (happenings : List (Happening σ)) (files : Files.Tree) :
    (session o order turns happenings).Follows files fun r t _ => ∀ p, r = .ok p →
      Along (Reports report) {} t → Along (Located report) {} t ∧ Sound report order t p.1 := by
  refine (session_steps o order turns happenings files).mono fun r t _ h p hp hreports => ?_
  obtain ⟨v, pre, s, rfl, hinert, -, hopened, hsteps⟩ := h p hp
  have hkeeps : Keeps report order v p.1 (pre ++ s) := (Keeps.quiet hinert.quiet).trans (hsteps.keeps hfits)
  exact hkeeps [] hopened.sound hreports

/-- **Every frame uploads for the current program.**  Whatever a session did before, the calls of the next frame are
those of a `Frame`, and no upload so far went to a location of an earlier link or of another program; all that is asked
of the driver is that a location depends on the last link and the name alone and fits 31 bits. -/
theorem redraw_uploads (o : Options) (turns : List (Turn σ)) (happenings : List (Happening σ)) (host : Host σ) (state : σ)
    (files : Files.Tree) {v : Viewer} {world : World σ}
    (hrun : (session o order turns happenings).on host { host := state, files } = (.ok (v, false), world))
    (hreports : Along (Reports report) {} (v.redraw.on host world).2.trace) :
    let next := v.redraw.on host world
    Along (Located report) {} next.2.trace ∧
    ∃ now queries painted swapped codes,
      next.2.trace = world.trace ++
        .event (.window .redrawRequested) :: framing now queries painted swapped codes ∧
      Frame report order world.trace v next.1.1 now queries painted := by
  intro next
  obtain ⟨past, hpast, hsession⟩ := session_follows hfits o turns happenings files host { host := state, files } rfl
  rw [hrun] at hpast hsession
  have hpast : world.trace = past := hpast
  subst hpast
  obtain ⟨t, hnext, ⟨-, u, rfl, hrenders⟩, -⟩ := v.redraw_calls world.files host world rfl
  have hnext : next.2.trace = world.trace ++ .event (.window .redrawRequested) :: u := hnext
  rw [hnext, Ledger.along_append] at hreports
  obtain ⟨hlocated, hsound⟩ := hsession _ rfl hreports.1
  have hframe := hrenders.frame hsound hfits hreports.2.2
  obtain ⟨now, queries, painted, swapped, codes, rfl, hframe⟩ := hframe
  refine ⟨?_, now, queries, painted, swapped, codes, hnext, hframe⟩
  rw [hnext, Ledger.along_append]
  exact ⟨hlocated, trivial, (hrenders.keeps hfits world.trace hsound hreports.2.2).1⟩

end

/-- The time is the one uniform in use, and its location is another one after each link. -/
def timeReport (n : Nat) (name : String) : Option Nat := if name = Uniform.time.glslName then some (n % 2) else none

/-- The simulator, but for the location of the time. -/
def timeHost : Host Simulator.State
  | .pipeline (.uniformLocation _ name), s => (timeReport s.locationBase name, s)
  | r, s => Simulator.host r s

/-- A frame, and then a hot swap. -/
def swapBetween : List (Happening Simulator.State) :=
  [.event (.window .redrawRequested), .change { host := ({ · with locationBase := 2 }) },
    .event (.window (.keyboard (some .f5) true false))]

/-- A session with a blank shader up to the hot swap. -/
@[irreducible] def shown : Except OpenError (Viewer × Bool) × World Simulator.State :=
  (session { store := { root := "." } } .declared [.load "a"] swapBetween).on timeHost
    { host := { locationBase := 1 }, files := Program.Slot.blankShader }

def afterRedraw (r : Except OpenError (Viewer × Bool) × World Simulator.State) : World Simulator.State :=
  match r.1 with
  | .error _ => r.2
  | .ok (v, _) => (v.redraw.on timeHost r.2).2

theorem redraw_uploads_swapped : ∃ v, shown.1 = .ok (v, false) ∧ v.programs.isLoaded = true ∧ v.quad.isSome = true ∧
    let next := v.redraw.on timeHost shown.2
    Along (Located timeReport) {} next.2.trace ∧
    ∃ now queries painted swapped codes,
      next.2.trace = shown.2.trace ++
        .event (.window .redrawRequested) :: framing now queries painted swapped codes ∧
      Frame timeReport .declared shown.2.trace v next.1.1 now queries painted := by
  have hrun : (session { store := { root := "." } } .declared [.load "a"] swapBetween).on timeHost
      { host := { locationBase := 1 }, files := Program.Slot.blankShader } = (shown.1, shown.2) := by
    rw [Prod.eta, shown]
  have hstate : shown.1.toOption.any
      (fun p => p.1.programs.isLoaded && p.1.quad.isSome && p.2 == false) = true := by decide +kernel
  have hreports : Along (Reports timeReport) {} (afterRedraw shown).trace := by decide +kernel
  have hfits : ∀ n name, ∀ k ∈ timeReport n name, k ≤ Uniform.Location.limit := by
    intro n name k hk
    unfold timeReport at hk
    split at hk
    · obtain rfl := Option.some.inj hk
      have hlimit : 2 ≤ Uniform.Location.limit := by decide
      omega
    · cases hk
  unfold afterRedraw at hreports
  cases hshown : shown.1 with
  | error e =>
    rw [hshown] at hstate
    cases hstate
  | ok p =>
    obtain ⟨v, left⟩ := p
    rw [hshown] at hrun hstate hreports
    simp only [Except.toOption, Option.any_some, Bool.and_eq_true, beq_iff_eq] at hstate
    obtain ⟨⟨hloaded, hquad⟩, rfl⟩ := hstate
    exact ⟨v, rfl, hloaded, hquad, redraw_uploads hfits _ _ _ _ _ _ hrun hreports⟩

end Viewer
end Window
end LiveShader
