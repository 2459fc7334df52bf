import LiveShader.Proofs.Window.Session
/-!
# Proofs.Window.Sizing — every draw fits the size that the window was told

The surface, the viewport, the quad's buffer and the camera are renewed together when a size is taken, and a quad that
cannot be made again is gone.  So a viewer is `Sized` at every moment of a session, and whatever is drawn is drawn for
the last size that the window was told (`redraw_fits`).
-/
namespace LiveShader
namespace Window

open Machine
open LiveShader.Uniform.Table (Assigns uploads)

variable {σ : Type}

/-! ## What the canvas shows -/

/-- The canvas on which a quad, if there is one, was made for a size. -/
def canvasOf (quad : Option Quad) (size : Option Size) : Canvas where
  arrays := quad.toList.map fun q => { id := q.array, source := some q.buffer, enabled := true }
  buffers := quad.toList.map fun q => { id := q.buffer, vertices := size.elim [] Quad.vertices }
  viewport := size.map Viewer.clamped

theorem Quad.Makes.canvas {size : Size} {quad : Option Quad} {t : Trace} (h : Quad.Makes size quad t) :
    (canvasOf none (some size)).after t = canvasOf quad (some size) := by
  cases h with
  | noArray message => rfl
  | noBuffer array message => simp [canvasOf, Canvas.enter, Canvas.enterDraw]
  | made q => simp [canvasOf, Canvas.enter, Canvas.enterDraw, Canvas.onArray, Canvas.onBuffer]

theorem canvas_dropping (v : Viewer) (old viewport : Option Size) :
    ({ canvasOf v.quad old with viewport } : Canvas).after v.dropping = { viewport } := by
  unfold Viewer.dropping
  cases v.quad with
  | none => rfl
  | some quad => simp [Quad.releasing, canvasOf, Canvas.enter, Canvas.enterDraw]

theorem canvas_resized (v : Viewer) {size : Size} (old : Option Size) {quad : Option Quad} {t : Trace}
    (h : Quad.Makes size quad t) :
    (canvasOf v.quad old).after
        (showed (.resizeSurface size) () :: drew (.viewport (Viewer.clamped size)) () :: (v.dropping ++ t)) =
      canvasOf quad (some size) := by
  have hdropped := canvas_dropping v old (some (Viewer.clamped size))
  rw [Canvas.after_cons, Canvas.after_cons, Canvas.after_append]
  exact (congrArg (Canvas.after · t) hdropped).trans h.canvas

/-- **What is drawn from a quad's array** are the corners for the size that it was made for. -/
theorem drawn?_canvasOf (quad : Quad) (size : Size) :
    ({ canvasOf (some quad) (some size) with array := some quad.array } : Canvas).drawn? = some (Quad.vertices size) := by
  simp [Canvas.drawn?, canvasOf]

/-! ## Sizes that were told -/

namespace Told

/-- A size that was taken has no zero dimension. -/
def Accepted (s : Told) : Prop := ∀ size, s.size = some size → size.isEmpty = false

theorem Accepted.take {s : Told} (h : s.Accepted) (size : Size) : (s.take size).Accepted := by
  intro size' htaken
  unfold Told.take at htaken
  cases hempty : size.isEmpty with
  | true =>
    rw [hempty] at htaken
    exact h size' htaken
  | false =>
    rw [hempty] at htaken
    obtain rfl := Option.some.inj htaken
    exact hempty

theorem Accepted.enterScreen {s : Told} (h : s.Accepted) (r : ScreenRequest) (a : r.Answer) :
    (s.enterScreen r a).Accepted := by
  cases r with
  | requestSize wanted =>
    cases a with
    | none => exact h
    | some size => exact h.take size
  | innerSize =>
    show (if s.settling then s.take a else s.pass).Accepted
    split
    · exact h.take a
    · exact h
  | _ => exact h

theorem Accepted.enter {s : Told} (h : s.Accepted) (e : Entry) : (s.enter e).Accepted := by
  match e with
  | .event (.window event) => cases event <;> first | exact h.take _ | exact h
  | .event (.foreign _) | .event .aboutToWait | .event .unhandled => exact h
  | .call ⟨.draw _, _⟩ | .call ⟨.pipeline _, _⟩ => exact h
  | .call ⟨.screen r, a⟩ => exact h.enterScreen r a

theorem Accepted.after {s : Told} (h : s.Accepted) (t : Trace) : (s.after t).Accepted := by
  induction t generalizing s with
  | nil => exact h
  | cons e t ih => exact ih (h.enter e)

end Told

theorem told_accepted {t : Trace} {size : Size} (h : told t = some size) : size.isEmpty = false :=
  Told.Accepted.after (s := {}) (fun _ h => by cases h) t size h

/-! ## Idle traces -/

/-- A trace that leaves the canvas, the size that the window was told and that of the surface as they are, and draws
nothing. -/
structure Idle (t : Trace) : Prop where
  canvas : ∀ c : Canvas, c.after t = c
  told : ∀ s : Told, (s.after t).size = s.size
  surface : ∀ e ∈ t, resized? e = none
  draws : drew .drawTriangles () ∉ t

namespace Idle

theorem nil : Idle [] := ⟨fun _ => rfl, fun _ => rfl, fun _ h => (by cases h), List.not_mem_nil⟩

theorem append {t u : Trace} (ht : Idle t) (hu : Idle u) : Idle (t ++ u) := by
  refine ⟨fun c => ?_, fun s => ?_, fun e he => ?_, fun h => ?_⟩
  · rw [Canvas.after_append, ht.canvas, hu.canvas]
  · rw [Told.after_append, hu.told, ht.told]
  · exact (List.mem_append.1 he).elim (ht.surface e) (hu.surface e)
  · exact (List.mem_append.1 h).elim ht.draws hu.draws

theorem single {e : Entry} (hc : ∀ c : Canvas, c.enter e = c) (hs : ∀ s : Told, (s.enter e).size = s.size)
    (hr : resized? e = none) (hd : e ≠ drew .drawTriangles ()) : Idle [e] :=
  ⟨hc, hs, fun _ h => List.mem_singleton.1 h ▸ hr, fun h => hd (List.mem_singleton.1 h).symm⟩

theorem of_forall : ∀ {t : Trace}, (∀ e ∈ t, Idle [e]) → Idle t
  | [], _ => .nil
  | e :: t, h => by
    have hrest : Idle t := of_forall fun x hx => h x (List.mem_cons_of_mem _ hx)
    exact (h e List.mem_cons_self).append hrest

theorem said (r : PipelineRequest) (a : r.Answer) : Idle [said r a] :=
  .single (fun _ => rfl) (fun _ => rfl) rfl fun h => by cases h

theorem of_objects {t : Trace} (h : t.all Program.isObjectCall = true) : Idle t := by
  refine of_forall fun e he => ?_
  have hobject := List.all_eq_true.1 h e he
  match e with
  | .event _ => cases hobject
  | .call ⟨.draw _, _⟩ => cases hobject
  | .call ⟨.screen _, _⟩ => cases hobject
  | .call ⟨.pipeline r, a⟩ => exact .said r a

end Idle

theorem canvas_enter_of_inert : ∀ {e : Entry}, isInert e = true → ∀ c : Canvas, c.enter e = c
  | .event _, _, _ => rfl
  | .call ⟨.pipeline _, _⟩, h, _ => by cases h
  | .call ⟨.draw r, _⟩, h, _ => by cases r <;> first | rfl | cases h
  | .call ⟨.screen r, _⟩, h, _ => by cases r <;> first | rfl | cases h

theorem canvas_after_of_inert : ∀ {t : Trace}, t.all isInert = true → ∀ c : Canvas, c.after t = c
  | [], _, _ => rfl
  | e :: t, h, c => by
    rw [List.all_cons, Bool.and_eq_true] at h
    rw [Canvas.after_cons, canvas_enter_of_inert h.1, canvas_after_of_inert h.2]

theorem Inert.idle {t : Trace} (h : Inert t) : Idle t := by
  refine ⟨canvas_after_of_inert h.entries, h.size, fun e he => ?_, fun hdraw => ?_⟩
  · exact resized?_of_quiet (List.all_eq_true.1 h.quiet e he)
  · cases List.all_eq_true.1 h.entries _ hdraw

namespace Viewer

/-! ## Sized viewers -/

/-- **What depends on the size is that of the last size that the window was told**, after a past. -/
structure Sized (past : Trace) (v : Viewer) : Prop where
  canvas : canvas past = canvasOf v.quad (told past)
  surface : lastSize past = told past
  quad_told : v.quad.isSome = true → (told past).isSome = true
  shaped : v.uniforms.Shaped
  camera : ∀ size, told past = some size →
    ∀ p ∈ (ViewProjection.ofSize .standard size).values, v.uniforms.value p.1 = p.2

variable {past t : Trace} {v w : Viewer}

theorem told_append_of_idle (h : Idle t) (past : Trace) : told (past ++ t) = told past := by
  unfold told
  rw [Told.after_append, h.told]

/-- A viewer stays sized while canvas, surface and the size that the window was told stay. -/
theorem Sized.stays {later : Trace} (h : Sized past v) (hcanvas : Machine.canvas later = Machine.canvas past)
    (hsurface : lastSize later = lastSize past) (htold : told later = told past) : Sized later v := by
  refine ⟨?_, ?_, ?_, h.shaped, ?_⟩
  · rw [hcanvas, htold]
    exact h.canvas
  · rw [hsurface, htold]
    exact h.surface
  · rw [htold]
    exact h.quad_told
  · rw [htold]
    exact h.camera

theorem Sized.idle (h : Sized past v) (ht : Idle t) : Sized (past ++ t) v :=
  h.stays (by rw [canvas_append, ht.canvas]) (lastSize_append ht.surface past) (told_append_of_idle ht past)

theorem Sized.congr (h : Sized past v) (hu : w.uniforms = v.uniforms) (hq : w.quad = v.quad) : Sized past w := by
  refine ⟨?_, h.surface, ?_, ?_, ?_⟩
  · rw [hq]; exact h.canvas
  · rw [hq]; exact h.quad_told
  · rw [hu]; exact h.shaped
  · rw [hu]; exact h.camera

theorem Offers.told {size : Size} (h : Offers size t) (past : Trace) :
    Window.told (past ++ t) = if size.isEmpty then Window.told past else some size := by
  unfold Window.told
  rw [Told.after_append]
  cases h <;> rfl

theorem Offers.canvas {size : Size} (h : Offers size t) (c : Canvas) : c.after t = c := by
  cases h <;> rfl

theorem Resizes.told {size : Size} (h : Resizes v size w t) (s : Told) : (s.after t).size = s.size := by
  cases h with
  | ignored _ => rfl
  | taken _ hmade =>
    unfold dropping
    cases v.quad <;> cases hmade <;> rfl

/-- **Taking an offered size keeps a viewer sized**, whether or not a new quad can be made. -/
theorem Resizes.sized {size : Size} {offer : Trace} (h : Resizes v size w t) (hoffer : Offers size offer)
    (hv : Sized past v) : Sized (past ++ (offer ++ t)) w := by
  have htold : Window.told (past ++ offer ++ t) = if size.isEmpty then Window.told past else some size := by
    have hrest : Window.told (past ++ offer ++ t) = Window.told (past ++ offer) := by
      unfold Window.told
      rw [Told.after_append, h.told]
    rw [hrest, hoffer.told]
  have hcanvas : canvas (past ++ offer) = canvas past := by rw [canvas_append, hoffer.canvas]
  rw [← List.append_assoc]
  cases h with
  | ignored hempty =>
    have hsurface : lastSize (past ++ offer) = lastSize past :=
      lastSize_append (fun e he => resized?_of_quiet (List.all_eq_true.1 hoffer.quiet e he)) past
    rw [List.append_nil, if_pos hempty] at htold
    rw [List.append_nil]
    exact hv.stays hcanvas hsurface htold
  | @taken quad t hempty hmade =>
    rw [if_neg (by simp [hempty])] at htold
    -- the camera's values are numbers that nothing here should compute
    generalize hvalues : (ViewProjection.ofSize .standard size).values = values
    have hassigns : Assigns values := hvalues ▸ camera_assigns _
    obtain ⟨hshaped, hset, -⟩ := Uniform.Table.value_setAll hv.shaped hassigns
    refine ⟨?_, ?_, ?_, hshaped, ?_⟩
    · rw [htold, canvas_append, hcanvas, hv.canvas, canvas_resized v _ hmade]
    · rw [htold]
      refine lastSize_resized _ _ ?_
      rw [List.all_cons, List.all_append, dropping_quiet, hmade.quiet]
      rfl
    · rw [htold]
      exact fun _ => rfl
    · rw [htold]
      intro size' h
      obtain rfl := Option.some.inj h
      rw [hvalues]
      exact hset

/-! ## Frames -/

/-- **What is in place for a size**, after a past: surface, viewport, the corners that would be drawn, and the camera of
a table. -/
structure Fits (past : Trace) (table : Uniform.Table) (size : Size) : Prop where
  told : Window.told past = some size
  accepted : size.isEmpty = false
  surface : lastSize past = some size
  viewport : (canvas past).viewport = some (clamped size)
  vertices : (canvas past).drawn? = some (Quad.vertices size)
  camera : (ViewProjection.ofSize .standard size).Shown table

/-- A draw call finds all in place for some size. -/
def DrawsFit (table : Uniform.Table) (past : Trace) (e : Entry) : Prop :=
  e = drew .drawTriangles () → ∃ size, Fits past table size

theorem drawsFit_of_idle {table : Uniform.Table} (h : Idle t) : Throughout (DrawsFit table) past t :=
  .of_all fun _ he _ hdraw => absurd (hdraw ▸ he) h.draws

theorem idle_uploads (us : List Uniform) (location : Uniform → Option Nat) (value : Uniform → Uniform.Value) :
    Idle (uploads us location value) := by
  refine .of_forall fun e he => ?_
  obtain ⟨u, -, n, -, rfl⟩ := Uniform.Table.mem_uploads.1 he
  exact .said _ _

/-- **Painting the quad of a sized viewer** draws what fits. -/
theorem quad_painting_sized {quad : Quad} (h : Sized past v) (hquad : v.quad = some quad) :
    Throughout (DrawsFit v.uniforms) past quad.painting ∧ Sized (past ++ quad.painting) v := by
  obtain ⟨size, hsize⟩ := Option.isSome_iff_exists.1 (h.quad_told (by rw [hquad]; rfl))
  have hcanvas : canvas past = canvasOf (some quad) (some size) := by rw [h.canvas, hquad, hsize]
  have htold : ∀ t, (∀ s : Told, (s.after t).size = s.size) → told (past ++ t) = told past := by
    intro t ht
    unfold told
    rw [Told.after_append, ht]
  constructor
  · -- only the middle one of the three calls draws
    refine .cons (fun hdraw => by cases hdraw) (.cons (fun _ => ⟨size, ?_⟩) (.cons (fun hdraw => by cases hdraw) .nil))
    have hbound : canvas (past ++ [drew (.bindVertexArray (some quad.array)) ()]) =
        { canvasOf (some quad) (some size) with array := some quad.array } := by
      rw [canvas_append, hcanvas]
      rfl
    refine ⟨?_, told_accepted hsize, ?_, ?_, ?_, ViewProjection.shown_of_values (h.camera size hsize)⟩
    · rw [htold _ fun _ => rfl, hsize]
    · rw [lastSize_append (by simp [resized?]), h.surface, hsize]
    · rw [hbound]
      rfl
    · rw [hbound, drawn?_canvasOf]
  · have hpainted : canvas (past ++ quad.painting) = canvas past := by
      rw [canvas_append, hcanvas]
      rfl
    exact h.stays hpainted (lastSize_append (by simp [Quad.painting, resized?]) past) (htold _ fun _ => rfl)

theorem painting_sized (h : Sized past v) :
    Throughout (DrawsFit v.uniforms) past v.painting ∧ Sized (past ++ v.painting) v := by
  obtain hblank | ⟨quad, l, hquad, -, hpainting⟩ := painting_cases v
  · rw [hblank, List.append_nil]
    exact ⟨.nil, h⟩
  · have hlead : Idle (said (.useProgram (some l.program)) () ::
        uploads v.uniforms.order.walk (fun u => (v.uniforms.location u).index?) v.uniforms.value) :=
      (Idle.said _ _).append (idle_uploads _ _ _)
    have htail : Idle [said (.useProgram none) ()] := .said _ _
    obtain ⟨hfits, hpainted⟩ := quad_painting_sized (h.idle hlead) hquad
    rw [hpainting, ← List.cons_append]
    refine ⟨.append (drawsFit_of_idle hlead) (.append hfits (drawsFit_of_idle htail)), ?_⟩
    rw [← List.append_assoc, ← List.append_assoc]
    exact hpainted.idle htail

/-- **A frame of a sized viewer draws what fits.** -/
theorem Renders.sized (h : Renders v w t) (hv : Sized past v) :
    Throughout (DrawsFit w.uniforms) past t ∧ Sized (past ++ t) w := by
  cases h with
  | @rendered now table q swapped codes hs =>
    obtain ⟨hshaped, -, hkept⟩ := hs.values hv.shaped (frameValues_assigns _ _)
    have hw : Sized past (v.rendered now table) :=
      ⟨hv.canvas, hv.surface, hv.quad_told, hshaped, fun size hsize => camera_kept hkept (hv.camera size hsize)⟩
    have hqueries : Idle q := by
      refine .of_forall fun e he => ?_
      obtain ⟨p, name, answer, rfl⟩ := hs.queries e he
      exact .said _ _
    have hnow : Idle [showed .now now] := (⟨rfl, fun _ => rfl⟩ : Inert _).idle
    have hclear : Idle [drew .clear ()] := (⟨rfl, fun _ => rfl⟩ : Inert _).idle
    have htail : Idle [showed .swapBuffers swapped, drew .drainErrors codes] := (⟨rfl, fun _ => rfl⟩ : Inert _).idle
    have hlead : Idle (showed .now now :: q ++ [drew .clear ()]) := (hnow.append hqueries).append hclear
    obtain ⟨hfits, hpainted⟩ := painting_sized (hw.idle hlead)
    have hframing : framing now q (v.rendered now table).painting swapped codes =
        (showed .now now :: q ++ [drew .clear ()]) ++
          ((v.rendered now table).painting ++ [showed .swapBuffers swapped, drew .drainErrors codes]) := by
      simp [framing]
    rw [hframing]
    refine ⟨.append (drawsFit_of_idle hlead) (.append hfits (drawsFit_of_idle htail)), ?_⟩
    rw [← List.append_assoc, ← List.append_assoc]
    exact hpainted.idle htail

/-! ## Sessions -/

/-- **Every step keeps a viewer sized.** -/
theorem Step.sized (h : Step v w t) (hv : Sized past v) : Sized (past ++ t) w := by
  cases h with
  | still _ hu hq ht _ => exact (hv.idle ht.idle).congr hu hq
  | operated _ hperformed => exact (hv.idle (.of_objects hperformed.all_objects)).congr rfl rfl
  | resized hoffer hr => exact hr.sized hoffer hv
  | rendered hr => exact (hr.sized hv).2

theorem Steps.sized (h : Steps v w t) (hv : Sized past v) : Sized (past ++ t) w := by
  induction h generalizing past with
  | nil v => rwa [List.append_nil]
  | cons h _ ih =>
    rw [← List.append_assoc]
    exact ih (h.sized hv)

theorem Opened.sized {order : Uniform.Order} (h : Opened order v) (ht : Inert t) : Sized t v := by
  have hnone : Sized [] v := by
    refine ⟨?_, rfl, fun hq => ?_, ?_, fun _ hsize => by cases hsize⟩
    · rw [h.quad]
      rfl
    · rw [h.quad] at hq
      cases hq
    · rw [h.uniforms]
      exact Uniform.Table.shaped_initial order
  exact hnone.idle ht.idle

/-- **A viewer that is shown is sized.** -/
theorem session_sized (o : Options) (order : Uniform.Order) (turns : List (Turn σ)) (happenings : List (Happening σ))
    (files : Files.Tree) :
    (session o order turns happenings).Follows files fun r t _ => ∀ p, r = .ok p → Sized t p.1 := by
  refine (session_steps o order turns happenings files).mono fun r t _ h p hp => ?_
  obtain ⟨v, pre, s, rfl, hinert, -, hopened, hsteps⟩ := h p hp
  exact hsteps.sized (hopened.sized hinert)

/-- **Every draw fits the last size that the window was told.**  Whatever a session did before, a draw call of the next
frame finds surface, viewport and corners as that size has them, and the table that the frame uploads from has its
camera; a size with a zero dimension changes nothing at all. -/
theorem redraw_fits (o : Options) (order : Uniform.Order) (turns : List (Turn σ)) (happenings : List (Happening σ))
    (host : Host σ) (state : σ) (files : Files.Tree) {v : Viewer} {world : World σ}
    (hrun : (session o order turns happenings).on host { host := state, files } = (.ok (v, false), world)) :
    let next := v.redraw.on host world
    (∀ before after, next.2.trace = world.trace ++ (before ++ drew .drawTriangles () :: after) →
      ∃ size, Fits (world.trace ++ before) next.1.1.uniforms size) ∧
    ∀ (w : Viewer) (size : Size) (now : World σ), size.isEmpty = true → (w.resize size).on host now = (w, now) := by
  intro next
  obtain ⟨past, hpast, hsession⟩ := session_sized o order turns happenings files host { host := state, files } rfl
  rw [hrun] at hpast hsession
  have hpast : world.trace = past := hpast
  subst hpast
  obtain ⟨t, hnext, ⟨-, u, rfl, hrenders⟩, -⟩ := v.redraw_calls world.files host world rfl
  have hnext : next.2.trace = world.trace ++ .event (.window .redrawRequested) :: u := hnext
  have hasked : Idle [.event (.window .redrawRequested)] := (⟨rfl, fun _ => rfl⟩ : Inert _).idle
  have hfits : Throughout (DrawsFit next.1.1.uniforms) world.trace (.event (.window .redrawRequested) :: u) :=
    .append (drawsFit_of_idle hasked) (hrenders.sized ((hsession _ rfl).idle hasked)).1
  refine ⟨fun before after hsplit => ?_, fun w size now hempty => ?_⟩
  · rw [hnext] at hsplit
    exact hfits before _ after (List.append_cancel_left hsplit) rfl
  · unfold resize
    rw [if_pos hempty]
    rfl

/-- A run that goes fullscreen and comes back to the size it had before. -/
def throughFullscreen : List (Happening Simulator.State) :=
  [.event (.window (.resized ⟨64, 48⟩)), .event (.window (.keyboard (some .f11) true false)),
    .change { host := ({ · with syncResize := true }) }, .event (.window (.keyboard (some .f11) true false)),
    .event (.window .closeRequested)]

/-- The quad is lost with one size and made again with another, before a size with a zero dimension. -/
def quadLost : List (Happening Simulator.State) :=
  [.change { host := (·.arm .createBuffer 1) }, .event (.window (.resized ⟨3, 2⟩)), .event (.window .redrawRequested),
    .event (.window (.resized ⟨5, 4⟩)), .event (.window (.resized ⟨0, 9⟩))]

/-- A session of two runs with a blank shader. -/
@[irreducible] def resized : Except OpenError (Viewer × Bool) × World Simulator.State :=
  (session { store := { root := "." } } .declared [.load "a", .run throughFullscreen] quadLost).on timeHost
    { host := {}, files := Program.Slot.blankShader }

def isDraw : Entry → Bool
  | .call ⟨.draw .drawTriangles, _⟩ => true
  | _ => false

theorem eq_of_isDraw : ∀ {e : Entry}, isDraw e = true → e = drew .drawTriangles ()
  | .event _, h => by cases h
  | .call ⟨.pipeline _, _⟩, h => by cases h
  | .call ⟨.screen _, _⟩, h => by cases h
  | .call ⟨.draw r, _⟩, h => by cases r <;> first | rfl | cases h

/-- Whether the next frame has a draw call. -/
def drawsNext (r : Except OpenError (Viewer × Bool) × World Simulator.State) : Bool :=
  match r.1 with
  | .ok (v, false) => ((v.redraw.on timeHost r.2).2.trace.drop r.2.trace.length).any isDraw
  | _ => false

theorem exists_of_drawsNext {r : Except OpenError (Viewer × Bool) × World Simulator.State} (h : drawsNext r = true) :
    ∃ v before after, r.1 = .ok (v, false) ∧
      (v.redraw.on timeHost r.2).2.trace = r.2.trace ++ (before ++ drew .drawTriangles () :: after) := by
  obtain ⟨made, world⟩ := r
  match made with
  | .error _ => cases h
  | .ok (_, true) => cases h
  | .ok (v, false) =>
    have hdraws : ((v.redraw.on timeHost world).2.trace.drop world.trace.length).any isDraw = true := h
    obtain ⟨t, hnext, -⟩ := v.redraw_calls world.files timeHost world rfl
    have hnext : (v.redraw.on timeHost world).2.trace = world.trace ++ t := hnext
    rw [hnext, List.drop_left, List.any_eq_true] at hdraws
    obtain ⟨e, he, hdraw⟩ := hdraws
    obtain ⟨before, after, rfl⟩ := List.append_of_mem he
    rw [eq_of_isDraw hdraw] at hnext
    exact ⟨v, before, after, rfl, hnext⟩

theorem redraw_fits_resized : ∃ v before after, resized.1 = .ok (v, false) ∧ told resized.2.trace = some ⟨5, 4⟩ ∧
    let next := v.redraw.on timeHost resized.2
    next.2.trace = resized.2.trace ++ (before ++ drew .drawTriangles () :: after) ∧
    (∃ size, Fits (resized.2.trace ++ before) next.1.1.uniforms size) ∧
    ∀ (w : Viewer) (size : Size) (now : World Simulator.State), size.isEmpty = true →
      (w.resize size).on timeHost now = (w, now) := by
  have hrun : (session { store := { root := "." } } .declared [.load "a", .run throughFullscreen] quadLost).on
      timeHost { host := {}, files := Program.Slot.blankShader } = (resized.1, resized.2) := by
    rw [Prod.eta, resized]
  have htold : told resized.2.trace = some ⟨5, 4⟩ := by decide +kernel
  obtain ⟨v, before, after, hv, hnext⟩ := exists_of_drawsNext (r := resized) (by decide +kernel)
  rw [hv] at hrun
  obtain ⟨hfits, hempty⟩ := redraw_fits _ _ _ _ _ _ _ hrun
  exact ⟨v, before, after, hv, htold, hnext, hfits before after hnext, hempty⟩

end Viewer
end Window
end LiveShader
