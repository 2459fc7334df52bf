import LiveShader.Proofs.Window.Session
/-!
# Proofs.Window.Motion — all that a viewer does to the mode and the visibility of its window

Whatever is done with a viewer either leaves mode and visibility alone (`Rests`), or is a press of the key that changes
the mode (`Toggles`), or begins or ends a run.  The traces of the last three are known call by call.
-/
namespace LiveShader
namespace Window

open Machine

variable {σ α β : Type}

/-! ## Steady entries -/

/-- An entry that says nothing of the window's mode and visibility, and asks for no size. -/
def isSteady : Entry → Bool
  | .call ⟨.screen (.setVisible _), _⟩ | .call ⟨.screen (.setFullscreen _), _⟩
  | .call ⟨.screen (.requestSize _), _⟩ => false
  | _ => true

theorem isSteady_of_object : ∀ {e : Entry}, Program.isObjectCall e = true → isSteady e = true
  | .event _, h => by cases h
  | .call ⟨.draw _, _⟩, _ => rfl
  | .call ⟨.screen _, _⟩, h => by cases h
  | .call ⟨.pipeline _, _⟩, _ => rfl

theorem steady_of_objects {t : Trace} (h : t.all Program.isObjectCall = true) : t.all isSteady = true :=
  List.all_eq_true.2 fun e he => isSteady_of_object (List.all_eq_true.1 h e he)

theorem steady_append {t u : Trace} (ht : t.all isSteady = true) (hu : u.all isSteady = true) :
    (t ++ u).all isSteady = true := by
  rw [List.all_append, ht, hu]
  rfl

/-- A program all of whose entries are steady. -/
def Steadily (p : Run σ α) : Prop := ∀ files, p.Follows files fun _ t _ => t.all isSteady = true

namespace Steadily

theorem pure (a : α) : Steadily (Pure.pure a : Run σ α) := fun _ => .pure rfl

theorem bind {p : Run σ β} {k : β → Run σ α} (hp : Steadily p) (hk : ∀ b, Steadily (k b)) : Steadily (p >>= k) :=
  fun files => .bind (hp files) fun b _ f ht => (hk b f).mono fun _ _ _ hu => steady_append ht hu

theorem ask {r : Request} {k : r.Answer → Run σ α} (hr : ∀ a, isSteady (.call ⟨r, a⟩) = true)
    (hk : ∀ a, Steadily (k a)) : Steadily (Machine.ask r >>= k) := by
  refine fun files => .ask fun a => (hk a files).mono fun _ t _ ht => ?_
  rw [List.all_cons, hr, ht]
  rfl

theorem ask_last {r : Request} (hr : ∀ a, isSteady (.call ⟨r, a⟩) = true) : Steadily (Machine.ask r : Run σ _) :=
  fun _ => .ask_last fun a => by rw [List.all_cons, hr]; rfl

end Steadily

theorem chooseConfig_steady : Steadily (chooseConfig : Run σ (Except OpenError Unit)) := by
  refine .ask (fun _ => rfl) fun found => ?_
  match found with
  | .error _ => exact .pure _
  | .ok counts =>
    simp only
    split
    · exact .pure _
    · exact .ask (fun _ => rfl) fun _ => .pure _

theorem attachContext_steady (version : GlVersion) : Steadily (attachContext version : Run σ (Except OpenError Unit)) := by
  refine .ask (fun _ => rfl) fun made => ?_
  match made with
  | .error _ => exact .ask (fun _ => rfl) fun _ => .pure _
  | .ok () =>
    refine .ask (fun _ => rfl) fun size => .ask (fun _ => rfl) fun made => ?_
    match made with
    | .error _ => exact .ask (fun _ => rfl) fun _ => .pure _
    | .ok () =>
      refine .ask (fun _ => rfl) fun made => ?_
      match made with
      | .error _ => exact .ask (fun _ => rfl) fun _ => .ask (fun _ => rfl) fun _ => .pure _
      | .ok () => exact .ask (fun _ => rfl) fun _ => .pure _

theorem openWindow_steady (title : String) (size : Size) (version : GlVersion) :
    Steadily (openWindow title size version : Run σ (Except OpenError Unit)) := by
  refine .ask (fun _ => rfl) fun made => ?_
  match made with
  | .error _ => exact .pure _
  | .ok () =>
    refine .bind chooseConfig_steady fun chosen => ?_
    match chosen with
    | .error _ => exact .pure _
    | .ok () =>
      refine .ask (fun _ => rfl) fun made => ?_
      match made with
      | false => exact .pure _
      | true =>
        refine .bind (attachContext_steady version) fun attached => ?_
        match attached with
        | .error _ => exact .pure _
        | .ok () =>
          refine .bind ?_ fun _ => .pure _
          exact .ask (fun _ => rfl) fun _ => .ask (fun _ => rfl) fun _ => .ask_last fun _ => rfl

namespace Viewer

/-! ## Viewers at rest -/

/-- What leaves the mode of the window and its visibility alone. -/
structure Rests (v w : Viewer) (t : Trace) : Prop where
  display : w.display = v.display
  starts : w.startFullscreen = v.startFullscreen
  steady : t.all isSteady = true

variable {u v w : Viewer} {s t : Trace}

theorem Rests.trans (hs : Rests u v s) (ht : Rests v w t) : Rests u w (s ++ t) :=
  ⟨ht.display.trans hs.display, ht.starts.trans hs.starts, steady_append hs.steady ht.steady⟩

theorem dropping_steady (v : Viewer) : v.dropping.all isSteady = true := by
  unfold dropping
  cases v.quad <;> rfl

theorem Resizes.rests {size : Size} (h : Resizes v size w t) : Rests v w t := by
  cases h with
  | ignored _ => exact ⟨rfl, rfl, rfl⟩
  | @taken quad t _ hmade =>
    have hmade : t.all isSteady = true := by cases hmade <;> rfl
    refine ⟨rfl, rfl, ?_⟩
    exact steady_append (t := [_, _]) rfl (steady_append (dropping_steady v) hmade)

theorem painting_steady (v : Viewer) : v.painting.all isSteady = true := by
  obtain hblank | ⟨quad, l, -, -, hpainting⟩ := painting_cases v
  · rw [hblank]
    rfl
  · rw [hpainting]
    refine List.all_eq_true.2 fun e he => ?_
    simp only [List.mem_cons, List.mem_append, Uniform.Table.mem_uploads, Quad.painting, List.not_mem_nil, or_false] at he
    rcases he with rfl | ⟨u, -, n, -, rfl⟩ | (rfl | rfl | rfl) | rfl <;> rfl

theorem Renders.rests (h : Renders v w t) : Rests v w t := by
  cases h with
  | @rendered now table q swapped codes hs =>
    have hqueries : q.all isSteady = true := by
      refine List.all_eq_true.2 fun e he => ?_
      obtain ⟨p, name, answer, rfl⟩ := hs.queries e he
      rfl
    have hpainted : ((v.rendered now table).painting ++ [showed .swapBuffers swapped, drew .drainErrors codes]).all
        isSteady = true := steady_append (painting_steady _) rfl
    refine ⟨rfl, rfl, ?_⟩
    exact steady_append (t := [_]) rfl (steady_append hqueries (steady_append (t := [_]) rfl hpainted))

/-- Opening says nothing of mode and visibility; the mode is windowed, with the size of the options to come back to. -/
theorem opened_follows (o : Options) (order : Uniform.Order) (files : Files.Tree) :
    (opened o order : Run σ (Except OpenError Viewer)).Follows files fun r t _ =>
      t.all isSteady = true ∧ ∀ v, r = .ok v → v.display = .initial o.windowSize ∧ v.startFullscreen = o.fullscreen := by
  refine .bind (openWindow_steady o.title o.windowSize o.version files) fun made t f ht => ?_
  match made with
  | .error _ => exact .pure ⟨by rw [List.append_nil]; exact ht, fun _ h => by cases h⟩
  | .ok () =>
    refine .ask fun now => .pure ⟨steady_append ht rfl, fun v h => ?_⟩
    cases h
    exact ⟨rfl, rfl⟩

/-! ## Changing the mode -/

/-- The key that changes the mode is struck. -/
abbrev modeKey : Entry := .event (.window (.keyboard (some .f11) true false))

/-- **The ways in which a change of mode can go**: the size of the window is read; it is remembered on the way to
fullscreen mode, and asked for again on the way back. -/
inductive Toggles (v : Viewer) : Viewer → Trace → Prop
  | entered (size : Size) :
    v.display.mode = .windowed →
      Toggles v { v with display := ⟨.fullscreen, if size.isEmpty then v.display.windowedSize else size⟩ }
        [showed .innerSize size, showed (.setFullscreen true) ()]
  | left (size : Size) (applied : Option Size) {w : Viewer} {t : Trace} :
    v.display.mode = .fullscreen → Rests { v with display := { v.display with mode := .windowed } } w t →
      Toggles v w (showed .innerSize size :: showed (.setFullscreen false) () ::
        showed (.requestSize v.display.windowedSize) applied :: t)

theorem toggleFullscreen_calls (v : Viewer) : (v.toggleFullscreen : Run σ Viewer).Calls (Toggles v) := by
  intro files
  refine .ask fun size => ?_
  cases hmode : v.display.mode with
  | windowed =>
    have htoggle : v.display.toggle size =
        (.enterFullscreen, ⟨.fullscreen, if size.isEmpty then v.display.windowedSize else size⟩) := by
      unfold DisplayState.toggle
      rw [hmode]
    rw [htoggle]
    exact .ask fun _ => .pure ⟨.entered size hmode, rfl⟩
  | fullscreen =>
    have htoggle : v.display.toggle size =
        (.leaveFullscreen v.display.windowedSize, { v.display with mode := .windowed }) := by
      unfold DisplayState.toggle
      rw [hmode]
    rw [htoggle]
    refine .ask fun _ => .ask fun applied => ?_
    match applied with
    | none => exact .pure ⟨.left size none hmode ⟨rfl, rfl, rfl⟩, rfl⟩
    | some told => exact (resize_calls _ told files).mono fun w t f h => ⟨.left size (some told) hmode h.1.rests, h.2⟩

/-- **What an event does to mode and visibility**: nothing, unless it is a stroke of the key for the mode. -/
inductive Motion (v : Viewer) : Viewer → Trace → Prop
  | rested {w : Viewer} {t : Trace} : Rests v w t → Motion v w t
  | toggled {w : Viewer} {t : Trace} : Toggles v w t → Motion v w (modeKey :: t)

inductive Motions : Viewer → Viewer → Trace → Prop
  | nil (v : Viewer) : Motions v v []
  | cons {u v w : Viewer} {s t : Trace} : Motion u v s → Motions v w t → Motions u w (s ++ t)

theorem Motion.motions (h : Motion v w t) : Motions v w t := by
  have hone := Motions.cons h (.nil w)
  rwa [List.append_nil] at hone

theorem Rests.motion_cons {e : Entry} (he : isSteady e = true) (h : Rests v w t) : Motion v w (e :: t) :=
  .rested ⟨h.display, h.starts, by rw [List.all_cons, he, h.steady]; rfl⟩

theorem performed_rests {files : Files.Tree} {op : Program.Slot.Operation}
    {r : Except Program.BuildError Unit × Program.Slot} (h : Program.Slot.Performs v.programs files op r t) :
    Rests v { v with programs := r.2 } t :=
  ⟨rfl, rfl, steady_of_objects h.all_objects⟩

theorem act_motion {e : Entry} (he : isSteady e = true) (v : Viewer) (action : KeyAction)
    (hkey : action = .toggleFullscreen → e = modeKey) (files : Files.Tree) :
    (v.act action : Run σ (Viewer × Bool)).Follows files fun r t _ => Motion v r.1 (e :: t) := by
  have hperform : ∀ op : Program.Slot.Operation,
      (v.programs.perform op >>= fun r => pure ({ v with programs := r.2 }, false) : Run σ (Viewer × Bool)).Follows
        files fun r t _ => Motion v r.1 (e :: t) := by
    intro op
    refine .bind (Program.Slot.perform_follows v.programs files op) fun r t f h => .pure ?_
    rw [List.append_nil]
    exact (performed_rests h).motion_cons he
  have hdone : ∀ w : Viewer, w.display = v.display → w.startFullscreen = v.startFullscreen → Motion v w [e] :=
    fun w hd hs => Rests.motion_cons he ⟨hd, hs, rfl⟩
  cases action with
  | exit => exact .ask fun _ => .pure (Rests.motion_cons he ⟨rfl, rfl, rfl⟩)
  | hotSwap => exact hperform .hotSwap
  | fullReload => exact hperform .reload
  | toggleSync =>
    refine .calls (applySync_calls _) fun _ t ht => .pure ?_
    obtain ⟨set, rfl⟩ := ht
    exact Rests.motion_cons he ⟨rfl, rfl, rfl⟩
  | toggleFullscreen =>
    obtain rfl := hkey rfl
    refine .calls (toggleFullscreen_calls v) fun w t h => .pure ?_
    rw [List.append_nil]
    exact .toggled h
  | resetInput | toggleFlag _ | zoomIn | zoomOut | cycleMode | increment | decrement | pan _ =>
    exact .pure (hdone _ rfl rfl)

/-- Only one key changes the mode, with or without Shift held. -/
theorem eq_f11_of_action {key : Key} {shift : Bool} (h : key.action? shift = some .toggleFullscreen) : key = .f11 := by
  cases key with
  | f11 => rfl
  | f5 => cases shift <;> cases h
  | _ => cases h

theorem handleKey_motion (v : Viewer) (key : Key) (pressed held : Bool) (files : Files.Tree) :
    (v.handleKey key pressed held : Run σ (Viewer × Bool)).Follows files fun r t _ =>
      Motion v r.1 (.event (.window (.keyboard (some key) pressed held)) :: t) := by
  unfold handleKey
  split
  · exact .pure (Rests.motion_cons rfl ⟨rfl, rfl, rfl⟩)
  · exact .pure (Rests.motion_cons rfl ⟨rfl, rfl, rfl⟩)
  · next action _ haction =>
    split
    · exact .pure (Rests.motion_cons rfl ⟨rfl, rfl, rfl⟩)
    · next htaken =>
      refine act_motion rfl v action (fun htoggle => ?_) files
      subst htoggle
      obtain rfl := eq_f11_of_action haction
      have hstruck : pressed = true ∧ held = false := by simpa [KeyAction.repeats] using htaken
      rw [hstruck.1, hstruck.2]

theorem handleEvent_motion (v : Viewer) (event : Event) (files : Files.Tree) :
    (v.handleEvent event : Run σ (Viewer × Bool)).Follows files fun r t _ => Motion v r.1 (.event event :: t) := by
  match event with
  | .foreign _ | .unhandled | .window (.modifiersChanged _) | .window (.keyboard none _ _)
  | .window (.mouseButton none _) | .window (.mouseButton (some _) _) | .window (.wheelLines _ _)
  | .window (.wheelPixels _ _) | .window .unhandled => exact .pure (Rests.motion_cons rfl ⟨rfl, rfl, rfl⟩)
  | .window .closeRequested | .window (.cursorMoved _ _) =>
    exact .ask fun _ => .pure (Rests.motion_cons rfl ⟨rfl, rfl, rfl⟩)
  | .aboutToWait => exact .ask fun _ => .ask fun _ => .pure (Rests.motion_cons rfl ⟨rfl, rfl, rfl⟩)
  | .window (.keyboard (some key) pressed held) => exact handleKey_motion v key pressed held files
  | .window (.resized size) =>
    refine .calls (resize_calls v size) fun w t h => .pure ?_
    rw [List.append_nil]
    exact h.rests.motion_cons rfl
  | .window .redrawRequested =>
    refine .calls (renderFrame_calls v) fun w t h => .pure ?_
    rw [List.append_nil]
    exact h.rests.motion_cons rfl

/-! ## Runs -/

theorem during_motions : ∀ (v : Viewer) (happenings : List (Happening σ)) (files : Files.Tree),
    (v.during happenings).Follows files fun r t _ => Motions v r.1 t
  | v, [], _ => .pure (.nil v)
  | v, .change change :: happenings, files => .interlude (during_motions v happenings (change.files files))
  | v, .event event :: happenings, files => by
    refine .deliver (.bind (handleEvent_motion v event files) fun r t f h => ?_)
    match r with
    | (w, true) =>
      refine .pure ?_
      rw [List.append_nil]
      exact h.motions
    | (w, false) =>
      refine (during_motions w happenings f).mono fun r u _ hrest => ?_
      exact Motions.cons h hrest

theorem loop_motions (v : Viewer) (happenings : List (Happening σ)) (files : Files.Tree) :
    (v.loop happenings).Follows files fun w t _ => Motions v w t := by
  rw [← List.append_nil happenings, loop_append]
  refine .bind (during_motions v happenings files) fun r t f h => ?_
  split
  · refine .pure ?_
    rw [List.append_nil]
    exact h
  · refine .pure ?_
    rw [List.append_nil]
    exact h

/-- **The ways in which a run can begin**: the window is shown, and goes fullscreen at once if that is still to be
done. -/
inductive Begins (v : Viewer) : Viewer → Trace → Prop
  | plain (title : String) (policy : SyncPolicy) (set : Except String Unit) {w : Viewer} {t : Trace} :
    v.startFullscreen = false → Rests v w t →
      Begins v w (showed (.setTitle title) () :: showed (.setVisible true) () :: showed (.swapInterval policy) set :: t)
  | full (title : String) (policy : SyncPolicy) (set : Except String Unit) {u w : Viewer} {s t : Trace} :
    v.startFullscreen = true → Toggles { v with startFullscreen := false } u s → Rests u w t →
      Begins v w (showed (.setTitle title) () :: showed (.setVisible true) () ::
        (s ++ showed (.swapInterval policy) set :: t))

theorem beginRun_calls (v : Viewer) : (v.beginRun : Run σ Viewer).Calls (Begins v) := by
  intro files
  have hend : ∀ w : Viewer, (do
      w.applySync
      let size ← screen .innerSize
      let w ← w.resize size
      let now ← screen .now
      screen .requestRedraw
      return { w with clock := .startingAt now } : Run σ Viewer).Calls fun x t =>
        ∃ policy set u, t = showed (.swapInterval policy) set :: u ∧ Rests w x u := by
    refine fun w files => .calls w.applySync_calls fun _ t ht => .ask fun size => ?_
    obtain ⟨set, rfl⟩ := ht
    refine .calls (resize_calls w size) fun x u h => .ask fun now => .ask fun _ => .pure ⟨⟨_, set, _, rfl, ?_⟩, rfl⟩
    obtain ⟨hdisplay, hstarts, hsteady⟩ := h.rests
    exact ⟨hdisplay, hstarts, steady_append (t := [_]) rfl (steady_append hsteady rfl)⟩
  refine .ask fun _ => .ask fun _ => ?_
  split
  · next hstarts =>
    refine .calls (toggleFullscreen_calls _) fun u s hs => (hend u files).mono fun w t f h => ⟨?_, h.2⟩
    obtain ⟨policy, set, t, rfl, ht⟩ := h.1
    exact .full _ policy set hstarts hs ht
  · next hstarts =>
    refine (hend v files).mono fun w t f h => ⟨?_, h.2⟩
    obtain ⟨policy, set, t, rfl, ht⟩ := h.1
    exact .plain _ policy set (Bool.not_eq_true _ ▸ hstarts) ht

/-- **A run**, whether or not its loop can be entered. -/
inductive Shows (v : Viewer) : Viewer → Trace → Prop
  | shown (started : Except String Unit) {u w : Viewer} {s t : Trace} :
    Begins v u s → Motions u w t →
      Shows v w (s ++ showed .runLoop started :: (t ++ [showed (.setVisible false) ()]))

theorem run_shows (v : Viewer) (happenings : List (Happening σ)) (files : Files.Tree) :
    (v.run happenings).Follows files fun r t _ => Shows v r.2 t := by
  refine .calls (beginRun_calls v) fun w s hbegins => .ask fun started => ?_
  match started with
  | .error message => exact .ask fun _ => .pure (.shown (.error message) hbegins (.nil w))
  | .ok () =>
    refine .bind (loop_motions w happenings files) fun x t f h => .ask fun _ => .pure ?_
    exact .shown (.ok ()) hbegins h

/-! ## Sessions -/

/-- What a turn does: only a run shows the window. -/
def Takes (v : Viewer) : Turn σ → Viewer → Trace → Prop
  | .run _ => Shows v
  | .load _ | .unload | .change _ => Rests v

theorem loadShader_rests (v : Viewer) (name : String) (files : Files.Tree) :
    (v.loadShader name : Run σ (Except Program.BuildError Unit × Viewer)).Follows files fun r t _ => Rests v r.2 t := by
  refine .bind (Program.Slot.perform_follows v.programs files (.load name)) fun r t f h => .pure ?_
  rw [List.append_nil]
  exact performed_rests h

theorem unload_rests (v : Viewer) (files : Files.Tree) :
    (v.unload : Run σ Viewer).Follows files fun w t _ => Rests v w t := by
  refine .calls (Program.Slot.teardown_calls v.programs) fun s t h => .pure ?_
  obtain ⟨rfl, rfl⟩ := h
  rw [List.append_nil]
  exact performed_rests (.teardown : Program.Slot.Performs v.programs files _ _ _)

theorem take_takes (v : Viewer) (turn : Turn σ) (files : Files.Tree) :
    (v.take turn).Follows files fun w t _ => Takes v turn w t := by
  match turn with
  | .load name =>
    refine .bind (loadShader_rests v name files) fun r t f h => .pure ?_
    rw [List.append_nil]
    exact h
  | .unload => exact unload_rests v files
  | .run happenings =>
    refine .bind (run_shows v happenings files) fun r t f h => .pure ?_
    rw [List.append_nil]
    exact h
  | .change change => exact .interlude (.pure ⟨rfl, rfl, rfl⟩)

/-- **A session up to some moment at which it is not running**: a viewer is opened and takes its turns. -/
def resting (o : Options) (order : Uniform.Order) (turns : List (Turn σ)) : Run σ (Except OpenError Viewer) := do
  match ← opened o order with
  | .error e => return .error e
  | .ok v => return .ok (← v.takeAll turns)

end Viewer
end Window
end LiveShader
