import LiveShader.Proofs.Window.Steps
/-!
# Proofs.Window.Handling — whatever a viewer is asked, it proceeds in steps

One lemma for each program of the viewer, up to `handleEvent_proceeds` for every event.
-/
namespace LiveShader
namespace Window

open Machine

variable {σ α β ε : Type}

/-! ## Opening -/

/-- A call that touches no object of the drawing library. -/
def isBareCall (e : Entry) : Bool := isBare e && Controls.isCall e

theorem bare_of_calls {t : Trace} (h : t.all isBareCall = true) : t.all isBare = true :=
  List.all_eq_true.2 fun e he => (Bool.and_eq_true_iff.1 (List.all_eq_true.1 h e he)).1

theorem ignores_of_bareCalls {t : Trace} (h : t.all isBareCall = true) : Controls.Ignores t :=
  Controls.ignores_of_calls (List.all_eq_true.2 fun e he => (Bool.and_eq_true_iff.1 (List.all_eq_true.1 h e he)).2)

/-- A program that touches no object, and nothing at all if it succeeds. -/
def Prepares (p : Run σ (Except ε α)) : Prop :=
  p.Calls fun r t => t.all isBareCall = true ∧ ∀ a, r = .ok a → Inert t

namespace Prepares

theorem pure_error (e : ε) : Prepares (Pure.pure (.error e) : Run σ (Except ε α)) :=
  fun _ => .pure ⟨⟨rfl, fun _ h => by cases h⟩, rfl⟩

theorem pure_ok (a : α) : Prepares (Pure.pure (.ok a) : Run σ (Except ε α)) :=
  fun _ => .pure ⟨⟨rfl, fun _ _ => ⟨rfl, fun _ => rfl⟩⟩, rfl⟩

theorem ask {r : Request} {k : r.Answer → Run σ (Except ε α)} (hbare : ∀ a, isBareCall (.call ⟨r, a⟩) = true)
    (hinert : ∀ a, Inert [.call ⟨r, a⟩]) (hk : ∀ a, Prepares (k a)) : Prepares (Machine.ask r >>= k) := by
  refine fun files => .ask fun a => (hk a files).mono fun b t f h => ⟨⟨?_, fun c hc => ?_⟩, h.2⟩
  · rw [List.all_cons, hbare, h.1.1]
    rfl
  · exact (hinert a).append (h.1.2 c hc)

theorem bind {p : Run σ (Except ε α)} {k : Except ε α → Run σ (Except ε β)} (hp : Prepares p)
    (herror : ∀ e, k (.error e) = Pure.pure (.error e)) (hok : ∀ a, Prepares (k (.ok a))) : Prepares (p >>= k) := by
  refine fun files => .calls hp fun r t ht => ?_
  match r with
  | .error e =>
    rw [herror]
    exact .pure ⟨⟨by rw [List.append_nil]; exact ht.1, fun _ h => by cases h⟩, rfl⟩
  | .ok a =>
    refine (hok a files).mono fun b u f h => ⟨⟨?_, fun c hc => ?_⟩, h.2⟩
    · rw [List.all_append, ht.1, h.1.1]
      rfl
    · exact (ht.2 a rfl).append (h.1.2 c hc)

end Prepares

theorem chooseConfig_prepares : Prepares (chooseConfig : Run σ (Except OpenError Unit)) := by
  refine .ask (fun _ => rfl) (fun _ => ⟨rfl, fun _ => rfl⟩) fun found => ?_
  match found with
  | .error _ => exact .pure_error _
  | .ok counts =>
    simp only
    split
    · exact .pure_error _
    · exact .ask (fun _ => rfl) (fun _ => ⟨rfl, fun _ => rfl⟩) fun _ => .pure_ok _

/-- The size that is read here is no size that the window is told. -/
theorem attachContext_prepares (version : GlVersion) : Prepares (attachContext version : Run σ (Except OpenError Unit)) := by
  refine fun files => .ask fun made => ?_
  match made with
  | .error _ => exact .ask fun _ => .pure ⟨⟨rfl, fun _ h => by cases h⟩, rfl⟩
  | .ok () =>
    refine .ask fun size => .ask fun made => ?_
    match made with
    | .error _ => exact .ask fun _ => .pure ⟨⟨rfl, fun _ h => by cases h⟩, rfl⟩
    | .ok () =>
      refine .ask fun made => ?_
      match made with
      | .error _ => exact .ask fun _ => .ask fun _ => .pure ⟨⟨rfl, fun _ h => by cases h⟩, rfl⟩
      | .ok () => exact .ask fun _ => .pure ⟨⟨rfl, fun _ _ => ⟨rfl, fun _ => rfl⟩⟩, rfl⟩

theorem prepareDrawing_calls : (prepareDrawing : Run σ Unit).Calls fun _ t => t.all isBareCall = true ∧ Inert t :=
  fun _ => .ask fun _ => .ask fun _ => .ask_last fun _ => ⟨⟨rfl, rfl, fun _ => rfl⟩, rfl⟩

theorem openWindow_prepares (title : String) (size : Size) (version : GlVersion) :
    Prepares (openWindow title size version : Run σ (Except OpenError Unit)) := by
  refine .ask (fun _ => rfl) (fun _ => ⟨rfl, fun _ => rfl⟩) fun made => ?_
  match made with
  | .error _ => exact .pure_error _
  | .ok () =>
    refine .bind chooseConfig_prepares (fun _ => rfl) fun _ => ?_
    refine .ask (fun _ => rfl) (fun _ => ⟨rfl, fun _ => rfl⟩) fun made => ?_
    match made with
    | false => exact .pure_error _
    | true =>
      refine .bind (attachContext_prepares version) (fun _ => rfl) fun _ files => ?_
      refine .calls prepareDrawing_calls fun _ t ht => .pure ?_
      rw [List.append_nil]
      exact ⟨⟨ht.1, fun _ _ => ht.2⟩, rfl⟩

namespace Viewer

structure Opened (order : Uniform.Order) (v : Viewer) : Prop where
  programs : ∃ recipe, v.programs = { recipe }
  uniforms : v.uniforms = .initial order
  quad : v.quad = none
  input : v.input = .initial

theorem opened_calls (o : Options) (order : Uniform.Order) :
    (opened o order : Run σ (Except OpenError Viewer)).Calls fun r t =>
      t.all isBareCall = true ∧ ∀ v, r = .ok v → Inert t ∧ Opened order v := by
  intro files
  refine .calls (openWindow_prepares o.title o.windowSize o.version) fun made t ht => ?_
  match made with
  | .error _ => exact .pure ⟨⟨by rw [List.append_nil]; exact ht.1, fun _ h => by cases h⟩, rfl⟩
  | .ok () =>
    refine .ask fun now => .pure ⟨⟨?_, fun v h => ?_⟩, rfl⟩
    · rw [List.all_append, ht.1]
      rfl
    · cases h
      exact ⟨(ht.2 () rfl).append ⟨rfl, fun _ => rfl⟩, ⟨_, rfl⟩, rfl, rfl, rfl⟩

/-- An opened viewer assembles sources as its options say. -/
theorem opened_recipe (o : Options) (order : Uniform.Order) :
    (opened o order : Run σ (Except OpenError Viewer)).Calls fun r _ =>
      ∀ v, r = .ok v → v.programs.recipe = ⟨o.store, o.version, o.dumpPath⟩ := by
  intro files
  refine .calls (openWindow_prepares o.title o.windowSize o.version) fun made t _ => ?_
  match made with
  | .error _ => exact .pure ⟨fun _ h => (by cases h), rfl⟩
  | .ok () =>
    refine .ask fun now => .pure ⟨fun v h => ?_, rfl⟩
    cases h
    rfl

/-! ## Programs of an open viewer -/

variable {pre : Trace}

theorem resize_proceeds {size : Size} (h : Offers size pre) (v : Viewer) :
    Proceeds pre v id (v.resize size : Run σ Viewer) :=
  fun files => (resize_calls v size files).mono fun _ _ _ hr => (Step.resized h hr.1).steps

theorem toggleFullscreen_proceeds (hpre : Calm pre) (hc : Controls.Ignores pre) (v : Viewer) :
    Proceeds pre v id (v.toggleFullscreen : Run σ Viewer) := by
  refine .ask fun current => ?_
  have hread := hpre.concat (e := showed .innerSize current) rfl fun _ => rfl
  have hcread : Controls.Ignores (pre ++ [showed .innerSize current]) := hc.append fun _ => rfl
  rcases v.display.toggle current with ⟨transition, display⟩
  cases transition with
  | enterFullscreen =>
    refine .ask fun _ => .still rfl rfl rfl (hread.concat rfl fun _ => rfl).inert ?_
    exact (hcread.append (fun _ => rfl) _).symm
  | leaveFullscreen restore =>
    refine .ask fun _ => ?_
    have hleft := hread.concat (e := showed (.setFullscreen false) ()) rfl fun _ => rfl
    have hcleft : Controls.Ignores (pre ++ [showed .innerSize current] ++ [showed (.setFullscreen false) ()]) :=
      hcread.append fun _ => rfl
    refine .ask fun applied => ?_
    match applied with
    | none =>
      refine .still rfl rfl rfl (hleft.concat rfl fun _ => rfl).inert ?_
      exact (hcleft.append (fun _ => rfl) _).symm
    | some size =>
      have hstill : Steps v { v with display } _ := Step.steps (.still rfl rfl rfl hleft.inert (hcleft _).symm)
      exact .after hstill (resize_proceeds (.requested restore) { v with display })

theorem applySync_calls (v : Viewer) :
    (v.applySync : Run σ Unit).Calls fun _ t => ∃ set, t = [showed (.swapInterval v.sync) set] :=
  fun _ => .ask fun set => .pure ⟨⟨set, rfl⟩, rfl⟩

theorem beginRun_proceeds (v : Viewer) : Proceeds [] v id (v.beginRun : Run σ Viewer) := by
  have hend : ∀ w : Viewer, Proceeds [] w id (do
      w.applySync
      let size ← screen .innerSize
      let w ← w.resize size
      let now ← screen .now
      screen .requestRedraw
      return { w with clock := .startingAt now } : Run σ Viewer) := by
    refine fun w => .calls w.applySync_calls fun _ t ht => .ask fun size => ?_
    obtain ⟨set, rfl⟩ := ht
    refine .bind (resize_proceeds (.read w.sync set) w) fun x => ?_
    exact .ask fun now => .ask fun _ => .still rfl rfl rfl ⟨rfl, fun _ => rfl⟩ rfl
  have hshown : Calm [showed (.setTitle v.titleFor) (), showed (.setVisible true) ()] := ⟨rfl, fun _ => rfl⟩
  refine .ask fun _ => .ask fun _ => ?_
  split
  · have hstill : Steps v { v with startFullscreen := false } [] :=
      Step.steps (.still rfl rfl rfl ⟨rfl, fun _ => rfl⟩ rfl)
    have hfull : Proceeds _ v id (toggleFullscreen { v with startFullscreen := false } : Run σ Viewer) :=
      .after hstill (toggleFullscreen_proceeds hshown (fun _ => rfl) _)
    exact Proceeds.bind hfull fun w => hend w
  · exact .after (t := []) (Step.steps (.still rfl rfl rfl hshown.inert rfl)) (hend v)

theorem act_proceeds (hpre : Calm pre) (v : Viewer) (action : KeyAction)
    (hc : ∀ c : Controls, c.after pre = c.act action) :
    Proceeds pre v Prod.fst (v.act action : Run σ (Viewer × Bool)) := by
  have hdone : ∀ {input : InputState}, input.controls = v.input.controls.act action →
      Proceeds pre v Prod.fst (pure ({ v with input }, false) : Run σ (Viewer × Bool)) :=
    fun hinput => .still rfl rfl rfl hpre.inert (hinput.trans (hc _).symm)
  have hperform : ∀ op : Program.Slot.Operation, op ≠ .bind → Controls.Ignores pre → Proceeds pre v Prod.fst
      (v.programs.perform op >>= fun r => pure ({ v with programs := r.2 }, false) : Run σ (Viewer × Bool)) := by
    intro op hop hignores
    have hstill : Steps v v pre := Step.steps (.still rfl rfl rfl hpre.inert (hignores _).symm)
    rw [← List.append_nil pre]
    exact .after hstill (.perform op hop fun _ => .pure (.nil _))
  cases action with
  | exit =>
    refine .ask fun _ => .still rfl rfl rfl (hpre.concat rfl fun _ => rfl).inert ?_
    exact (Controls.Ignores.append hc (fun _ => rfl) _).symm
  | hotSwap => exact hperform .hotSwap (fun h => by cases h) hc
  | fullReload => exact hperform .reload (fun h => by cases h) hc
  | toggleSync =>
    refine .calls (applySync_calls _) fun _ t ht => ?_
    obtain ⟨set, rfl⟩ := ht
    refine .still rfl rfl rfl (hpre.inert.append ⟨rfl, fun _ => rfl⟩) ?_
    exact (Controls.Ignores.append hc (fun _ => rfl) _).symm
  | toggleFullscreen => exact .bind (toggleFullscreen_proceeds hpre hc v) fun _ => .pure (.nil _)
  | resetInput => exact hdone (Controls.controls_reset _)
  | toggleFlag i => exact hdone (Controls.controls_toggleFlag _ i)
  | zoomIn => exact hdone rfl
  | zoomOut => exact hdone rfl
  | cycleMode => exact hdone rfl
  | increment => exact hdone rfl
  | decrement => exact hdone rfl
  | pan direction => exact hdone rfl

theorem handleKey_proceeds (v : Viewer) (key : Key) (pressed held : Bool) :
    Proceeds [.event (.window (.keyboard (some key) pressed held))] v Prod.fst
      (v.handleKey key pressed held : Run σ (Viewer × Bool)) := by
  have hpre : Calm [.event (.window (.keyboard (some key) pressed held))] := ⟨rfl, fun _ => rfl⟩
  have hkey := fun c : Controls => c.takeKey_eq key pressed held v.shift
  unfold handleKey
  split
  · next hnone =>
    rw [hnone] at hkey
    exact .still rfl rfl rfl hpre.inert (hkey _).symm
  · next direction hpan =>
    rw [hpan] at hkey
    exact .still rfl rfl rfl hpre.inert ((Controls.controls_setArrow _ _ _).trans (hkey _).symm)
  · next action hpan haction =>
    have htake : ∀ c : Controls, c.takeKey key pressed held =
        if !pressed || (held && !action.repeats) then c else c.act action := by
      intro c
      rw [hkey c, haction]
      cases action with
      | pan d => exact absurd rfl (hpan d)
      | _ => rfl
    split
    · next hrefused =>
      refine .still rfl rfl rfl hpre.inert ?_
      exact ((htake _).trans (if_pos hrefused)).symm
    · next htaken => exact act_proceeds hpre v action fun c => (htake c).trans (if_neg htaken)

theorem renderFrame_proceeds (v : Viewer) : Proceeds [] v id (v.renderFrame : Run σ Viewer) :=
  fun files => (renderFrame_calls v files).mono fun _ _ _ h => (Step.rendered h.1).steps

theorem handleWindowEvent_proceeds (v : Viewer) (event : WindowEvent) :
    Proceeds [.event (.window event)] v Prod.fst (v.handleWindowEvent event : Run σ (Viewer × Bool)) := by
  match event with
  | .closeRequested => exact .ask fun _ => .still rfl rfl rfl ⟨rfl, fun _ => rfl⟩ rfl
  | .resized size => exact .bind (resize_proceeds .event v) fun _ => .pure (.nil _)
  | .modifiersChanged shift => exact .still rfl rfl rfl ⟨rfl, fun _ => rfl⟩ rfl
  | .keyboard (some key) pressed held => exact handleKey_proceeds v key pressed held
  | .keyboard none _ _ => exact .still rfl rfl rfl ⟨rfl, fun _ => rfl⟩ rfl
  | .cursorMoved x y => exact .ask fun size => .still rfl rfl rfl ⟨rfl, fun _ => rfl⟩ rfl
  | .mouseButton (some slot) pressed =>
    exact .still rfl rfl rfl ⟨rfl, fun _ => rfl⟩ (Controls.controls_setButton _ _ _)
  | .mouseButton none _ => exact .still rfl rfl rfl ⟨rfl, fun _ => rfl⟩ rfl
  | .wheelLines _ y => exact .still rfl rfl rfl ⟨rfl, fun _ => rfl⟩ rfl
  | .wheelPixels _ y => exact .still rfl rfl rfl ⟨rfl, fun _ => rfl⟩ rfl
  | .redrawRequested =>
    have hstill : Steps v v [.event (.window .redrawRequested)] :=
      Step.steps (.still rfl rfl rfl ⟨rfl, fun _ => rfl⟩ rfl)
    exact .bind (.after (t := []) hstill (renderFrame_proceeds v)) fun _ => .pure (.nil _)
  | .unhandled => exact .still rfl rfl rfl ⟨rfl, fun _ => rfl⟩ rfl

/-- **Every event is handled in steps.** -/
theorem handleEvent_proceeds (v : Viewer) (event : Event) :
    Proceeds [.event event] v Prod.fst (v.handleEvent event : Run σ (Viewer × Bool)) := by
  match event with
  | .window event => exact handleWindowEvent_proceeds v event
  | .foreign _ => exact .still rfl rfl rfl ⟨rfl, fun _ => rfl⟩ rfl
  | .aboutToWait => exact .ask fun _ => .ask fun _ => .still rfl rfl rfl ⟨rfl, fun _ => rfl⟩ rfl
  | .unhandled => exact .still rfl rfl rfl ⟨rfl, fun _ => rfl⟩ rfl

theorem loadShader_proceeds (v : Viewer) (name : String) :
    Proceeds [] v Prod.snd (v.loadShader name : Run σ (Except Program.BuildError Unit × Viewer)) :=
  .perform (.load name) (fun h => by cases h) fun _ => .pure (.nil _)

theorem unload_proceeds (v : Viewer) : Proceeds [] v id (v.unload : Run σ Viewer) := by
  refine fun files => .calls (Program.Slot.teardown_calls v.programs) fun s t h => .pure ?_
  obtain ⟨rfl, rfl⟩ := h
  rw [List.append_nil]
  exact (Step.operated (fun h => by cases h) (.teardown : Program.Slot.Performs v.programs files _ _ _)).steps

end Viewer
end Window
end LiveShader
