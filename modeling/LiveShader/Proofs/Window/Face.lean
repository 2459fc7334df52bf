import LiveShader.Proofs.Window.Motion
/-!
# Proofs.Window.Face — mode and visibility of a window, as its calls show them

A `Face` is read off a trace alone.  Between any two turns of a session, and between any two events of a run, a viewer
`Faces` its window: the mode that it records is the one that it asked for last, and the size to come back to is the one
that the window had when it last went fullscreen with a size worth remembering.  What every single call does there is
`Mannered`.
-/
namespace LiveShader
namespace Window

open Machine

variable {σ : Type}

/-! ## What calls show -/

/-- Mode and visibility of a window, which is made hidden and windowed. -/
structure Face where
  visible : Bool := false
  /-- It has been visible. -/
  shown : Bool := false
  fullscreen : Bool := false
  /-- The size that it reported last. -/
  reported : Option Size := none
  /-- The sizes that it reported when it went fullscreen, latest first. -/
  entries : List Size := []
deriving DecidableEq

namespace Face

def enterScreen (f : Face) : (r : ScreenRequest) → r.Answer → Face
  | .setVisible visible, _ => { f with visible, shown := f.shown || visible }
  | .innerSize, size => { f with reported := some size }
  | .setFullscreen true, _ => { f with fullscreen := true, entries := f.reported.toList ++ f.entries }
  | .setFullscreen false, _ => { f with fullscreen := false }
  | _, _ => f

def enter (f : Face) : Entry → Face
  | .call ⟨.screen r, a⟩ => f.enterScreen r a
  | _ => f

def after (f : Face) (t : Trace) : Face := t.foldl enter f

@[simp] theorem after_nil (f : Face) : f.after [] = f := rfl

@[simp] theorem after_cons (f : Face) (e : Entry) (t : Trace) : f.after (e :: t) = (f.enter e).after t := rfl

@[simp] theorem after_append (f : Face) (t u : Trace) : f.after (t ++ u) = (f.after t).after u := List.foldl_append

/-- **The size to come back to**: the one at the most recent entry into fullscreen mode at which no dimension was zero,
or a given one. -/
def restoring (f : Face) (configured : Size) : Size := (f.entries.find? fun size => !size.isEmpty).getD configured

theorem restoring_entered (f : Face) (size configured : Size) :
    ({ f with entries := size :: f.entries } : Face).restoring configured =
      if size.isEmpty then f.restoring configured else size := by
  unfold restoring
  cases hempty : size.isEmpty with
  | true => rw [List.find?_cons_of_neg (by simp [hempty]), if_pos rfl]
  | false => rw [List.find?_cons_of_pos (by simp [hempty]), if_neg (by simp)]; rfl

/-- No size with a zero dimension is come back to, unless it is the given one. -/
theorem isEmpty_restoring (f : Face) {configured : Size} (h : configured.isEmpty = false) :
    (f.restoring configured).isEmpty = false := by
  unfold restoring
  cases hfound : f.entries.find? fun size => !size.isEmpty with
  | none => exact h
  | some size => simpa using List.find?_some hfound

theorem enter_of_steady (f : Face) {e : Entry} (h : isSteady e = true) : ∃ reported, f.enter e = { f with reported } := by
  match e with
  | .event _ => exact ⟨f.reported, rfl⟩
  | .call ⟨.draw _, _⟩ => exact ⟨f.reported, rfl⟩
  | .call ⟨.pipeline _, _⟩ => exact ⟨f.reported, rfl⟩
  | .call ⟨.screen r, a⟩ =>
    cases r with
    | setVisible _ | setFullscreen _ | requestSize _ => cases h
    | innerSize => exact ⟨some a, rfl⟩
    | _ => exact ⟨f.reported, rfl⟩

/-- Steady entries change nothing but the size that was reported last. -/
theorem after_of_steady (f : Face) {t : Trace} (h : t.all isSteady = true) :
    ∃ reported, f.after t = { f with reported } := by
  induction t generalizing f with
  | nil => exact ⟨f.reported, rfl⟩
  | cons e t ih =>
    rw [List.all_cons, Bool.and_eq_true] at h
    obtain ⟨reported, hfirst⟩ := f.enter_of_steady h.1
    obtain ⟨reported', hrest⟩ := ih { f with reported } h.2
    exact ⟨reported', by rw [after_cons, hfirst, hrest]⟩

end Face

def face (t : Trace) : Face := Face.after {} t

theorem face_append (t u : Trace) : face (t ++ u) = (face t).after u := Face.after_append ..

/-! ## Calls in their places -/

/-- **What a change of mode comes from**: the key for it was struck, or a window that is to start in fullscreen mode was
shown for the first time; then its size was read. -/
inductive Called (o : Options) : Bool → Trace → Prop
  | struck (full : Bool) (past : Trace) (size : Size) : Called o full (past ++ [Viewer.modeKey, showed .innerSize size])
  | started (past : Trace) (size : Size) :
    o.fullscreen = true → (face past).shown = false →
      Called o true (past ++ [showed (.setVisible true) (), showed .innerSize size])

/-- **What a call that concerns mode or visibility comes from, and what comes next.**  Leaving fullscreen mode asks for
the size to come back to, and nothing else asks for a size; showing the window goes on in fullscreen mode if that was
asked for and it is the first time, and goes on with the swap interval otherwise. -/
def Mannered (o : Options) (past : Trace) (e : Entry) (post : Trace) : Prop :=
  match e with
  | .call ⟨.screen (.setFullscreen full), _⟩ =>
    Called o full past ∧ (full = false → ∃ applied rest,
      post = showed (.requestSize ((face past).restoring o.windowSize)) applied :: rest)
  | .call ⟨.screen (.requestSize size), _⟩ =>
    (∃ before, past = before ++ [showed (.setFullscreen false) ()]) ∧ size = (face past).restoring o.windowSize
  | .call ⟨.screen (.setVisible true), _⟩ =>
    if o.fullscreen && !(face past).shown then
      ∃ size rest, post = showed .innerSize size :: showed (.setFullscreen true) () :: rest
    else ∃ policy set rest, post = showed (.swapInterval policy) set :: rest
  | _ => True

section

variable {o : Options} {past t u : Trace} {e : Entry}

theorem mannered_of_steady (h : isSteady e = true) (past post : Trace) : Mannered o past e post := by
  match e with
  | .event _ => trivial
  | .call ⟨.draw _, _⟩ => trivial
  | .call ⟨.pipeline _, _⟩ => trivial
  | .call ⟨.screen r, _⟩ =>
    cases r with
    | setVisible _ | setFullscreen _ | requestSize _ => cases h
    | _ => trivial

theorem around_of_steady (h : t.all isSteady = true) (past : Trace) : Around (Mannered o) past t :=
  .of_all fun e he past post => mannered_of_steady (List.all_eq_true.1 h e he) past post

/-- What is asked of a call that shows the window. -/
theorem mannered_shown {post : Trace} : Mannered o past (showed (.setVisible true) ()) post ↔
    if o.fullscreen && !(face past).shown then
      ∃ size rest, post = showed .innerSize size :: showed (.setFullscreen true) () :: rest
    else ∃ policy set rest, post = showed (.swapInterval policy) set :: rest := Iff.rfl

/-- Only what comes next at once is asked about. -/
theorem Mannered.more (past : Trace) (e : Entry) (post more : Trace) (h : Mannered o past e post) :
    Mannered o past e (post ++ more) := by
  match e with
  | .event _ => trivial
  | .call ⟨.draw _, _⟩ => trivial
  | .call ⟨.pipeline _, _⟩ => trivial
  | .call ⟨.screen r, a⟩ =>
    cases r with
    | requestSize _ => exact h
    | setFullscreen full =>
      refine ⟨h.1, fun hleaves => ?_⟩
      obtain ⟨applied, rest, rfl⟩ := h.2 hleaves
      exact ⟨applied, rest ++ more, rfl⟩
    | setVisible visible =>
      cases visible with
      | false => trivial
      | true =>
        rw [mannered_shown] at h ⊢
        by_cases hstarts : (o.fullscreen && !(face past).shown) = true
        · rw [if_pos hstarts] at h ⊢
          obtain ⟨size, rest, rfl⟩ := h
          exact ⟨size, rest ++ more, rfl⟩
        · rw [if_neg hstarts] at h ⊢
          obtain ⟨policy, set, rest, rfl⟩ := h
          exact ⟨policy, set, rest ++ more, rfl⟩
    | _ => trivial

theorem around_append (ht : Around (Mannered o) past t) (hu : Around (Mannered o) (past ++ t) u) :
    Around (Mannered o) past (t ++ u) := ht.append Mannered.more hu

end

namespace Viewer

/-! ## Facing a window -/

/-- **What a viewer records of its window** is what the calls so far show. -/
structure Faces (o : Options) (shows : Bool) (past : Trace) (v : Viewer) : Prop where
  visible : (face past).visible = shows
  /-- The mode that was asked for last is the recorded one. -/
  mode : (face past).fullscreen = true ↔ v.display.mode = .fullscreen
  /-- The recorded size is the one to come back to. -/
  size : v.display.windowedSize = (face past).restoring o.windowSize
  /-- Going fullscreen at the start is still to be done as long as the window was not shown. -/
  starts : v.startFullscreen = (o.fullscreen && !(face past).shown)
  fresh : (face past).shown = false → shows = false ∧ v.display.mode = .windowed

variable {o : Options} {b : Bool} {past s t : Trace} {u v w : Viewer}

theorem Faces.shown (h : Faces o true past v) : (face past).shown = true := by
  cases hshown : (face past).shown with
  | true => rfl
  | false => cases (h.fresh hshown).1

theorem Faces.rested (h : Faces o b past v) (ht : Rests v w t) : Faces o b (past ++ t) w := by
  obtain ⟨reported, hface⟩ := (face past).after_of_steady ht.steady
  constructor
  · rw [face_append, hface]
    exact h.visible
  · rw [face_append, hface, ht.display]
    exact h.mode
  · rw [face_append, hface, ht.display]
    exact h.size
  · rw [face_append, hface, ht.starts]
    exact h.starts
  · rw [face_append, hface, ht.display]
    exact h.fresh

/-- **A change of mode** of a window that is shown, if it comes from where it may: what is recorded stays what the calls
show, and the size that is asked for on leaving fullscreen mode is the one to come back to. -/
theorem Faces.toggled (h : Faces o true past v) (ht : Toggles v w t)
    (hcalled : ∀ full size, (full = false → v.display.mode = .fullscreen) →
      Called o full (past ++ [showed .innerSize size])) :
    Faces o true (past ++ t) w ∧ Around (Mannered o) past t := by
  have hshown := h.shown
  cases ht with
  | entered size hmode =>
    constructor
    · have hface : face (past ++ [showed .innerSize size, showed (.setFullscreen true) ()]) =
          { face past with reported := some size, fullscreen := true, entries := size :: (face past).entries } := by
        rw [face_append]
        rfl
      have hsize := (face past).restoring_entered size o.windowSize
      constructor
      · rw [hface]
        exact h.visible
      · rw [hface]
        exact ⟨fun _ => rfl, fun _ => rfl⟩
      · rw [hface]
        show (if size.isEmpty then v.display.windowedSize else size) = _
        rw [h.size]
        exact hsize.symm
      · rw [hface]
        exact h.starts
      · rw [hface]
        exact fun hfresh => absurd hshown (by rw [hfresh]; decide)
    · refine .cons trivial (.cons ⟨hcalled true size nofun, nofun⟩ .nil)
  | @left size applied w t hmode hrests =>
    have hface : ∀ size applied, face (past ++ [showed .innerSize size, showed (.setFullscreen false) (),
        showed (.requestSize v.display.windowedSize) applied]) =
          { face past with reported := some size, fullscreen := false } := by
      intro size applied
      rw [face_append]
      rfl
    constructor
    · have hleft : Faces o true (past ++ [showed .innerSize size, showed (.setFullscreen false) (),
          showed (.requestSize v.display.windowedSize) applied])
            { v with display := { v.display with mode := .windowed } } := by
        constructor
        · rw [hface]
          exact h.visible
        · rw [hface]
          exact ⟨nofun, nofun⟩
        · rw [hface]
          exact h.size
        · rw [hface]
          exact h.starts
        · rw [hface]
          exact fun hfresh => absurd hshown (by rw [hfresh]; decide)
      have hdone := hleft.rested hrests
      rw [List.append_assoc] at hdone
      exact hdone
    · have hread : v.display.windowedSize =
          (face (past ++ [showed .innerSize size])).restoring o.windowSize := by
        rw [face_append, h.size]
        rfl
      have hleft : v.display.windowedSize =
          (face (past ++ [showed .innerSize size] ++ [showed (.setFullscreen false) ()])).restoring o.windowSize := by
        rw [face_append, face_append, h.size]
        rfl
      refine .cons trivial (.cons ⟨hcalled false size fun _ => hmode, fun _ => ⟨applied, t, by rw [← hread]⟩⟩ ?_)
      exact .cons ⟨⟨_, rfl⟩, hleft⟩ (around_of_steady hrests.steady _)

theorem Motion.faces (hm : Motion v w t) (h : Faces o true past v) :
    Faces o true (past ++ t) w ∧ Around (Mannered o) past t := by
  cases hm with
  | rested hrests => exact ⟨h.rested hrests, around_of_steady hrests.steady past⟩
  | @toggled t ht =>
    have hstruck : Faces o true (past ++ [modeKey]) v := h.rested ⟨rfl, rfl, rfl⟩
    obtain ⟨hfaces, haround⟩ := hstruck.toggled ht fun full size _ => by
      rw [List.append_assoc]
      exact .struck full past size
    rw [List.append_assoc] at hfaces
    exact ⟨hfaces, .cons trivial haround⟩

/-- **Whatever happens in a run**, the viewer faces its window, and every call is in its place. -/
theorem Motions.faces (hm : Motions v w t) (h : Faces o true past v) :
    Faces o true (past ++ t) w ∧ Around (Mannered o) past t := by
  induction hm generalizing past with
  | nil v =>
    rw [List.append_nil]
    exact ⟨h, .nil⟩
  | cons hmotion _ ih =>
    obtain ⟨hmid, hfirst⟩ := hmotion.faces h
    obtain ⟨hend, hrest⟩ := ih hmid
    rw [List.append_assoc] at hend
    exact ⟨hend, around_append hfirst hrest⟩

/-- Showing a window for the first time leaves nothing to be done at the start. -/
theorem Faces.shows (h : Faces o false past v) (title : String) :
    Faces o true (past ++ [showed (.setTitle title) (), showed (.setVisible true) ()]) { v with startFullscreen := false } := by
  have hface : face (past ++ [showed (.setTitle title) (), showed (.setVisible true) ()]) =
      { face past with visible := true, shown := (face past).shown || true } := by
    rw [face_append]
    rfl
  constructor
  · rw [hface]
  · rw [hface]
    exact h.mode
  · rw [hface]
    exact h.size
  · rw [hface]
    simp
  · rw [hface]
    exact fun hfresh => absurd hfresh (by simp)

theorem Toggles.of_windowed (h : Toggles v w t) (hmode : v.display.mode = .windowed) :
    ∃ size, t = [showed .innerSize size, showed (.setFullscreen true) ()] := by
  cases h with
  | entered size _ => exact ⟨size, rfl⟩
  | left _ _ hfull _ =>
    rw [hmode] at hfull
    cases hfull

/-- **A run that begins** goes fullscreen just if that is still to be done. -/
theorem Begins.faces (hb : Begins v w t) (h : Faces o false past v) :
    Faces o true (past ++ t) w ∧ Around (Mannered o) past t := by
  cases hb with
  | @plain title policy set _ t hstarts hrests =>
    have hsame : { v with startFullscreen := false } = v := by rw [← hstarts]
    have hshown := h.shows title
    rw [hsame] at hshown
    have hset : Rests v w (showed (.swapInterval policy) set :: t) :=
      (⟨rfl, rfl, rfl⟩ : Rests v v [showed (.swapInterval policy) set]).trans hrests
    have hfaces := hshown.rested hset
    rw [List.append_assoc] at hfaces
    refine ⟨hfaces, .cons trivial (.cons ?_ (around_of_steady hset.steady _))⟩
    have hnot : ¬ (o.fullscreen && !(face (past ++ [showed (.setTitle title) ()])).shown) = true := by
      rw [face_append]
      show ¬ (o.fullscreen && !(face past).shown) = true
      rw [← h.starts, hstarts]
      decide
    rw [mannered_shown, if_neg hnot]
    exact ⟨policy, set, t, rfl⟩
  | @full title policy set u _ s t hstarts htoggles hrests =>
    have hwanted : (o.fullscreen && !(face past).shown) = true := h.starts ▸ hstarts
    obtain ⟨hfull, hfirst⟩ : o.fullscreen = true ∧ (face past).shown = false := by simpa using hwanted
    have hfirst' : (face (past ++ [showed (.setTitle title) ()])).shown = false := by
      rw [face_append]
      exact hfirst
    obtain ⟨size, hs⟩ := Toggles.of_windowed htoggles (h.fresh hfirst).2
    obtain ⟨hentered, haround⟩ := (h.shows title).toggled htoggles fun full size hleaves => by
      cases full with
      | false =>
        have hmode : v.display.mode = .fullscreen := hleaves rfl
        rw [(h.fresh hfirst).2] at hmode
        cases hmode
      | true =>
        have hcalled := Called.started _ size hfull hfirst'
        rw [List.append_assoc] at hcalled ⊢
        exact hcalled
    have hset : Rests u w (showed (.swapInterval policy) set :: t) :=
      (⟨rfl, rfl, rfl⟩ : Rests u u [showed (.swapInterval policy) set]).trans hrests
    have hfaces := hentered.rested hset
    rw [List.append_assoc, List.append_assoc] at hfaces
    refine ⟨hfaces, .cons trivial (.cons ?_ ?_)⟩
    · rw [mannered_shown, if_pos (by rw [hfull, hfirst']; rfl), hs]
      exact ⟨size, _, rfl⟩
    · rw [List.append_assoc]
      exact around_append haround (around_of_steady hset.steady _)

theorem Faces.hidden (h : Faces o true past v) : Faces o false (past ++ [showed (.setVisible false) ()]) v := by
  have hface : face (past ++ [showed (.setVisible false) ()]) =
      { face past with visible := false, shown := (face past).shown || false } := by
    rw [face_append]
    rfl
  constructor
  · rw [hface]
  · rw [hface]
    exact h.mode
  · rw [hface]
    exact h.size
  · rw [hface]
    simpa using h.starts
  · rw [hface]
    intro hfresh
    exact absurd h.shown (by simpa using hfresh)

/-- **A whole run.** -/
theorem Shows.faces (hs : Shows v w t) (h : Faces o false past v) :
    Faces o false (past ++ t) w ∧ Around (Mannered o) past t := by
  cases hs with
  | @shown started u _ s t hbegins hmotions =>
    obtain ⟨hbegun, hfirst⟩ := hbegins.faces h
    have hstarted : Faces o true (past ++ s ++ [showed .runLoop started]) u := hbegun.rested ⟨rfl, rfl, rfl⟩
    obtain ⟨hfaces, hrest⟩ := hmotions.faces hstarted
    have hhidden := hfaces.hidden
    simp only [List.append_assoc, List.cons_append, List.nil_append] at hhidden
    refine ⟨hhidden, around_append hfirst (.cons trivial (around_append hrest ?_))⟩
    exact .cons trivial .nil

theorem Takes.faces {turn : Turn σ} (ht : Takes v turn w t) (h : Faces o false past v) :
    Faces o false (past ++ t) w ∧ Around (Mannered o) past t := by
  match turn with
  | .run _ => exact Shows.faces ht h
  | .load _ | .unload | .change _ =>
    have hrests : Rests v w t := ht
    exact ⟨h.rested hrests, around_of_steady hrests.steady past⟩

/-! ## When the window is shown and hidden -/

/-- A trace that says nothing of the window's visibility. -/
def Unseen (t : Trace) : Prop := ∀ visible, showed (.setVisible visible) () ∉ t

theorem unseen_of_steady (h : t.all isSteady = true) : Unseen t := by
  intro visible hmem
  have hsteady := List.all_eq_true.1 h _ hmem
  cases hsteady

theorem Unseen.append (hs : Unseen s) (ht : Unseen t) : Unseen (s ++ t) :=
  fun visible hmem => (List.mem_append.1 hmem).elim (hs visible) (ht visible)

theorem Toggles.unseen (h : Toggles v w t) : Unseen t := by
  cases h with
  | entered size _ => exact fun visible hmem => by simp at hmem
  | left size applied _ hrests =>
    have hcalls : ∀ wanted : Size, Unseen [showed .innerSize size, showed (.setFullscreen false) (),
        showed (.requestSize wanted) applied] := fun _ visible hmem => by simp at hmem
    exact (hcalls _).append (unseen_of_steady hrests.steady)

theorem Motions.unseen (h : Motions v w t) : Unseen t := by
  induction h with
  | nil v => exact fun _ => List.not_mem_nil
  | cons hmotion _ ih =>
    refine Unseen.append ?_ ih
    cases hmotion with
    | rested hrests => exact unseen_of_steady hrests.steady
    | toggled ht => exact (unseen_of_steady (t := [modeKey]) rfl).append ht.unseen

theorem Begins.shows (h : Begins v w t) : ∃ title rest,
    t = showed (.setTitle title) () :: showed (.setVisible true) () :: rest ∧ Unseen rest := by
  cases h with
  | plain title policy set _ hrests =>
    exact ⟨title, _, rfl, (unseen_of_steady (t := [showed (.swapInterval policy) set]) rfl).append
      (unseen_of_steady hrests.steady)⟩
  | full title policy set _ ht hrests =>
    have hset := (unseen_of_steady (t := [showed (.swapInterval policy) set]) rfl).append (unseen_of_steady hrests.steady)
    exact ⟨title, _, rfl, ht.unseen.append hset⟩

/-- **What a turn does to visibility**: a run shows the window at its beginning and hides it at its end, in between and
in any other turn nothing is said of it. -/
def Spans : Turn σ → Trace → Prop
  | .run _, t => ∃ title within,
    t = showed (.setTitle title) () :: showed (.setVisible true) () :: (within ++ [showed (.setVisible false) ()]) ∧
      Unseen within
  | .load _, t | .unload, t | .change _, t => Unseen t

theorem Takes.spans {turn : Turn σ} (h : Takes v turn w t) : Spans turn t := by
  match turn with
  | .load _ | .unload | .change _ => exact unseen_of_steady (Rests.steady h)
  | .run _ =>
    cases (h : Shows v w t) with
    | shown started hbegins hmotions =>
      obtain ⟨title, rest, rfl, hrest⟩ := hbegins.shows
      have hstarted : Unseen [showed .runLoop started] := unseen_of_steady rfl
      refine ⟨title, rest ++ ([showed .runLoop started] ++ _), ?_, hrest.append (hstarted.append hmotions.unseen)⟩
      simp only [List.cons_append, List.nil_append, List.append_assoc]

/-! ## Sessions -/

theorem takeAll_faces (o : Options) : ∀ (v : Viewer) (turns : List (Turn σ)) (files : Files.Tree),
    (v.takeAll turns).Follows files fun w t _ =>
      (∀ past, Faces o false past v → Faces o false (past ++ t) w ∧ Around (Mannered o) past t) ∧
      ∃ spans, t = spans.flatten ∧ List.Forall₂ Spans turns spans
  | v, [], _ => by
    refine .pure ⟨fun past h => ?_, [], rfl, .nil⟩
    rw [List.append_nil]
    exact ⟨h, .nil⟩
  | v, turn :: turns, files => by
    refine .bind (take_takes v turn files) fun w t f ht => (takeAll_faces o w turns f).mono fun x u _ h => ?_
    obtain ⟨hfaces, spans, rfl, hspans⟩ := h
    refine ⟨fun past hv => ?_, t :: spans, rfl, .cons ht.spans hspans⟩
    obtain ⟨hw, hfirst⟩ := ht.faces hv
    obtain ⟨hx, hrest⟩ := hfaces _ hw
    rw [List.append_assoc] at hx
    exact ⟨hx, around_append hfirst hrest⟩

theorem faces_opened {o : Options} (ht : t.all isSteady = true) (hd : v.display = .initial o.windowSize)
    (hs : v.startFullscreen = o.fullscreen) : Faces o false t v := by
  obtain ⟨reported, hface⟩ := Face.after_of_steady {} ht
  have hface : face t = { reported } := hface
  constructor
  · rw [hface]
  · rw [hface, hd]
    exact ⟨nofun, nofun⟩
  · rw [hface, hd]
    rfl
  · rw [hface, hs]
    simp
  · rw [hface, hd]
    exact fun _ => ⟨rfl, rfl⟩

theorem resting_follows (o : Options) (order : Uniform.Order) (turns : List (Turn σ)) (files : Files.Tree) :
    (resting o order turns).Follows files fun r t _ => ∀ v, r = .ok v →
      Faces o false t v ∧ Around (Mannered o) [] t ∧
      ∃ opening spans, t = opening ++ spans.flatten ∧ Unseen opening ∧ List.Forall₂ Spans turns spans := by
  refine .bind (opened_follows o order files) fun made pre f hopened => ?_
  match made with
  | .error _ => exact .pure fun _ h => by cases h
  | .ok v =>
    obtain ⟨hdisplay, hstarts⟩ := hopened.2 v rfl
    refine .bind (takeAll_faces o v turns f) fun w t g h => .pure fun x hx => ?_
    cases hx
    obtain ⟨hfaces, spans, rfl, hspans⟩ := h
    obtain ⟨hrest, haround⟩ := hfaces pre (faces_opened hopened.1 hdisplay hstarts)
    rw [List.append_nil]
    refine ⟨hrest, around_append (around_of_steady hopened.1 []) haround, pre, spans, rfl, ?_, hspans⟩
    exact unseen_of_steady hopened.1

theorem showing_follows (v : Viewer) (happenings : List (Happening σ)) (files : Files.Tree) :
    (v.showing [] happenings).Follows files fun r t _ => ∃ u s m started,
      t = s ++ showed .runLoop started :: m ∧ Begins v u s ∧ Motions u r.1 m := by
  have hnoTurn : (v.takeAll [] : Run σ Viewer).Follows files fun w t f => w = v ∧ t = [] ∧ f = files :=
    .pure ⟨rfl, rfl, rfl⟩
  refine .bind hnoTurn fun w t f h => ?_
  obtain ⟨rfl, rfl, rfl⟩ := h
  refine .calls (beginRun_calls w) fun u s hbegins => .ask fun started => ?_
  match started with
  | .error message => exact .pure ⟨u, s, [], .error message, rfl, hbegins, .nil u⟩
  | .ok () =>
    refine (during_motions u happenings _).mono fun r m _ hmotions => ?_
    exact ⟨u, s, m, .ok (), rfl, hbegins, hmotions⟩

/-- **Mode and visibility over any session.**  Whatever was done with a viewer, on any host: as long as it is not running
its window is hidden, and at every moment of a run it is shown; at both the mode that was asked for last is the recorded
one.  Every run shows the window once and hides it once, whether or not its loop can be entered.  Every change of mode
and every size that is asked for is in its place (`Mannered`): so going fullscreen at the start is done at the first run
and never again, and leaving fullscreen mode asks for the size of the window at the last entry at which it had one, or
for the configured size, which has no zero dimension if that has none. -/
theorem resting_faces (o : Options) (order : Uniform.Order) (turns : List (Turn σ)) (host : Host σ) (state : σ)
    (files : Files.Tree) {v : Viewer} {world : World σ}
    (hrun : (resting o order turns).on host { host := state, files } = (.ok v, world)) :
    (Faces o false world.trace v ∧
      ∃ opening spans, world.trace = opening ++ spans.flatten ∧ Unseen opening ∧ List.Forall₂ Spans turns spans) ∧
    ∀ happenings : List (Happening σ),
      let now := (v.showing [] happenings).on host world
      (Faces o true now.2.trace now.1.1 ∧ ∃ title within, now.2.trace =
        world.trace ++ showed (.setTitle title) () :: showed (.setVisible true) () :: within ∧ Unseen within) ∧
      (∀ pre e post, now.2.trace = pre ++ e :: post → Mannered o pre e post) ∧
      (o.windowSize.isEmpty = false →
        ∀ size applied, showed (.requestSize size) applied ∈ now.2.trace → size.isEmpty = false) := by
  obtain ⟨past, hpast, hresting⟩ := resting_follows o order turns files host { host := state, files } rfl
  rw [hrun] at hpast hresting
  have hpast : world.trace = past := hpast
  subst hpast
  obtain ⟨hfaces, haround, hspans⟩ := hresting v rfl
  refine ⟨⟨hfaces, hspans⟩, fun happenings => ?_⟩
  intro now
  obtain ⟨t, ht, u, s, m, started, rfl, hbegins, hmotions⟩ := showing_follows v happenings world.files host world rfl
  have ht : now.2.trace = world.trace ++ (s ++ showed .runLoop started :: m) := ht
  obtain ⟨hbegun, hfirst⟩ := hbegins.faces hfaces
  have hstarted : Faces o true (world.trace ++ s ++ [showed .runLoop started]) u := hbegun.rested ⟨rfl, rfl, rfl⟩
  obtain ⟨hnow, hrest⟩ := hmotions.faces hstarted
  have hmannered : Around (Mannered o) [] now.2.trace := by
    rw [ht]
    exact around_append haround (around_append hfirst (.cons trivial hrest))
  have hplaces : ∀ pre e post, now.2.trace = pre ++ e :: post → Mannered o pre e post := hmannered
  refine ⟨⟨?_, ?_⟩, hplaces, fun hconfigured size applied hmem => ?_⟩
  · rw [List.append_assoc, List.append_assoc] at hnow
    rw [ht]
    exact hnow
  · obtain ⟨title, rest, rfl, hunseen⟩ := hbegins.shows
    have hstarting : Unseen (rest ++ ([showed .runLoop started] ++ m)) :=
      hunseen.append ((unseen_of_steady rfl).append hmotions.unseen)
    exact ⟨title, _, ht, hstarting⟩
  · obtain ⟨pre, post, hsplit⟩ := List.append_of_mem hmem
    obtain ⟨-, hsize⟩ := hplaces pre _ post hsplit
    rw [hsize]
    exact (face pre).isEmpty_restoring hconfigured

/-- The key for the mode, at some size of the window. -/
def strikeAt (windowSize : Size) : List (Happening Simulator.State) :=
  [.change { host := ({ · with windowSize }) }, .event (.window (.keyboard (some .f11) true false))]

/-- A run that leaves fullscreen mode and enters it again, the last time with a size that is not remembered, and one
whose loop cannot be entered. -/
def roundTrips : List (Turn Simulator.State) :=
  [.load "a", .run (strikeAt ⟨64, 48⟩ ++ strikeAt ⟨64, 48⟩ ++ strikeAt ⟨9, 9⟩ ++ strikeAt ⟨0, 9⟩),
    .change { host := (·.arm .run 1) }, .run []]

/-- A session that starts in fullscreen mode, up to the end of its second run. -/
@[irreducible] def returned : Except OpenError Viewer × World Simulator.State :=
  (resting { store := { root := "." }, fullscreen := true } .declared roundTrips).on timeHost
    { host := {}, files := Program.Slot.blankShader }

/-- What a third run shows in which the mode is changed once more. -/
def thirdRun (r : Except OpenError Viewer × World Simulator.State) : Face :=
  match r.1 with
  | .error _ => {}
  | .ok v => face ((v.showing [] (strikeAt ⟨9, 9⟩)).on timeHost r.2).2.trace

theorem resting_faces_returned : ∃ v, returned.1 = .ok v ∧
    let o : Options := { store := { root := "." }, fullscreen := true }
    thirdRun returned = ⟨true, true, false, some ⟨9, 9⟩, [⟨0, 9⟩, ⟨64, 48⟩, ⟨1280, 720⟩]⟩ ∧
    (Faces o false returned.2.trace v ∧ ∃ opening spans,
      returned.2.trace = opening ++ spans.flatten ∧ Unseen opening ∧ List.Forall₂ Spans roundTrips spans) ∧
    ∀ happenings : List (Happening Simulator.State),
      let now := (v.showing [] happenings).on timeHost returned.2
      (Faces o true now.2.trace now.1.1 ∧ ∃ title within, now.2.trace =
        returned.2.trace ++ showed (.setTitle title) () :: showed (.setVisible true) () :: within ∧ Unseen within) ∧
      (∀ pre e post, now.2.trace = pre ++ e :: post → Mannered o pre e post) ∧
      (o.windowSize.isEmpty = false →
        ∀ size applied, showed (.requestSize size) applied ∈ now.2.trace → size.isEmpty = false) := by
  have hrun : (resting { store := { root := "." }, fullscreen := true } .declared roundTrips).on timeHost
      { host := {}, files := Program.Slot.blankShader } = (returned.1, returned.2) := by
    rw [Prod.eta, returned]
  have hface : thirdRun returned = ⟨true, true, false, some ⟨9, 9⟩, [⟨0, 9⟩, ⟨64, 48⟩, ⟨1280, 720⟩]⟩ := by decide +kernel
  have hok : returned.1.toOption.isSome = true := by decide +kernel
  cases hreturned : returned.1 with
  | error e =>
    rw [hreturned] at hok
    cases hok
  | ok v =>
    rw [hreturned] at hrun
    exact ⟨v, rfl, hface, resting_faces _ _ _ _ _ _ hrun⟩

end Viewer
end Window
end LiveShader
