import LiveShader.Proofs.Window.Sizing
/-!
# Proofs.Window.Custody — a viewer releases all that it makes, in time

Between any two steps of a viewer nothing is bound, no program is current, and what is live are the objects of its slot
and of its quad (`Custody`).  So every step is careful, and when the viewer is closed nothing is left
(`lifetime_balanced`).
-/
namespace LiveShader
namespace Window

open Machine
open Ledger (Along Fresh Permits)
open LiveShader.Uniform.Table (uploads)

variable {σ : Type}

/-! ## Careful traces -/

/-- A canvas on which nothing is bound, with a surface and room for what is there. -/
structure Clear (c : Canvas) : Prop where
  unbound : c.bound = []
  is_open : c.closed = false
  one_quad : c.arrays.length ≤ 1 ∧ c.buffers.length ≤ 1

theorem canvasOf_clear (quad : Option Quad) (size : Option Size) : Clear (canvasOf quad size) := by
  refine ⟨rfl, rfl, ?_⟩
  cases quad <;> simp [canvasOf]

/-- A careful trace that leaves ledger and canvas as they are. -/
structure Restores (L : Ledger) (c : Canvas) (t : Trace) : Prop where
  careful : Carefully L c t
  ledger : L.after t = L
  canvas : c.after t = c

section

variable {L : Ledger} {c : Canvas} {e : Entry} {t u : Trace}

theorem Restores.nil : Restores L c [] := ⟨trivial, rfl, rfl⟩

theorem Restores.before (ht : Restores L c t) (hu : Carefully L c u) : Carefully L c (t ++ u) := by
  rw [carefully_append, ht.ledger, ht.canvas]
  exact ⟨ht.careful, hu⟩

theorem Restores.append (ht : Restores L c t) (hu : Restores L c u) : Restores L c (t ++ u) := by
  refine ⟨ht.before hu.careful, ?_, ?_⟩
  · rw [Ledger.after_append, ht.ledger, hu.ledger]
  · rw [Canvas.after_append, ht.canvas, hu.canvas]

theorem enter_of_bare (h : isBare e = true) (L : Ledger) : L.enter e = L := by
  match e with
  | .event _ => rfl
  | .call ⟨.pipeline _, _⟩ => cases h
  | .call ⟨.draw _, _⟩ => rfl
  | .call ⟨.screen _, _⟩ => rfl

theorem room_of_bare (h : isBare e = true) (c : Canvas) :
    (c.enter e).arrays = c.arrays ∧ (c.enter e).buffers = c.buffers := by
  match e with
  | .event _ => exact ⟨rfl, rfl⟩
  | .call ⟨.pipeline _, _⟩ => cases h
  | .call ⟨.draw r, _⟩ => cases r <;> first | exact ⟨rfl, rfl⟩ | cases h
  | .call ⟨.screen r, _⟩ => cases r <;> exact ⟨rfl, rfl⟩

theorem careful_of_bare (h : isBare e = true) (hroom : c.arrays.length ≤ 1 ∧ c.buffers.length ≤ 1) : Careful L c e := by
  have hidle : e.uses L c = [] ∧ e.frees? = none := by
    match e with
    | .event _ => exact ⟨rfl, rfl⟩
    | .call ⟨.pipeline _, _⟩ => cases h
    | .call ⟨.draw r, _⟩ => cases r <;> first | exact ⟨rfl, rfl⟩ | cases h
    | .call ⟨.screen _, _⟩ => exact ⟨rfl, rfl⟩
  obtain ⟨harrays, hbuffers⟩ := room_of_bare h c
  refine ⟨?_, ?_, ?_, fun _ => hidle⟩
  · rw [hidle.1]
    exact fun _ h => by cases h
  · rw [hidle.2]
    exact fun _ h => by cases h
  · rw [harrays, hbuffers]
    exact hroom

/-- Entries that touch no object are careful, and nothing comes or goes. -/
theorem carefully_of_bare (h : t.all isBare = true) (hroom : c.arrays.length ≤ 1 ∧ c.buffers.length ≤ 1) :
    Carefully L c t ∧ L.after t = L ∧ (c.after t).live = c.live := by
  induction t generalizing c with
  | nil => exact ⟨trivial, rfl, rfl⟩
  | cons e t ih =>
    rw [List.all_cons, Bool.and_eq_true] at h
    obtain ⟨harrays, hbuffers⟩ := room_of_bare h.1 c
    have hlive : (c.enter e).live = c.live := by
      unfold Canvas.live
      rw [harrays, hbuffers]
    obtain ⟨hcareful, hledger, hafter⟩ := ih (c := c.enter e) h.2 (by rw [harrays, hbuffers]; exact hroom)
    refine ⟨⟨careful_of_bare h.1 hroom, ?_⟩, ?_, hafter.trans hlive⟩
    · rw [enter_of_bare h.1]
      exact hcareful
    · rw [Ledger.after_cons, enter_of_bare h.1, hledger]

theorem Inert.restores (h : Inert t) (hc : Clear c) : Restores L c t := by
  obtain ⟨hcareful, hledger, -⟩ := carefully_of_bare (L := L) h.bare hc.one_quad
  exact ⟨hcareful, hledger, canvas_after_of_inert h.entries c⟩

theorem careful_said {r : PipelineRequest} {a : r.Answer} (hc : Clear c)
    (huses : ∀ k ∈ (said r a).uses L c, k ∈ liveAt L c) (hfrees : ∀ h, r.deletes? = some h → .object h ∉ L.inUse) :
    Careful L c (said r a) := by
  refine ⟨huses, fun k hk => ?_, hc.one_quad, fun h => ?_⟩
  · obtain ⟨h, hdeletes, rfl⟩ := Option.map_eq_some_iff.1 hk
    rw [hc.unbound, List.append_nil]
    exact hfrees h hdeletes
  · rw [hc.is_open] at h
    cases h

/-! ## Building -/

theorem uses_of_building (h : Program.isBuildingCall e = true) : e.uses L c = e.handles.map .object := by
  match e with
  | .event _ => cases h
  | .call ⟨.draw _, _⟩ => cases h
  | .call ⟨.screen _, _⟩ => cases h
  | .call ⟨.pipeline r, _⟩ => cases r <;> first | rfl | cases h

theorem current_of_building (h : Program.isBuildingCall e = true) (hL : L.current = none) :
    (L.enter e).current = none := by
  rw [Ledger.current_enter, hL, Program.binds?_of_building h]

theorem careful_of_building (h : Program.isBuildingCall e = true) (hpermits : Permits L e) (hL : L.current = none)
    (hc : Clear c) : Careful L c e := by
  have huses : ∀ k ∈ e.uses L c, k ∈ liveAt L c := by
    rw [uses_of_building h]
    intro k hk
    obtain ⟨handle, hhandle, rfl⟩ := List.mem_map.1 hk
    exact mem_liveAt_object.2 (hpermits.names_live handle hhandle)
  match e with
  | .event _ => cases h
  | .call ⟨.draw _, _⟩ => cases h
  | .call ⟨.screen _, _⟩ => cases h
  | .call ⟨.pipeline r, a⟩ =>
    refine careful_said hc huses fun handle _ => ?_
    unfold Ledger.inUse
    rw [hL]
    exact List.not_mem_nil

/-- **Building and exchanging programs is careful**, where it keeps to the discipline of the ledger. -/
theorem carefully_of_building (h : t.all Program.isBuildingCall = true) (hpermits : Along Permits L t)
    (hL : L.current = none) (hc : Clear c) : Carefully L c t ∧ (L.after t).current = none ∧ c.after t = c := by
  induction t generalizing L with
  | nil => exact ⟨trivial, hL, rfl⟩
  | cons e t ih =>
    rw [List.all_cons, Bool.and_eq_true] at h
    have hcanvas : c.enter e = c := by
      have hidle : Idle [e] := .of_objects (by simp [Program.isObjectCall_of_isBuildingCall h.1])
      exact hidle.canvas c
    obtain ⟨hcareful, hcurrent, hafter⟩ := ih h.2 hpermits.2 (current_of_building h.1 hL)
    refine ⟨⟨careful_of_building h.1 hpermits.1 hL hc, ?_⟩, hcurrent, ?_⟩
    · rw [hcanvas]
      exact hcareful
    · rw [Canvas.after_cons, hcanvas, hafter]

/-! ## Quads -/

theorem Quad.Makes.carefully {size : Size} {quad : Option Quad} (h : Quad.Makes size quad t) :
    Carefully L (canvasOf none (some size)) t := by
  cases h <;> simp [Carefully, careful_iff, canvasOf, Canvas.enter, Canvas.enterDraw, Canvas.onArray, Canvas.onBuffer,
    Entry.uses, DrawRequest.uses, Entry.frees?, DrawRequest.frees?, Canvas.live, liveAt, Canvas.bound, Ledger.inUse]

end

namespace Viewer

section

variable {L : Ledger} {v w : Viewer} {t : Trace}

theorem dropping_carefully (v : Viewer) (old viewport : Option Size) :
    Carefully L { canvasOf v.quad old with viewport } v.dropping := by
  unfold dropping
  cases v.quad with
  | none => trivial
  | some quad =>
    simp [Quad.releasing, Carefully, careful_iff, canvasOf, Canvas.enter, Canvas.enterDraw, Entry.uses,
      DrawRequest.uses, Entry.frees?, DrawRequest.frees?, Canvas.live, liveAt, Canvas.bound, Ledger.inUse]

/-- **Taking a size is careful**, and no concern of shaders and programs. -/
theorem Resizes.carefully {size : Size} (h : Resizes v size w t) (L : Ledger) (old : Option Size) :
    Carefully L (canvasOf v.quad old) t ∧ L.after t = L ∧ w.programs = v.programs := by
  cases h with
  | ignored _ => exact ⟨trivial, rfl, rfl⟩
  | @taken quad t _ hmade =>
    have hroom := (canvasOf_clear v.quad old).one_quad
    have hviewport : Careful L (canvasOf v.quad old) (drew (.viewport (clamped size)) ()) :=
      ⟨fun _ h => (by cases h), fun _ h => (by cases h), hroom, fun _ => ⟨rfl, rfl⟩⟩
    have hmaking : Carefully (L.after v.dropping)
        (Canvas.after { canvasOf v.quad old with viewport := some (clamped size) } v.dropping) t := by
      rw [canvas_dropping]
      exact hmade.carefully
    have hledger : L.after (v.dropping ++ t) = L := by
      refine after_of_quiet L ?_
      rw [List.all_append, dropping_quiet, hmade.quiet]
      rfl
    have hrest := carefully_append.2 ⟨dropping_carefully v old _, hmaking⟩
    exact ⟨⟨careful_of_bare rfl hroom, hviewport, hrest⟩, hledger, rfl⟩

/-! ## Frames -/

theorem quad_painting_restores (quad : Quad) (old : Option Size)
    (hL : ∀ k ∈ L.inUse, k ∈ liveAt L (canvasOf (some quad) old)) :
    Restores L (canvasOf (some quad) old) quad.painting := by
  refine ⟨⟨?_, ⟨fun k hk => ?_, fun _ h => (by cases h), ?_, fun h => (by cases h)⟩, ?_, trivial⟩, rfl, rfl⟩
  · simp [careful_iff, canvasOf, Canvas.enter, Canvas.enterDraw, Entry.uses, DrawRequest.uses, Entry.frees?,
      DrawRequest.frees?, liveAt, Canvas.live]
  · rcases List.mem_append.1 hk with hk | hk
    · exact hL k hk
    · refine List.mem_append_right _ ?_
      simpa [DrawRequest.uses, canvasOf, Canvas.sources, Canvas.enter, Canvas.enterDraw, Canvas.live] using hk
  · exact (canvasOf_clear (some quad) old).one_quad
  · simp [careful_iff, canvasOf, Canvas.enter, Canvas.enterDraw, Entry.uses, DrawRequest.uses, Entry.frees?,
      DrawRequest.frees?]

theorem uploads_carefully {c : Canvas} (hc : Clear c) (hL : ∀ k ∈ L.inUse, k ∈ liveAt L c)
    (location : Uniform → Option Nat) (value : Uniform → Uniform.Value) :
    ∀ us, Carefully L c (uploads us location value)
  | [] => trivial
  | u :: us => by
    rw [Uniform.Table.uploads_cons]
    cases location u with
    | none => exact uploads_carefully hc hL location value us
    | some n => exact ⟨careful_said hc hL fun _ h => (by cases h), uploads_carefully hc hL location value us⟩

theorem uploads_restores {c : Canvas} (hc : Clear c) (hL : ∀ k ∈ L.inUse, k ∈ liveAt L c) (us : List Uniform)
    (location : Uniform → Option Nat) (value : Uniform → Uniform.Value) : Restores L c (uploads us location value) :=
  ⟨uploads_carefully hc hL location value us, Uniform.Table.after_uploads L location value us,
    (idle_uploads us location value).canvas c⟩

/-- **Painting is careful** where the slot owns what lives. -/
theorem painting_restores (hL : L.current = none) (hv : v.programs.Owns L) (old : Option Size) :
    Restores L (canvasOf v.quad old) v.painting := by
  obtain hblank | ⟨quad, l, hquad, hl, hpainting⟩ := painting_cases v
  · rw [hblank]
    exact .nil
  · rw [hpainting, hquad]
    have hclear : Clear (canvasOf (some quad) old) := canvasOf_clear _ _
    have hlive : Handle.program l.program ∈ L.live := by
      rw [Ledger.mem_live_program, (hv.loaded l hl).2.1]
      exact ⟨_, List.mem_singleton_self _, rfl⟩
    have hused : ∀ k ∈ [Resource.object (.program l.program)], k ∈ liveAt L (canvasOf (some quad) old) := by
      intro k hk
      rw [List.mem_singleton.1 hk, mem_liveAt_object]
      exact hlive
    have hbind : Careful L (canvasOf (some quad) old) (said (.useProgram (some l.program)) ()) :=
      careful_said hclear hused fun _ h => by cases h
    -- the program is current until the quad is painted
    have huploading := uploads_restores (L := { L with current := some l.program }) hclear hused v.uniforms.order.walk
      (fun u => (v.uniforms.location u).index?) v.uniforms.value
    have hdrawing := huploading.append (quad_painting_restores quad old hused)
    have hunbind : Carefully { L with current := some l.program } (canvasOf (some quad) old)
        [said (.useProgram none) ()] :=
      ⟨careful_said hclear (fun _ h => by cases h) fun _ h => (by cases h), trivial⟩
    rw [← List.append_assoc]
    refine ⟨⟨hbind, hdrawing.before hunbind⟩, ?_, ?_⟩
    · show Ledger.after { L with current := some l.program } _ = L
      rw [Ledger.after_append, hdrawing.ledger, ← hL]
      rfl
    · rw [Canvas.after_cons, canvas_enter_pipeline, Canvas.after_append, hdrawing.canvas]
      rfl

theorem queries_restores {c : Canvas} {s : Program.Slot} (hc : Clear c) (hs : s.Owns L)
    (h : ∀ e ∈ t, ∃ l, s.active = some l ∧ ∃ name answer, e = said (.uniformLocation l.program name) answer) :
    Restores L c t := by
  induction t with
  | nil => exact .nil
  | cons e t ih =>
    obtain ⟨l, hl, name, answer, rfl⟩ := h e List.mem_cons_self
    have hrest : Restores L c t := ih fun e he => h e (List.mem_cons_of_mem _ he)
    have hquery : Careful L c (said (.uniformLocation l.program name) answer) := by
      refine careful_said hc (fun k hk => ?_) fun _ h => by cases h
      rw [List.mem_singleton.1 hk, mem_liveAt_object, Ledger.mem_live_program, (hs.loaded l hl).2.1]
      exact ⟨_, List.mem_singleton_self _, rfl⟩
    exact ⟨⟨hquery, hrest.careful⟩, hrest.ledger, hrest.canvas⟩

theorem Renders.restores (h : Renders v w t) (hL : L.current = none) (hv : v.programs.Owns L) (old : Option Size) :
    Restores L (canvasOf v.quad old) t ∧ w.programs = v.programs := by
  cases h with
  | @rendered now table q swapped codes hs =>
    have hclear : Clear (canvasOf v.quad old) := canvasOf_clear _ _
    have hinert : ∀ {t : Trace}, Inert t → Restores L (canvasOf v.quad old) t := fun h => h.restores hclear
    have hnow := hinert (⟨rfl, fun _ => rfl⟩ : Inert [showed .now now])
    have hclearing := hinert (⟨rfl, fun _ => rfl⟩ : Inert [drew .clear ()])
    have htail := hinert (⟨rfl, fun _ => rfl⟩ : Inert [showed .swapBuffers swapped, drew .drainErrors codes])
    have hqueries : Restores L (canvasOf v.quad old) q := queries_restores hclear hv hs.own_queries
    have hpainting := painting_restores (v := v.rendered now table) hL hv old
    exact ⟨hnow.append (hqueries.append (hclearing.append (hpainting.append htail))), rfl⟩

end

/-! ## Custody -/

/-- **What a viewer holds between two steps**, after a past. -/
structure Custody (past : Trace) (v : Viewer) : Prop where
  sized : Sized past v
  owns : v.programs.Owns (ledger past)
  unused : (ledger past).current = none

section

variable {past t : Trace} {v w : Viewer}

/-- **Every step is careful and keeps custody**, where handles are fresh. -/
theorem Step.custody (h : Step v w t) (hv : Custody past v) (hfresh : Along Fresh (ledger past) t) :
    Carefully (ledger past) (canvas past) t ∧ Custody (past ++ t) w := by
  have hsized : Sized (past ++ t) w := h.sized hv.sized
  have hkept : (ledger past).after t = ledger past → w.programs = v.programs → Custody (past ++ t) w := by
    intro hledger hp
    refine ⟨hsized, ?_, ?_⟩
    · rw [ledger_append, hledger, hp]
      exact hv.owns
    · rw [ledger_append, hledger]
      exact hv.unused
  have hclear : Clear (canvasOf v.quad (told past)) := canvasOf_clear _ _
  rw [hv.sized.canvas]
  cases h with
  | still hp _ _ ht _ =>
    have hrestores : Restores (ledger past) (canvasOf v.quad (told past)) t := ht.restores hclear
    exact ⟨hrestores.careful, hkept hrestores.ledger hp⟩
  | operated hop hperformed =>
    obtain ⟨M, hleads, howns⟩ := hperformed.owns hv.owns hfresh
    obtain ⟨hcareful, hunused, -⟩ :=
      carefully_of_building (hperformed.all_building hop) hleads.along hv.unused hclear
    refine ⟨hcareful, hsized, ?_, ?_⟩
    · rw [ledger_append, hleads.after_eq]
      exact howns
    · rw [ledger_append]
      exact hunused
  | @resized size w offer t hoffer hr =>
    obtain ⟨hoffering, hoffered, -⟩ := carefully_of_bare (L := ledger past) hoffer.bare hclear.one_quad
    obtain ⟨htaking, htaken, hp⟩ := hr.carefully (ledger past) (told past)
    have hrestores : Restores (ledger past) (canvasOf v.quad (told past)) offer :=
      ⟨hoffering, hoffered, hoffer.canvas _⟩
    refine ⟨hrestores.before htaking, hkept ?_ hp⟩
    rw [Ledger.after_append, hoffered, htaken]
  | rendered hr =>
    obtain ⟨hrestores, hp⟩ := hr.restores hv.unused hv.owns (told past)
    exact ⟨hrestores.careful, hkept hrestores.ledger hp⟩

theorem Steps.custody (h : Steps v w t) (hv : Custody past v) (hfresh : Along Fresh (ledger past) t) :
    Carefully (ledger past) (canvas past) t ∧ Custody (past ++ t) w := by
  induction h generalizing past with
  | nil v =>
    rw [List.append_nil]
    exact ⟨trivial, hv⟩
  | cons h _ ih =>
    rw [Ledger.along_append] at hfresh
    obtain ⟨hcareful, hmid⟩ := h.custody hv hfresh.1
    rw [← ledger_append] at hfresh
    obtain ⟨hrest, hend⟩ := ih hmid hfresh.2
    rw [ledger_append, canvas_append] at hrest
    rw [List.append_assoc] at hend
    exact ⟨carefully_append.2 ⟨hcareful, hrest⟩, hend⟩

/-- **A viewer that was opened has custody** of nothing. -/
theorem Opened.custody {order : Uniform.Order} (h : Opened order v) (ht : Inert t) : Custody t v := by
  obtain ⟨recipe, hp⟩ := h.programs
  have hledger : ledger t = {} := after_of_quiet {} ht.quiet
  refine ⟨h.sized ht, ?_, ?_⟩
  · rw [hledger, hp]
    exact Program.Slot.owns_empty recipe
  · rw [hledger]

/-! ## Closing -/

def closing (v : Viewer) : Trace :=
  v.programs.tearing ++ (v.dropping ++ [showed .dropSurface (), showed .dropContext (), showed .dropWindow ()])

theorem unload_calls (v : Viewer) : (v.unload : Run σ Viewer).Calls fun w t =>
    w = { v with programs := { v.programs with active := none } } ∧ t = v.programs.tearing := by
  refine fun files => .calls (Program.Slot.teardown_calls v.programs) fun s t h => .pure ⟨⟨?_, ?_⟩, rfl⟩
  · rw [h.1]
  · rw [h.2, List.append_nil]

theorem close_calls (v : Viewer) : (v.close : Run σ Unit).Calls fun _ t => t = v.closing := by
  refine fun files => .calls v.unload_calls fun w t h => .calls w.dropQuad_calls fun _ u hu => ?_
  obtain ⟨rfl, rfl⟩ := h
  obtain ⟨-, rfl⟩ := hu
  exact .ask fun _ => .ask fun _ => .ask_last fun _ => ⟨rfl, rfl⟩

/-- **Closing a viewer is careful and leaves nothing.** -/
theorem Custody.closing (h : Custody past v) :
    Carefully (ledger past) (canvas past) v.closing ∧ resources.live (past ++ v.closing) = [] := by
  obtain ⟨current, hempty⟩ := Program.Slot.tearing_leads h.owns
  obtain ⟨htearing, -, hkept⟩ := carefully_of_building (Program.Slot.tearing_all_building v.programs) hempty.along
    h.unused (canvasOf_clear v.quad (told past))
  have hdropping : ∀ L, Carefully L (canvasOf v.quad (told past)) v.dropping :=
    fun _ => dropping_carefully v (told past) ((told past).map clamped)
  have hdropped : (canvasOf v.quad (told past)).after v.dropping = canvasOf none (told past) :=
    canvas_dropping v (told past) _
  have hledger : ∀ L : Ledger, L.after v.dropping = L := fun L => after_of_quiet L (dropping_quiet v)
  rw [h.sized.canvas]
  -- the slot goes first, then the quad, and surface and context after both
  constructor
  · refine carefully_append.2 ⟨htearing, ?_⟩
    rw [hkept]
    refine carefully_append.2 ⟨hdropping _, ?_⟩
    rw [hdropped]
    exact (carefully_of_bare rfl (canvasOf_clear none _).one_quad).1
  · show liveAt (Machine.ledger _) (Machine.canvas _) = []
    unfold Viewer.closing
    rw [ledger_append, canvas_append, h.sized.canvas, Ledger.after_append, Canvas.after_append, hkept, hempty.after_eq,
      Ledger.after_append, Canvas.after_append, hledger, hdropped]
    rfl

end

/-! ## Whole sessions -/

/-- **A whole session**: a viewer is opened, takes its turns and is closed. -/
def lifetime (o : Options) (order : Uniform.Order) (turns : List (Turn σ)) : Run σ (Except OpenError Unit) := do
  match ← opened o order with
  | .error e => return .error e
  | .ok v =>
    let v ← v.takeAll turns
    v.close
    return .ok ()

theorem lifetime_follows (o : Options) (order : Uniform.Order) (turns : List (Turn σ)) (files : Files.Tree) :
    (lifetime o order turns).Follows files fun _ t _ =>
      Along Fresh {} t → Carefully {} {} t ∧ resources.live t = [] := by
  refine .calls (opened_calls o order) fun made pre h => ?_
  match made with
  | .error _ =>
    refine .pure fun _ => ?_
    rw [List.append_nil]
    obtain ⟨hcareful, hledger, hlive⟩ := carefully_of_bare (L := {}) (c := {}) (bare_of_calls h.1) ⟨Nat.zero_le 1, Nat.zero_le 1⟩
    refine ⟨hcareful, ?_⟩
    show (Ledger.after {} pre).live.map Resource.object ++ (Canvas.after {} pre).live = []
    rw [hledger, hlive]
    rfl
  | .ok v =>
    obtain ⟨hinert, hopened⟩ := h.2 v rfl
    refine .bind (takeAll_proceeds v turns files) fun w t _ hsteps => .calls w.close_calls fun _ u hu => .pure ?_
    subst hu
    rw [List.append_nil]
    intro hfresh
    have hcustody : Custody pre v := hopened.custody hinert
    have hopening : Restores {} {} pre := hinert.restores (canvasOf_clear none none)
    have hsteps : Steps v w t := hsteps
    rw [Ledger.along_append, Ledger.along_append] at hfresh
    obtain ⟨hcareful, hheld⟩ := hsteps.custody hcustody hfresh.2.1
    obtain ⟨hclosing, hnothing⟩ := hheld.closing
    rw [ledger_append, canvas_append] at hclosing
    rw [List.append_assoc] at hnothing
    exact ⟨carefully_append.2 ⟨hopening.careful, carefully_append.2 ⟨hcareful, hclosing⟩⟩, hnothing⟩

/-- **A session deletes all that it makes, in time.**  Whatever happens in a session, from the making of its window to
the end: every call is careful, nothing is left, and every shader, program, vertex array and buffer that was made has
been deleted exactly once; all that is asked of the driver is that it hands out no shader or program that is live. -/
theorem lifetime_balanced (o : Options) (order : Uniform.Order) (turns : List (Turn σ)) (host : Host σ) (state : σ)
    (files : Files.Tree) {result : Except OpenError Unit} {world : World σ}
    (hrun : (lifetime o order turns).on host { host := state, files } = (result, world))
    (hfresh : Along Fresh {} world.trace) :
    (∀ pre e post, world.trace = pre ++ e :: post → Careful (ledger pre) (canvas pre) e) ∧
    resources.live world.trace = [] ∧
    ∀ pre e post k, world.trace = pre ++ e :: post → e.makes? = some k → resources.deletions k post = 1 := by
  obtain ⟨t, ht, hfollows⟩ := lifetime_follows o order turns files host { host := state, files } rfl
  rw [hrun] at ht
  have ht : world.trace = t := ht
  subst ht
  obtain ⟨hcareful, hnothing⟩ := hfollows hfresh
  refine ⟨fun pre e post hsplit => ?_, hnothing, fun pre e post k hsplit hmakes => ?_⟩
  · rw [hsplit] at hcareful
    exact hcareful.at
  · exact Accounts.deletions_of_made (hcareful.makes_new hfresh) hcareful.frees_live hnothing hsplit hmakes

/-- A frame, a size for which no buffer can be made, another one, a hot swap and one that fails. -/
def mishaps : List (Happening Simulator.State) :=
  [.event (.window .redrawRequested), .change { host := (·.arm .createBuffer 1) }, .event (.window (.resized ⟨3, 2⟩)),
    .event (.window .redrawRequested), .event (.window (.resized ⟨5, 4⟩)),
    .event (.window (.keyboard (some .f5) true false)), .event (.window .redrawRequested),
    .change { host := (·.arm .link 1) }, .event (.window (.keyboard (some .f5) true false)),
    .event (.window .redrawRequested)]

/-- A session with a shader that cannot be compiled at first, a run with mishaps and one that is refused. -/
def eventfulTurns : List (Turn Simulator.State) :=
  [.change { host := (·.arm .compileFragment 1) }, .load "a", .load "a", .run mishaps, .load "a",
    .change { host := (·.arm .run 1) }, .run []]

@[irreducible] def eventful : Except OpenError Unit × World Simulator.State :=
  (lifetime { store := { root := "." } } .declared eventfulTurns).on timeHost
    { host := { locationBase := 1 }, files := Program.Slot.blankShader }

theorem lifetime_balanced_eventful :
    (eventful.2.trace.countP (·.makes?.isSome) = 17 ∧ Along Fresh {} eventful.2.trace) ∧
    (∀ pre e post, eventful.2.trace = pre ++ e :: post → Careful (ledger pre) (canvas pre) e) ∧
    resources.live eventful.2.trace = [] ∧
    ∀ pre e post k, eventful.2.trace = pre ++ e :: post → e.makes? = some k → resources.deletions k post = 1 := by
  have hrun : (lifetime { store := { root := "." } } .declared eventfulTurns).on timeHost
      { host := { locationBase := 1 }, files := Program.Slot.blankShader } = (eventful.1, eventful.2) := by
    rw [Prod.eta, eventful]
  have hfresh : Along Fresh {} eventful.2.trace := by decide +kernel
  exact ⟨⟨by decide +kernel, hfresh⟩, lifetime_balanced _ _ _ _ _ _ hrun hfresh⟩

end Viewer
end Window
end LiveShader
