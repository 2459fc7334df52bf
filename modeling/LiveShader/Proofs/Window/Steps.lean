import LiveShader.Proofs.Input.Controls
import LiveShader.Proofs.Machine.Canvas
import LiveShader.Proofs.Window.Frame
/-!
# Proofs.Window.Steps — all that a viewer can do

Whatever a viewer does is a sequence of four kinds of steps (`Step`): it works on its slot, takes a size that it was
told, renders a frame, or does what touches none of its objects.  A program that `Proceeds` does nothing else, on any
host, so an invariant of all steps is one of every session.
-/
namespace LiveShader
namespace Window

open Machine

variable {σ α β : Type}

/-! ## The size that a window was told -/

/-- The last size without a zero dimension that a window was told, and whether a size that is read next counts. -/
structure Told where
  size : Option Size := none
  settling : Bool := false

namespace Told

def take (s : Told) (size : Size) : Told := { size := if size.isEmpty then s.size else some size }

def pass (s : Told) : Told := { size := s.size }

def enterScreen (s : Told) : (r : ScreenRequest) → r.Answer → Told
  | .requestSize _, some size => s.take size
  | .innerSize, size => if s.settling then s.take size else s.pass
  | .swapInterval _, _ => { size := s.size, settling := true }
  | _, _ => s.pass

/-- A window is told its size by an event, by the answer to a request for a size, and when its size is read right after
the swap interval was set, which is how a run begins. -/
def enter (s : Told) : Entry → Told
  | .event (.window (.resized size)) => s.take size
  | .call ⟨.screen r, a⟩ => s.enterScreen r a
  | _ => s.pass

def after (s : Told) (t : Trace) : Told := t.foldl enter s

theorem after_append (s : Told) (t u : Trace) : s.after (t ++ u) = (s.after t).after u := List.foldl_append

end Told

/-- The last size without a zero dimension that the window was told. -/
def told (t : Trace) : Option Size := (Told.after {} t).size

/-- An entry that touches no object of the drawing library. -/
def isBare : Entry → Bool
  | .event _ => true
  | .call ⟨.draw (.enable _), _⟩ | .call ⟨.draw (.clearColor _), _⟩ | .call ⟨.draw .clear, _⟩
  | .call ⟨.draw .drainErrors, _⟩ => true
  | .call ⟨.screen _, _⟩ => true
  | _ => false

/-- An entry that leaves the surface as it is as well. -/
def isInert : Entry → Bool
  | .call ⟨.screen (.resizeSurface _), _⟩ | .call ⟨.screen .dropSurface, _⟩ | .call ⟨.screen .dropContext, _⟩ => false
  | e => isBare e

/-- A trace that leaves objects, surface and the size that the window was told as they are. -/
structure Inert (t : Trace) : Prop where
  entries : t.all isInert = true
  size : ∀ s : Told, (s.after t).size = s.size

/-- An inert trace after which no size is awaited. -/
structure Calm (t : Trace) : Prop where
  entries : t.all isInert = true
  passes : ∀ s : Told, s.after t = s.pass

theorem Inert.append {t u : Trace} (ht : Inert t) (hu : Inert u) : Inert (t ++ u) := by
  refine ⟨?_, fun s => ?_⟩
  · rw [List.all_append, ht.entries, hu.entries]
    rfl
  · rw [Told.after_append, hu.size, ht.size]

theorem Calm.inert {t : Trace} (h : Calm t) : Inert t := by
  refine ⟨h.entries, fun s => ?_⟩
  rw [h.passes]
  rfl

/-- After a calm trace a size that is read does not count. -/
theorem Calm.concat {t : Trace} (ht : Calm t) {e : Entry} (he : isInert e = true)
    (hpass : ∀ s : Told, s.pass.enter e = s.pass) : Calm (t ++ [e]) := by
  refine ⟨?_, fun s => ?_⟩
  · rw [List.all_append, ht.entries, List.all_cons, he]
    rfl
  · rw [Told.after_append, ht.passes]
    exact hpass s

theorem isQuiet_of_isInert : ∀ {e : Entry}, isInert e = true → isQuiet e = true
  | .event _, _ => rfl
  | .call ⟨.draw _, _⟩, _ => rfl
  | .call ⟨.screen r, _⟩, h => by cases r <;> first | rfl | cases h
  | .call ⟨.pipeline _, _⟩, h => by cases h

theorem Inert.quiet {t : Trace} (h : Inert t) : t.all isQuiet = true :=
  List.all_eq_true.2 fun e he => isQuiet_of_isInert (List.all_eq_true.1 h.entries e he)

theorem isBare_of_isInert {e : Entry} (h : isInert e = true) : isBare e = true := by
  unfold isInert at h
  split at h
  · cases h
  · cases h
  · cases h
  · exact h

theorem Inert.bare {t : Trace} (h : Inert t) : t.all isBare = true :=
  List.all_eq_true.2 fun e he => isBare_of_isInert (List.all_eq_true.1 h.entries e he)

/-! ## Quads -/

namespace Quad

/-- The ways in which making a quad can go. -/
inductive Makes (size : Size) : Option Quad → Trace → Prop
  | noArray (message : String) : Makes size none [drew .createVertexArray (.error message)]
  | noBuffer (array : VertexArrayId) (message : String) :
    Makes size none [drew .createVertexArray (.ok array), drew .createBuffer (.error message),
      drew (.deleteVertexArray array) ()]
  | made (q : Quad) :
    Makes size (some q) [drew .createVertexArray (.ok q.array), drew .createBuffer (.ok q.buffer),
      drew (.bindVertexArray (some q.array)) (), drew (.bindBuffer (some q.buffer)) (),
      drew (.bufferData (vertices size)) (), drew .describeVertices (), drew .enableVertices (),
      drew (.bindVertexArray none) (), drew (.bindBuffer none) ()]

theorem make_calls (size : Size) : (make size : Run σ (Option Quad)).Calls (Makes size) := by
  intro files
  refine .ask fun made => ?_
  match made with
  | .error message => exact .pure ⟨.noArray message, rfl⟩
  | .ok array =>
    refine .ask fun made => ?_
    match made with
    | .error message => exact .ask fun _ => .pure ⟨.noBuffer array message, rfl⟩
    | .ok buffer =>
      refine .ask fun _ => .ask fun _ => .ask fun _ => .ask fun _ => ?_
      exact .ask fun _ => .ask fun _ => .ask fun _ => .pure ⟨.made ⟨array, buffer⟩, rfl⟩

theorem Makes.quiet {size : Size} {quad : Option Quad} {t : Trace} (h : Makes size quad t) : t.all isQuiet = true := by
  cases h <;> rfl

def releasing (q : Quad) : Trace := [drew (.deleteBuffer q.buffer) (), drew (.deleteVertexArray q.array) ()]

theorem release_calls (q : Quad) : (q.release : Run σ Unit).Calls fun _ t => t = q.releasing :=
  fun _ => .ask fun _ => .ask_last fun _ => ⟨rfl, rfl⟩

end Quad

namespace Viewer

def dropping (v : Viewer) : Trace :=
  match v.quad with
  | none => []
  | some quad => quad.releasing

theorem dropQuad_calls (v : Viewer) :
    (v.dropQuad : Run σ Viewer).Calls fun w t => w = { v with quad := none } ∧ t = v.dropping := by
  intro files
  unfold dropQuad dropping
  cases hq : v.quad with
  | none => exact .pure ⟨⟨by rw [← hq], rfl⟩, rfl⟩
  | some quad => exact .calls quad.release_calls fun _ t ht => .pure ⟨⟨rfl, by rw [ht, List.append_nil]⟩, rfl⟩

theorem dropping_quiet (v : Viewer) : v.dropping.all isQuiet = true := by
  unfold dropping
  cases v.quad <;> rfl

/-! ## Steps -/

/-- The viewport for a size. -/
def clamped (size : Size) : Size := ⟨min size.width maxViewport, min size.height maxViewport⟩

/-- Taking a size, which may have a zero dimension. -/
inductive Resizes (v : Viewer) (size : Size) : Viewer → Trace → Prop
  | ignored : size.isEmpty = true → Resizes v size v []
  | taken {quad : Option Quad} {t : Trace} :
    size.isEmpty = false → Quad.Makes size quad t →
      Resizes v size
        { v with uniforms := v.uniforms.setAll (ViewProjection.ofSize .standard size).values, quad }
        (showed (.resizeSurface size) () :: drew (.viewport (clamped size)) () :: (v.dropping ++ t))

/-- The camera's values by a name, so that they need not be computed. -/
theorem Resizes.taken_of_values {v : Viewer} {size : Size} {values : List (Uniform × Uniform.Value)}
    {quad : Option Quad} {t : Trace} (hvalues : values = (ViewProjection.ofSize .standard size).values)
    (hempty : size.isEmpty = false) (ht : Quad.Makes size quad t) :
    Resizes v size { v with uniforms := v.uniforms.setAll values, quad }
      (showed (.resizeSurface size) () :: drew (.viewport (clamped size)) () :: (v.dropping ++ t)) := by
  subst hvalues
  exact .taken hempty ht

theorem resize_calls (v : Viewer) (size : Size) : (v.resize size : Run σ Viewer).Calls (Resizes v size) := by
  intro files
  unfold resize
  cases hempty : size.isEmpty with
  | true => exact .pure ⟨.ignored hempty, rfl⟩
  | false =>
    refine .ask fun _ => .ask fun _ => .calls (dropQuad_calls _) fun w t h => ?_
    obtain ⟨rfl, rfl⟩ := h
    refine .calls (Quad.make_calls size) fun quad u hu => .pure ⟨?_, rfl⟩
    rw [List.append_nil]
    generalize hvalues : (ViewProjection.ofSize .standard size).values = values
    exact .taken_of_values hvalues.symm hempty hu

/-- How a window is told a size. -/
inductive Offers (size : Size) : Trace → Prop
  | event : Offers size [.event (.window (.resized size))]
  | requested (wanted : Size) : Offers size [showed (.requestSize wanted) (some size)]
  | read (policy : SyncPolicy) (set : Except String Unit) :
    Offers size [showed (.swapInterval policy) set, showed .innerSize size]

theorem Offers.bare {size : Size} {t : Trace} (h : Offers size t) : t.all isBare = true := by
  cases h <;> rfl

theorem Offers.quiet {size : Size} {t : Trace} (h : Offers size t) : t.all isQuiet = true := by
  cases h <;> rfl

/-- **What a viewer can do.** -/
inductive Step (v : Viewer) : Viewer → Trace → Prop
  | still {w : Viewer} {t : Trace} :
    w.programs = v.programs → w.uniforms = v.uniforms → w.quad = v.quad → Inert t →
      w.input.controls = v.input.controls.after t → Step v w t
  | operated {files : Files.Tree} {op : Program.Slot.Operation} {r : Except Program.BuildError Unit × Program.Slot}
    {t : Trace} :
    op ≠ .bind → Program.Slot.Performs v.programs files op r t → Step v { v with programs := r.2 } t
  | resized {size : Size} {w : Viewer} {offer t : Trace} :
    Offers size offer → Resizes v size w t → Step v w (offer ++ t)
  | rendered {w : Viewer} {t : Trace} : Renders v w t → Step v w t

inductive Steps : Viewer → Viewer → Trace → Prop
  | nil (v : Viewer) : Steps v v []
  | cons {u v w : Viewer} {t s : Trace} : Step u v t → Steps v w s → Steps u w (t ++ s)

variable {u v w : Viewer} {s t : Trace}

theorem Step.steps (h : Step v w t) : Steps v w t := by
  have hone := Steps.cons h (.nil w)
  rwa [List.append_nil] at hone

theorem Steps.trans (hs : Steps u v s) (ht : Steps v w t) : Steps u w (s ++ t) := by
  induction hs with
  | nil v => exact ht
  | cons h _ ih =>
    rw [List.append_assoc]
    exact .cons h (ih ht)

/-- No step changes how sources are assembled. -/
theorem Step.recipe (h : Step v w t) : w.programs.recipe = v.programs.recipe := by
  cases h with
  | still hp _ _ _ _ => rw [hp]
  | operated _ hperformed => exact hperformed.recipe
  | resized _ hresizes => cases hresizes <;> rfl
  | rendered hrenders =>
    cases hrenders
    rfl

theorem Steps.recipe (h : Steps v w t) : w.programs.recipe = v.programs.recipe := by
  induction h with
  | nil v => rfl
  | cons h _ ih => rw [ih, h.recipe]

/-- A program that does nothing but steps of a viewer, the first of which has begun already. -/
def Proceeds (pre : Trace) (v : Viewer) (view : α → Viewer) (p : Run σ α) : Prop :=
  ∀ files, p.Follows files fun a t _ => Steps v (view a) (pre ++ t)

namespace Proceeds

variable {pre : Trace} {view : α → Viewer}

theorem pure {a : α} (h : Steps v (view a) pre) : Proceeds pre v view (Pure.pure a : Run σ α) := by
  refine fun files => .pure ?_
  rw [List.append_nil]
  exact h

theorem still {a : α} (hp : (view a).programs = v.programs) (hu : (view a).uniforms = v.uniforms)
    (hq : (view a).quad = v.quad) (ht : Inert pre) (hc : (view a).input.controls = v.input.controls.after pre) :
    Proceeds pre v view (Pure.pure a : Run σ α) :=
  .pure (Step.still hp hu hq ht hc).steps

theorem bind {p : Run σ β} {k : β → Run σ α} {mid : β → Viewer} (hp : Proceeds pre v mid p)
    (hk : ∀ b, Proceeds [] (mid b) view (k b)) : Proceeds pre v view (p >>= k) := by
  refine fun files => .bind (hp files) fun b t f hb => (hk b f).mono fun a u g ha => ?_
  rw [← List.append_assoc]
  exact hb.trans ha

theorem ask {r : Request} {k : r.Answer → Run σ α} (hk : ∀ a, Proceeds (pre ++ [.call ⟨r, a⟩]) v view (k a)) :
    Proceeds pre v view (Machine.ask r >>= k) := by
  refine fun files => .ask fun a => (hk a files).mono fun b t f h => ?_
  rw [List.append_cons]
  exact h

theorem calls {p : Run σ β} {k : β → Run σ α} {P : β → Trace → Prop} (hp : p.Calls P)
    (hk : ∀ b t, P b t → Proceeds (pre ++ t) v view (k b)) : Proceeds pre v view (p >>= k) := by
  refine fun files => .calls hp fun b t hb => (hk b t hb files).mono fun a u f h => ?_
  rw [← List.append_assoc]
  exact h

theorem deliver {event : Event} {k : Unit → Run σ α} (hk : Proceeds (pre ++ [.event event]) v view (k ())) :
    Proceeds pre v view (Machine.deliver event >>= k) := by
  refine fun files => .deliver ((hk files).mono fun a t f h => ?_)
  rw [List.append_cons]
  exact h

theorem interlude {change : Interlude σ} {k : Unit → Run σ α} (hk : Proceeds pre v view (k ())) :
    Proceeds pre v view (Machine.interlude change >>= k) :=
  fun files => .interlude (hk (change.files files))

theorem after {p : Run σ α} (hs : Steps v w s) (hp : Proceeds t w view p) : Proceeds (s ++ t) v view p := by
  refine fun files => (hp files).mono fun a u f h => ?_
  rw [List.append_assoc]
  exact hs.trans h

theorem perform (op : Program.Slot.Operation) (hop : op ≠ .bind)
    {k : Except Program.BuildError Unit × Program.Slot → Run σ α}
    (hk : ∀ r, Proceeds [] { v with programs := r.2 } view (k r)) :
    Proceeds [] v view (v.programs.perform op >>= k) :=
  bind (fun files => (Program.Slot.perform_follows v.programs files op).mono fun _ _ _ h => (Step.operated hop h).steps) hk

end Proceeds
end Viewer
end Window
end LiveShader
