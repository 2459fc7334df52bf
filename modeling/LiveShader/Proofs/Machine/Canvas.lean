import LiveShader.Proofs.Machine.Ledger
/-!
# Proofs.Machine.Canvas — vertex arrays, buffers and what is bound, read off a trace

A canvas is to vertex arrays and buffers what a ledger is to shaders and programs; it also keeps the viewport and
whether the surface or the context was given up.  `resources` counts the objects of both, and `Careful` is the
discipline that an owner of such objects keeps to.
-/
namespace LiveShader
namespace Machine

/-- A live vertex array: the buffer that its attribute reads, and whether it is enabled. -/
structure ArrayRecord where
  id : VertexArrayId
  source : Option BufferId := none
  enabled : Bool := false

structure BufferRecord where
  id : BufferId
  vertices : List Float32 := []

/-- The live objects, latest first, the bound ones, the viewport, and whether surface or context were dropped. -/
structure Canvas where
  arrays : List ArrayRecord := []
  buffers : List BufferRecord := []
  array : Option VertexArrayId := none
  buffer : Option BufferId := none
  viewport : Option Size := none
  closed : Bool := false

/-- An object of the drawing library. -/
inductive Resource where
  | object (handle : Handle)
  | array (id : VertexArrayId)
  | buffer (id : BufferId)
deriving DecidableEq, Repr

namespace Canvas

def onArray (c : Canvas) (f : ArrayRecord → ArrayRecord) : Canvas :=
  { c with arrays := c.arrays.map fun x => if c.array = some x.id then f x else x }

def onBuffer (c : Canvas) (f : BufferRecord → BufferRecord) : Canvas :=
  { c with buffers := c.buffers.map fun x => if c.buffer = some x.id then f x else x }

/-- An object that is deleted is no longer bound. -/
def enterDraw (c : Canvas) : (r : DrawRequest) → r.Answer → Canvas
  | .createVertexArray, .ok id => { c with arrays := { id } :: c.arrays }
  | .createVertexArray, .error _ => c
  | .deleteVertexArray id, _ =>
    { c with arrays := c.arrays.filter (·.id != id), array := c.array.filter (· != id) }
  | .bindVertexArray array, _ => { c with array }
  | .createBuffer, .ok id => { c with buffers := { id } :: c.buffers }
  | .createBuffer, .error _ => c
  | .deleteBuffer id, _ =>
    { c with buffers := c.buffers.filter (·.id != id), buffer := c.buffer.filter (· != id) }
  | .bindBuffer buffer, _ => { c with buffer }
  | .bufferData vertices, _ => c.onBuffer fun x => { x with vertices }
  | .describeVertices, _ => c.onArray fun x => { x with source := c.buffer }
  | .enableVertices, _ => c.onArray fun x => { x with enabled := true }
  | .viewport size, _ => { c with viewport := some size }
  | .enable _, _ | .clearColor _, _ | .clear, _ | .drainErrors, _ | .drawTriangles, _ => c

def enter (c : Canvas) : Entry → Canvas
  | .call ⟨.draw r, a⟩ => c.enterDraw r a
  | .call ⟨.screen .dropSurface, _⟩ | .call ⟨.screen .dropContext, _⟩ => { c with closed := true }
  | _ => c

def after (c : Canvas) (t : Trace) : Canvas := t.foldl enter c

/-- The vertices that a draw call takes: those of the buffer that the bound array reads. -/
def drawn? (c : Canvas) : Option (List Float32) := do
  let array ← c.arrays.find? fun x => c.array = some x.id && x.enabled
  let source ← array.source
  let buffer ← c.buffers.find? (·.id == source)
  return buffer.vertices

@[simp] theorem after_nil (c : Canvas) : c.after [] = c := rfl

@[simp] theorem after_cons (c : Canvas) (e : Entry) (t : Trace) : c.after (e :: t) = (c.enter e).after t := rfl

@[simp] theorem after_append (c : Canvas) (t u : Trace) : c.after (t ++ u) = (c.after t).after u := List.foldl_append

end Canvas

def canvas (t : Trace) : Canvas := Canvas.after {} t

theorem canvas_append (past t : Trace) : canvas (past ++ t) = (canvas past).after t := Canvas.after_append _ _ _

theorem ledger_append (past t : Trace) : ledger (past ++ t) = (ledger past).after t := Ledger.after_append _ _ _

def DrawRequest.makes? : (r : DrawRequest) → r.Answer → Option Resource
  | .createVertexArray, .ok id => some (.array id)
  | .createBuffer, .ok id => some (.buffer id)
  | _, _ => none

def DrawRequest.frees? : DrawRequest → Option Resource
  | .deleteVertexArray id => some (.array id)
  | .deleteBuffer id => some (.buffer id)
  | _ => none

def Entry.makes? : Entry → Option Resource
  | .call ⟨.pipeline r, a⟩ => (r.creates? a).map .object
  | .call ⟨.draw r, a⟩ => r.makes? a
  | _ => none

def Entry.frees? : Entry → Option Resource
  | .call ⟨.pipeline r, _⟩ => r.deletes?.map .object
  | .call ⟨.draw r, _⟩ => r.frees?
  | _ => none

/-! ## What is live -/

namespace Canvas

def live (c : Canvas) : List Resource := c.arrays.map (.array ·.id) ++ c.buffers.map (.buffer ·.id)

theorem live_onArray (c : Canvas) (f : ArrayRecord → ArrayRecord) (hf : ∀ x, (f x).id = x.id) :
    (c.onArray f).live = c.live := by
  have h : ∀ x : ArrayRecord, (if c.array = some x.id then f x else x).id = x.id := by
    intro x
    split
    · exact hf x
    · rfl
  simp only [live, onArray, List.map_map, Function.comp_def, h]

theorem live_onBuffer (c : Canvas) (f : BufferRecord → BufferRecord) (hf : ∀ x, (f x).id = x.id) :
    (c.onBuffer f).live = c.live := by
  have h : ∀ x : BufferRecord, (if c.buffer = some x.id then f x else x).id = x.id := by
    intro x
    split
    · exact hf x
    · rfl
  simp only [live, onBuffer, List.map_map, Function.comp_def, h]

theorem mem_live_enterDraw (c : Canvas) (r : DrawRequest) (a : r.Answer) (k : Resource) :
    k ∈ (c.enterDraw r a).live ↔ r.makes? a = some k ∨ (k ∈ c.live ∧ r.frees? ≠ some k) := by
  have none_changed : k ∈ c.live ↔ (none = some k) ∨ (k ∈ c.live ∧ (none : Option Resource) ≠ some k) := by simp
  cases r with
  | createVertexArray =>
    cases a with
    | error _ => exact none_changed
    | ok id =>
      show k ∈ Resource.array id :: c.live ↔ some (Resource.array id) = some k ∨ (k ∈ c.live ∧ none ≠ some k)
      simp [eq_comm]
  | createBuffer =>
    cases a with
    | error _ => exact none_changed
    | ok id =>
      show k ∈ c.arrays.map (Resource.array ·.id) ++ Resource.buffer id :: c.buffers.map (Resource.buffer ·.id) ↔
        some (Resource.buffer id) = some k ∨ (k ∈ c.live ∧ none ≠ some k)
      simp only [live, List.mem_append, List.mem_cons, Option.some.injEq, ne_eq, reduceCtorEq, not_false_eq_true,
        and_true, eq_comm (a := k)]
      exact or_left_comm
  | deleteVertexArray id =>
    show k ∈ (c.arrays.filter (·.id != id)).map (Resource.array ·.id) ++ c.buffers.map (Resource.buffer ·.id) ↔
      none = some k ∨ (k ∈ c.live ∧ some (Resource.array id) ≠ some k)
    cases k <;> grind [live]
  | deleteBuffer id =>
    show k ∈ c.arrays.map (Resource.array ·.id) ++ (c.buffers.filter (·.id != id)).map (Resource.buffer ·.id) ↔
      none = some k ∨ (k ∈ c.live ∧ some (Resource.buffer id) ≠ some k)
    cases k <;> grind [live]
  | bufferData vertices =>
    show k ∈ (c.onBuffer _).live ↔ _
    rw [live_onBuffer]
    · exact none_changed
    · exact fun _ => rfl
  | describeVertices =>
    show k ∈ (c.onArray _).live ↔ _
    rw [live_onArray]
    · exact none_changed
    · exact fun _ => rfl
  | enableVertices =>
    show k ∈ (c.onArray _).live ↔ _
    rw [live_onArray]
    · exact none_changed
    · exact fun _ => rfl
  | _ => exact none_changed

end Canvas

theorem DrawRequest.makes?_ne_object (r : DrawRequest) (a : r.Answer) (h : Handle) : r.makes? a ≠ some (.object h) := by
  cases r with
  | createVertexArray => cases a <;> exact fun he => by cases he
  | createBuffer => cases a <;> exact fun he => by cases he
  | _ => exact fun he => by cases he

theorem DrawRequest.frees?_ne_object (r : DrawRequest) (h : Handle) : r.frees? ≠ some (.object h) := by
  cases r <;> exact fun he => by cases he

theorem canvas_enter_pipeline (c : Canvas) (r : PipelineRequest) (a : r.Answer) : c.enter (said r a) = c := rfl

/-- The objects that are live at a ledger and a canvas. -/
def liveAt (L : Ledger) (c : Canvas) : List Resource := L.live.map .object ++ c.live

section

variable {L : Ledger} {c : Canvas}

theorem mem_liveAt_object {h : Handle} : .object h ∈ liveAt L c ↔ h ∈ L.live := by
  simp [liveAt, Canvas.live]

theorem mem_liveAt_array {id : VertexArrayId} : .array id ∈ liveAt L c ↔ ∃ x ∈ c.arrays, x.id = id := by
  simp [liveAt, Canvas.live]

theorem mem_liveAt_buffer {id : BufferId} : .buffer id ∈ liveAt L c ↔ ∃ x ∈ c.buffers, x.id = id := by
  simp [liveAt, Canvas.live]

/-- **What is live after an entry**: what it made, and what was live and is not freed by it. -/
theorem mem_liveAt_enter (L : Ledger) (c : Canvas) (e : Entry) (k : Resource) :
    k ∈ liveAt (L.enter e) (c.enter e) ↔ e.makes? = some k ∨ (k ∈ liveAt L c ∧ e.frees? ≠ some k) := by
  have none_changed : k ∈ liveAt L c ↔ (none = some k) ∨ (k ∈ liveAt L c ∧ (none : Option Resource) ≠ some k) := by simp
  match e with
  | .event _ => exact none_changed
  | .call ⟨.screen r, _⟩ => cases r <;> exact none_changed
  | .call ⟨.draw r, a⟩ =>
    have hcanvas := Canvas.mem_live_enterDraw c r a k
    have hmakes := r.makes?_ne_object a
    have hfrees := r.frees?_ne_object
    show k ∈ L.live.map Resource.object ++ (c.enterDraw r a).live ↔
      r.makes? a = some k ∨ k ∈ L.live.map Resource.object ++ c.live ∧ r.frees? ≠ some k
    rw [List.mem_append, List.mem_append, hcanvas]
    cases k with
    | object h => simp [hmakes h, hfrees h]
    | array id => simp
    | buffer id => simp
  | .call ⟨.pipeline r, a⟩ =>
    rw [canvas_enter_pipeline]
    cases k with
    | object h =>
      have hledger : h ∈ (L.enter (.call ⟨.pipeline r, a⟩)).live ↔
          r.creates? a = some h ∨ h ∈ L.live ∧ r.deletes? ≠ some h :=
        Ledger.mem_live_enter L (said r a) h
      rw [mem_liveAt_object, mem_liveAt_object, hledger]
      simp [Entry.makes?, Entry.frees?]
    | array id => simp [Entry.makes?, Entry.frees?, mem_liveAt_array]
    | buffer id => simp [Entry.makes?, Entry.frees?, mem_liveAt_buffer]

end

/-- **The objects of the drawing library**: those of the ledger and those of the canvas. -/
def resources : Accounts Resource where
  makes? := Entry.makes?
  frees? := Entry.frees?
  live past := liveAt (ledger past) (canvas past)
  mem_live_concat past e k := by
    rw [ledger_append, canvas_append]
    exact mem_liveAt_enter (ledger past) (canvas past) e k

/-! ## Using and releasing -/

def Canvas.bound (c : Canvas) : List Resource := c.array.toList.map .array ++ c.buffer.toList.map .buffer

/-- The buffers that the bound array reads. -/
def Canvas.sources (c : Canvas) : List Resource :=
  ((c.arrays.filter fun x => c.array = some x.id).filterMap (·.source)).map .buffer

/-- What a request names, and what it reaches through what is bound. -/
def DrawRequest.uses (c : Canvas) : DrawRequest → List Resource
  | .deleteVertexArray id | .bindVertexArray (some id) => [.array id]
  | .deleteBuffer id | .bindBuffer (some id) => [.buffer id]
  | .bufferData _ => c.buffer.toList.map .buffer
  | .describeVertices => c.bound
  | .enableVertices => c.array.toList.map .array
  | .drawTriangles => c.array.toList.map .array ++ c.sources
  | .enable _ | .clearColor _ | .viewport _ | .clear | .drainErrors | .createVertexArray | .bindVertexArray none
  | .createBuffer | .bindBuffer none => []

def Ledger.inUse (L : Ledger) : List Resource := L.current.toList.map fun p => .object (.program p)

/-- What an entry names, and what it reaches through what is current or bound. -/
def Entry.uses (L : Ledger) (c : Canvas) : Entry → List Resource
  | .call ⟨.pipeline (.setUniform _ _), _⟩ => L.inUse
  | .call ⟨.pipeline r, _⟩ => r.handles.map .object
  | .call ⟨.draw .drawTriangles, _⟩ => L.inUse ++ DrawRequest.drawTriangles.uses c
  | .call ⟨.draw r, _⟩ => r.uses c
  | _ => []

/-- **The discipline of an owner**, at a ledger and a canvas: what is used is live, what is deleted is neither current
nor bound, there is never more than one vertex array or one buffer, and nothing is used or deleted after surface or
context were dropped. -/
@[mk_iff]
structure Careful (L : Ledger) (c : Canvas) (e : Entry) : Prop where
  uses_live : ∀ k ∈ e.uses L c, k ∈ liveAt L c
  frees_unused : ∀ k, e.frees? = some k → k ∉ L.inUse ++ c.bound
  one_quad : (c.enter e).arrays.length ≤ 1 ∧ (c.enter e).buffers.length ≤ 1
  before_closing : c.closed = true → e.uses L c = [] ∧ e.frees? = none

/-- The discipline is kept along a trace. -/
def Carefully : Ledger → Canvas → Trace → Prop
  | _, _, [] => True
  | L, c, e :: t => Careful L c e ∧ Carefully (L.enter e) (c.enter e) t

section

variable {L : Ledger} {c : Canvas} {e : Entry} {k : Resource}

theorem carefully_append : ∀ {t u : Trace} {L : Ledger} {c : Canvas},
    Carefully L c (t ++ u) ↔ Carefully L c t ∧ Carefully (L.after t) (c.after t) u
  | [], u, L, c => ⟨fun h => ⟨trivial, h⟩, And.right⟩
  | e :: t, u, L, c => by
    rw [List.cons_append]
    show Careful L c e ∧ Carefully (L.enter e) (c.enter e) (t ++ u) ↔
      (Careful L c e ∧ Carefully (L.enter e) (c.enter e) t) ∧ Carefully (L.after (e :: t)) (c.after (e :: t)) u
    rw [carefully_append, and_assoc]
    rfl

theorem Carefully.at {pre post : Trace} (h : Carefully L c (pre ++ e :: post)) :
    Careful (L.after pre) (c.after pre) e :=
  (carefully_append.1 h).2.1

theorem Entry.frees_used (hfrees : e.frees? = some k) : k ∈ e.uses L c := by
  match e with
  | .event _ => cases hfrees
  | .call ⟨.screen _, _⟩ => cases hfrees
  | .call ⟨.draw r, _⟩ => cases r <;> cases hfrees <;> exact List.mem_singleton_self _
  | .call ⟨.pipeline r, _⟩ => cases r <;> cases hfrees <;> exact List.mem_cons_self

theorem Carefully.frees_live {t : Trace} (h : Carefully {} {} t) : Throughout resources.FreesLive [] t := by
  rintro pre e post rfl k hfrees
  exact h.at.uses_live k (Entry.frees_used hfrees)

/-- What a careful owner makes is not live, where handles of shaders and programs are fresh: there is room for one
vertex array and one buffer only. -/
theorem Careful.makes_new (h : Careful L c e) (hfresh : Ledger.Fresh L e) (hmakes : e.makes? = some k) :
    k ∉ liveAt L c := by
  obtain ⟨harrays, hbuffers⟩ := h.one_quad
  match e with
  | .event _ => cases hmakes
  | .call ⟨.screen _, _⟩ => cases hmakes
  | .call ⟨.pipeline r, a⟩ =>
    obtain ⟨handle, hcreates, rfl⟩ := Option.map_eq_some_iff.1 hmakes
    rw [mem_liveAt_object]
    exact hfresh handle hcreates
  | .call ⟨.draw r, a⟩ =>
    cases r with
    | createVertexArray =>
      cases a with
      | error _ => cases hmakes
      | ok id =>
        cases hmakes
        rw [mem_liveAt_array]
        rintro ⟨x, hx, -⟩
        have hpos := List.length_pos_of_mem hx
        have hmade : c.arrays.length + 1 ≤ 1 := harrays
        omega
    | createBuffer =>
      cases a with
      | error _ => cases hmakes
      | ok id =>
        cases hmakes
        rw [mem_liveAt_buffer]
        rintro ⟨x, hx, -⟩
        have hpos := List.length_pos_of_mem hx
        have hmade : c.buffers.length + 1 ≤ 1 := hbuffers
        omega
    | _ => cases hmakes

theorem Carefully.makes_new {t : Trace} (h : Carefully {} {} t) (hfresh : Ledger.Along Ledger.Fresh {} t) :
    Throughout resources.MakesNew [] t := by
  rintro pre e post rfl k hmakes
  exact h.at.makes_new ((Ledger.along_append _ _ _).1 hfresh).2.1 hmakes

end

end Machine
end LiveShader
