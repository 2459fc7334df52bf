import LiveShader.Proofs.Uniform.Shown
import LiveShader.Proofs.Window.Moves
/-!
# Proofs.Window.Frame — what one frame uploads

A frame of a sound viewer uploads, between clearing and swapping, one value for each uniform that the current program's
last link reports, at the location that it reports; without a program or without a quad it uploads nothing.
-/
namespace LiveShader
namespace Window

open Machine
open Ledger (Along)
open LiveShader.Uniform (Reports)
open LiveShader.Uniform.Table (Assigns Syncs uploads)

variable {σ : Type}

/-- A request about the frame with its answer, as an entry of a trace. -/
abbrev drew (r : DrawRequest) (a : r.Answer) : Entry := .call ⟨.draw r, a⟩

abbrev showed (r : ScreenRequest) (a : r.Answer) : Entry := .call ⟨.screen r, a⟩

/-! ## The values of a frame -/

theorem bits_shape (held : List Bool) : (InputState.bits held).shape = .ints held.length := by
  simp [InputState.bits, Uniform.Value.shape]

theorem frameValues_assigns (input : InputState) (sample : TimeSample) :
    Assigns (Viewer.frameValues input sample) := by
  constructor
  · intro p hp
    simp only [Viewer.frameValues, InputState.values, List.cons_append, List.nil_append, List.mem_cons,
      List.not_mem_nil, or_false] at hp
    rcases hp with rfl | rfl | rfl | rfl | rfl | rfl | rfl | rfl | rfl | rfl
    · rfl
    · rfl
    · rfl
    · rfl
    · rfl
    · rw [bits_shape, Vector.length_toList]; rfl
    · rw [bits_shape, Vector.length_toList]; rfl
    · rw [bits_shape, Vector.length_toList]; rfl
    · rfl
    · rfl
  · show [Uniform.mouse, .center, .zoom, .mode, .increment, .mousePressed, .keyPressed, .flags, .time, .delta].Nodup
    decide

theorem shown_of_frameValues {input : InputState} {sample : TimeSample} {table : Uniform.Table}
    (h : ∀ p ∈ Viewer.frameValues input sample, table.value p.1 = p.2) : input.Shown table ∧ sample.Shown table := by
  obtain ⟨hinput, htime⟩ := List.forall_mem_append.1 h
  simp only [List.forall_mem_cons] at htime
  obtain ⟨hseconds, hdelta, -⟩ := htime
  exact ⟨InputState.shown_of_values hinput, hseconds, hdelta⟩

theorem camera_assigns (c : ViewProjection Float32) : Assigns c.values := by
  constructor
  · intro p hp
    simp only [ViewProjection.values, List.mem_cons, List.not_mem_nil, or_false] at hp
    rcases hp with rfl | rfl | rfl | rfl | rfl | rfl <;> rfl
  · show [Uniform.mvp, .model, .view, .projection, .resolution, .ratio].Nodup
    decide

theorem camera_not_in_frame (c : ViewProjection Float32) (input : InputState) (sample : TimeSample) :
    ∀ p ∈ c.values, p.1 ∉ (Viewer.frameValues input sample).map (·.1) := by
  have hapart : ∀ u ∈ [Uniform.mvp, .model, .view, .projection, .resolution, .ratio],
      u ∉ [Uniform.mouse, .center, .zoom, .mode, .increment, .mousePressed, .keyPressed, .flags, .time, .delta] := by
    decide
  intro p hp
  exact hapart p.1 (List.mem_map_of_mem (f := (·.1)) hp)

/-- A table that differs from another at most in the uniforms of a frame holds the same camera. -/
theorem camera_kept {c : ViewProjection Float32} {input : InputState} {sample : TimeSample} {old new : Uniform.Table}
    (hkept : ∀ u, u ∉ (Viewer.frameValues input sample).map (·.1) → new.value u = old.value u)
    (h : ∀ p ∈ c.values, old.value p.1 = p.2) : ∀ p ∈ c.values, new.value p.1 = p.2 := by
  intro p hp
  rw [hkept p.1 (camera_not_in_frame c input sample p hp)]
  exact h p hp

/-! ## The calls of a frame -/

def Quad.painting (q : Quad) : Trace :=
  [drew (.bindVertexArray (some q.array)) (), drew .drawTriangles (), drew (.bindVertexArray none) ()]

theorem Quad.paint_calls (q : Quad) : (q.paint : Run σ Unit).Calls fun _ t => t = q.painting :=
  fun _ => .ask fun _ => .ask fun _ => .ask_last fun _ => ⟨rfl, rfl⟩

namespace Viewer

def painting (v : Viewer) : Trace :=
  match v.quad, v.programs.active with
  | some quad, some l =>
    said (.useProgram (some l.program)) () ::
      (uploads v.uniforms.order.walk (fun u => (v.uniforms.location u).index?) v.uniforms.value ++
        (quad.painting ++ [said (.useProgram none) ()]))
  | _, _ => []

theorem paint_calls (v : Viewer) : (v.paint : Run σ Unit).Calls fun _ t => t = v.painting := by
  intro files
  unfold paint painting
  cases v.quad with
  | none => exact .pure ⟨rfl, rfl⟩
  | some quad =>
    refine .calls (Program.Slot.bind_calls v.programs) fun bound t h => ?_
    cases hl : v.programs.active with
    | none =>
      rw [hl] at h
      obtain ⟨rfl, rfl⟩ := h
      exact .pure ⟨rfl, rfl⟩
    | some l =>
      rw [hl] at h
      obtain ⟨rfl, rfl⟩ := h
      refine .calls (v.uniforms.pushEach_calls v.uniforms.order.walk) fun _ p hp => ?_
      refine .calls quad.paint_calls fun _ q hq => .ask_last fun _ => ⟨?_, rfl⟩
      rw [hp, hq]
      rfl

/-- The calls of a frame around what is asked about locations and what is painted. -/
def framing (now : Instant) (queries painted : Trace) (swapped : Except String Unit) (codes : List Nat) : Trace :=
  showed .now now :: (queries ++ (drew .clear () ::
    (painted ++ [showed .swapBuffers swapped, drew .drainErrors codes])))

/-- The viewer after a frame that read the clock, with the table that it was painted from. -/
def rendered (v : Viewer) (now : Instant) (table : Uniform.Table) : Viewer :=
  { v with
    clock := (v.clock.sampleAt now).2
    input := v.input.advance (v.clock.sampleAt now).1.deltaSeconds
    uniforms := table }

def valuesAt (v : Viewer) (now : Instant) : List (Uniform × Uniform.Value) :=
  frameValues (v.input.advance (v.clock.sampleAt now).1.deltaSeconds) (v.clock.sampleAt now).1

inductive Renders (v : Viewer) : Viewer → Trace → Prop
  | rendered (now : Instant) {table : Uniform.Table} {q : Trace} (swapped : Except String Unit) (codes : List Nat) :
    Syncs (v.uniforms.setAll (v.valuesAt now)) v.programs table q →
      Renders v (v.rendered now table) (framing now q (v.rendered now table).painting swapped codes)

theorem renderFrame_calls (v : Viewer) : (v.renderFrame : Run σ Viewer).Calls fun w t => Renders v w t := by
  intro files
  refine .ask fun now => ?_
  refine .calls (Uniform.Table.sync_calls _ v.programs) fun table q hq => ?_
  refine .ask fun _ => .calls (paint_calls _) fun _ p hp => ?_
  subst hp
  exact .ask fun swapped => .ask fun codes => .pure ⟨.rendered now swapped codes hq, rfl⟩

/-! ## A frame of a sound viewer -/

section

variable {report : Nat → String → Option Nat} {order : Uniform.Order} {past q t : Trace} {v w : Viewer}
  {table : Uniform.Table} {values : List (Uniform × Uniform.Value)}

theorem Sound.synced (h : Sound report order past v) (hv : Assigns values)
    (hs : Syncs (v.uniforms.setAll values) v.programs table q) (hq : Along (Reports report) (ledger past) q) :
    (table.Cached report ∧ (v.programs.isLoaded = true → table.resolvedFor = some v.programs.generation)) ∧
    table.Shaped ∧ table.order = order ∧ (∀ p ∈ values, table.value p.1 = p.2) ∧
    ∀ u, u ∉ values.map (·.1) → table.value u = v.uniforms.value u := by
  obtain ⟨hshaped, hset, hkept⟩ := hs.values h.shaped hv
  obtain ⟨horder, -, -⟩ := hs.keeps (L := ledger past)
  refine ⟨hs.located (h.cached.setAll values) h.tracks hq, hshaped, ?_, hset, hkept⟩
  rw [horder, (Uniform.Table.setAll_keeps values v.uniforms).1, h.ordered]

/-- **A frame, after a past**: what it asks the driver, what it paints and the values it paints with. -/
structure Frame (report : Nat → String → Option Nat) (order : Uniform.Order) (past : Trace) (v w : Viewer)
    (now : Instant) (queries painted : Trace) : Prop where
  queries : ∀ e ∈ queries, ∃ p name answer, e = said (.uniformLocation p name) answer
  drawn : ∀ quad l, v.quad = some quad → v.programs.active = some l →
    ∃ x ∈ (ledger past).programs, x.id = l.program ∧ ∃ n, x.link = some n ∧
      painted = said (.useProgram (some l.program)) () ::
        (uploads order.walk (fun u => report n u.glslName) w.uniforms.value ++
          (quad.painting ++ [said (.useProgram none) ()]))
  blank : v.quad = none ∨ v.programs.active = none → painted = []
  input : (v.input.advance (v.clock.sampleAt now).1.deltaSeconds).Shown w.uniforms
  time : (v.clock.sampleAt now).1.Shown w.uniforms
  camera : v.quad.isSome = true →
    ∃ size, lastSize past = some size ∧ (ViewProjection.ofSize .standard size).Shown w.uniforms

theorem painting_of_blank (h : v.quad = none ∨ v.programs.active = none) : v.painting = [] := by
  unfold painting
  rcases h with h | h
  · rw [h]
  · rw [h]
    cases v.quad <;> rfl

theorem painting_of_drawn {quad : Quad} {l : Program.Linked} (hq : v.quad = some quad)
    (hl : v.programs.active = some l) :
    v.painting = said (.useProgram (some l.program)) () ::
      (uploads v.uniforms.order.walk (fun u => (v.uniforms.location u).index?) v.uniforms.value ++
        (quad.painting ++ [said (.useProgram none) ()])) := by
  unfold painting
  rw [hq, hl]

theorem painting_cases (v : Viewer) : v.painting = [] ∨
    ∃ quad l, v.quad = some quad ∧ v.programs.active = some l ∧ v.painting =
      said (.useProgram (some l.program)) () ::
        (uploads v.uniforms.order.walk (fun u => (v.uniforms.location u).index?) v.uniforms.value ++
          (quad.painting ++ [said (.useProgram none) ()])) := by
  cases hq : v.quad with
  | none => exact .inl (painting_of_blank (.inl hq))
  | some quad =>
    cases hl : v.programs.active with
    | none => exact .inl (painting_of_blank (.inr hl))
    | some l => exact .inr ⟨quad, l, rfl, rfl, painting_of_drawn hq hl⟩

/-- **What a sound viewer renders is a frame.** -/
theorem Renders.frame (h : Renders v w t) (hv : Sound report order past v)
    (hfits : ∀ n name, ∀ k ∈ report n name, k ≤ Uniform.Location.limit) (hr : Along (Reports report) (ledger past) t) :
    ∃ now queries painted swapped codes, t = framing now queries painted swapped codes ∧
      Frame report order past v w now queries painted := by
  cases h with
  | @rendered now table q swapped codes hs =>
    have hq : Along (Reports report) (ledger past) q := ((Ledger.along_append q _ _).1 hr.2).1
    obtain ⟨⟨hcached, hresolved⟩, -, horder, hset, hkept⟩ := hv.synced (frameValues_assigns _ _) hs hq
    obtain ⟨hinput, htime⟩ := shown_of_frameValues hset
    refine ⟨now, q, _, swapped, codes, rfl, hs.queries, ?_, fun h => painting_of_blank h, hinput, htime, ?_⟩
    · intro quad l hquad hl
      obtain ⟨x, hx, hid, hlink⟩ := hv.tracks.program hl
      have hindex : (fun u => (table.location u).index?) = fun u => report v.programs.generation u.glslName := by
        funext u
        exact hcached.index? (hresolved (Program.Slot.isLoaded_of_active hl)) hfits u
      refine ⟨x, hx, hid, _, hlink, ?_⟩
      rw [← hindex, ← horder]
      exact painting_of_drawn hquad hl
    · intro hquad
      obtain ⟨size, hsize⟩ := Option.isSome_iff_exists.1 (hv.sized hquad)
      exact ⟨size, hsize, ViewProjection.shown_of_values (camera_kept hkept (hv.camera size hsize))⟩

theorem resized?_of_painting : ∀ e ∈ v.painting, resized? e = none := by
  obtain hblank | ⟨quad, l, -, -, hpainting⟩ := painting_cases v
  · rw [hblank]
    exact fun _ h => by cases h
  · rw [hpainting]
    simp only [List.mem_cons, List.mem_append, Uniform.Table.mem_uploads, Quad.painting, List.not_mem_nil, or_false]
    rintro e (rfl | ⟨u, -, n, -, rfl⟩ | (rfl | rfl | rfl) | rfl) <;> rfl

theorem painting_linkage (v : Viewer) (L : Ledger) : Program.linkage (L.after v.painting) = Program.linkage L := by
  obtain hblank | ⟨quad, l, -, -, hpainting⟩ := painting_cases v
  · rw [hblank]
    rfl
  · rw [hpainting, Ledger.after_cons, Ledger.after_append, Uniform.Table.after_uploads]
    rfl

/-- **Painting uploads to current locations only**, when the table is in line with the slot. -/
theorem painting_located {L : Ledger}
    (h : ∀ l, v.programs.active = some l → ∃ x ∈ L.programs, x.id = l.program ∧
      ∃ n, x.link = some n ∧ ∀ u, (v.uniforms.location u).index? = report n u.glslName) :
    Along (Located report) L v.painting := by
  obtain hblank | ⟨quad, l, -, hl, hpainting⟩ := painting_cases v
  · rw [hblank]
    trivial
  · obtain ⟨x, hx, hid, n, hlink, hindex⟩ := h l hl
    rw [hpainting]
    refine ⟨trivial, (Ledger.along_append _ _ _).2 ⟨Uniform.Table.along_uploads (fun u k hk => ?_) _, ?_⟩⟩
    · rw [hindex u] at hk
      exact ⟨x, hx, by rw [hid]; rfl, n, hlink, u, hk⟩
    · exact ⟨trivial, trivial, trivial, trivial, trivial⟩

theorem located_of_query {e : Entry} (h : ∃ p name answer, e = said (.uniformLocation p name) answer) (L : Ledger) :
    Located report L e := by
  obtain ⟨p, name, answer, rfl⟩ := h
  trivial

theorem resized?_of_query {e : Entry} (h : ∃ p name answer, e = said (.uniformLocation p name) answer) :
    resized? e = none := by
  obtain ⟨p, name, answer, rfl⟩ := h
  rfl

section

variable {now : Instant} {painted : Trace} {swapped : Except String Unit} {codes : List Nat}
  (hq : ∀ e ∈ q, ∃ p name answer, e = said (.uniformLocation p name) answer)

include hq

theorem resized?_of_framing (hp : ∀ e ∈ painted, resized? e = none) :
    ∀ e ∈ framing now q painted swapped codes, resized? e = none := by
  intro e he
  simp only [framing, List.mem_cons, List.mem_append, List.not_mem_nil, or_false] at he
  rcases he with rfl | he | rfl | he | rfl | rfl
  · rfl
  · exact resized?_of_query (hq e he)
  · rfl
  · exact hp e he
  · rfl
  · rfl

theorem framing_located {L : Ledger} (hL : L.after q = L) (hp : Along (Located report) L painted) :
    Along (Located report) L (framing now q painted swapped codes) := by
  refine ⟨trivial, (Ledger.along_append _ _ _).2 ⟨along_of_all (fun e he => located_of_query (hq e he)) _, ?_⟩⟩
  rw [show (L.enter (showed .now now)).after q = L from hL]
  exact ⟨trivial, (Ledger.along_append _ _ _).2 ⟨hp, trivial, trivial, trivial⟩⟩

end

theorem framing_linkage {now : Instant} {painted : Trace} {swapped : Except String Unit} {codes : List Nat}
    {L : Ledger} (hL : L.after q = L) (hp : Program.linkage (L.after painted) = Program.linkage L) :
    Program.linkage (L.after (framing now q painted swapped codes)) = Program.linkage L := by
  unfold framing
  rw [Ledger.after_cons, Ledger.after_append, show (L.enter (showed .now now)).after q = L from hL, Ledger.after_cons,
    Ledger.after_append]
  exact hp

/-- **A frame keeps a viewer sound.** -/
theorem Renders.keeps (h : Renders v w t) (hfits : ∀ n name, ∀ k ∈ report n name, k ≤ Uniform.Location.limit) :
    Keeps report order v w t := by
  intro past hv hr
  cases h with
  | @rendered now table q swapped codes hs =>
    have hq : Along (Reports report) (ledger past) q := ((Ledger.along_append q _ _).1 hr.2).1
    obtain ⟨⟨hcached, hresolved⟩, hshaped, horder, hset, hkept⟩ := hv.synced (frameValues_assigns _ _) hs hq
    obtain ⟨-, -, hafter⟩ := hs.keeps (L := ledger past)
    have hlast : lastSize (past ++ framing now q (v.rendered now table).painting swapped codes) = lastSize past :=
      lastSize_append (resized?_of_framing hs.queries resized?_of_painting) past
    constructor
    · refine framing_located hs.queries hafter (painting_located fun l hl => ?_)
      obtain ⟨x, hx, hid, hlink⟩ := hv.tracks.program hl
      exact ⟨x, hx, hid, _, hlink, hcached.index? (hresolved (Program.Slot.isLoaded_of_active hl)) hfits⟩
    · refine ⟨?_, hcached, hshaped, horder, fun hquad => ?_, fun size hsize => ?_⟩
      · unfold Program.Slot.Tracks
        rw [ledger_append, framing_linkage hafter (painting_linkage _ _)]
        exact hv.tracks
      · rw [hlast]
        exact hv.sized hquad
      · rw [hlast] at hsize
        exact camera_kept hkept (hv.camera size hsize)

end

end Viewer
end Window
end LiveShader
