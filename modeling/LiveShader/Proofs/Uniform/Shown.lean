import LiveShader.Camera
import LiveShader.Clock
import LiveShader.Input.State
/-!
# Proofs.Uniform.Shown — what a table shows of input, time and camera

A frame assigns the uniforms of input and time, a new size those of the camera.  Which uniform shows what is said here
uniform by uniform, apart from the lists of assignments that the program goes through.
-/
namespace LiveShader

variable {t : Uniform.Table}

namespace InputState

/-- What a table shows of an input; of what is held or set, one for each entry that is and zero for each that is not. -/
structure Shown (s : InputState) (t : Uniform.Table) : Prop where
  mouse : t.value .mouse = .vec2 s.mouse
  center : t.value .center = .vec2 s.center
  zoom : t.value .zoom = .float s.zoom
  mode : t.value .mode = .int s.mode
  increment : t.value .increment = .int s.increment
  buttons : t.value .mousePressed = .ints (List.ofFn fun i : Fin 3 => if s.buttons[i] then 1 else 0)
  arrows : t.value .keyPressed = .ints (List.ofFn fun i : Fin 4 => if s.arrows[i] then 1 else 0)
  flags : t.value .flags = .ints (List.ofFn fun i : Fin 10 => if s.flags[i] then 1 else 0)

theorem bits_eq_ofFn {n : Nat} (held : Vector Bool n) :
    bits held.toList = .ints (List.ofFn fun i : Fin n => if held[i] then 1 else 0) := by
  unfold bits
  congr 1
  apply List.ext_getElem
  · simp
  · simp

theorem shown_of_values {s : InputState} (h : ∀ p ∈ s.values, t.value p.1 = p.2) : s.Shown t := by
  simp only [values, List.forall_mem_cons] at h
  obtain ⟨hmouse, hcenter, hzoom, hmode, hincrement, hbuttons, harrows, hflags, -⟩ := h
  refine ⟨hmouse, hcenter, hzoom, hmode, hincrement, ?_, ?_, ?_⟩
  · rw [hbuttons, bits_eq_ofFn]
  · rw [harrows, bits_eq_ofFn]
  · rw [hflags, bits_eq_ofFn]

end InputState

/-- What a table shows of the time: seconds since the clock's start, and milliseconds since the last frame. -/
structure TimeSample.Shown (s : TimeSample) (t : Uniform.Table) : Prop where
  time : t.value .time = .float s.seconds
  delta : t.value .delta = .float (s.deltaSeconds * 1000.0)

namespace ViewProjection

/-- What a table shows of a camera. -/
structure Shown (c : ViewProjection Float32) (t : Uniform.Table) : Prop where
  mvp : t.value .mvp = .mat4 c.combined
  model : t.value .model = .mat4 c.model
  view : t.value .view = .mat4 c.view
  projection : t.value .projection = .mat4 c.projection
  resolution : t.value .resolution = .vec2 c.resolution
  ratio : t.value .ratio = .float c.aspect

theorem shown_of_values {c : ViewProjection Float32} (h : ∀ p ∈ c.values, t.value p.1 = p.2) : c.Shown t := by
  simp only [values, List.forall_mem_cons] at h
  obtain ⟨hmvp, hmodel, hview, hprojection, hresolution, hratio, -⟩ := h
  exact ⟨hmvp, hmodel, hview, hprojection, hresolution, hratio⟩

end ViewProjection
end LiveShader
