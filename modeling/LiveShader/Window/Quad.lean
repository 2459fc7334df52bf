import LiveShader.Machine.Run
import LiveShader.Scalar
/-!
# Window.Quad — the two triangles that cover the window

The quad spans the window's pixels at depth zero.  It is a vertex array over a buffer of its own.
-/
namespace LiveShader
namespace Window

open Machine

structure Quad where
  array : VertexArrayId
  buffer : BufferId
deriving DecidableEq, Repr

namespace Quad

variable {σ : Type}

/-- The corners of two triangles over `0..width` and `0..height`, three numbers each. -/
def vertices {α : Type} [Scalar α] (size : Size) : List α :=
  let o : α := Scalar.zero
  let w := Scalar.ofNat size.width
  let h := Scalar.ofNat size.height
  [o, o, o,
    w, o, o,
    w, h, o,
    o, o, o,
    o, h, o,
    w, h, o]

/-- Makes the quad for a window size; without a buffer there is no vertex array either. -/
def make (size : Size) : Run σ (Option Quad) := do
  match ← draw .createVertexArray with
  | .error _ => return none
  | .ok array =>
    match ← draw .createBuffer with
    | .error _ =>
      draw (.deleteVertexArray array)
      return none
    | .ok buffer =>
      draw (.bindVertexArray (some array))
      draw (.bindBuffer (some buffer))
      draw (.bufferData (vertices size))
      draw .describeVertices
      draw .enableVertices
      draw (.bindVertexArray none)
      draw (.bindBuffer none)
      return some ⟨array, buffer⟩

def paint (q : Quad) : Run σ Unit := do
  draw (.bindVertexArray (some q.array))
  draw .drawTriangles
  draw (.bindVertexArray none)

def release (q : Quad) : Run σ Unit := do
  draw (.deleteBuffer q.buffer)
  draw (.deleteVertexArray q.array)

end Quad
end Window
end LiveShader
