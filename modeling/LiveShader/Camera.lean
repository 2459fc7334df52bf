import LiveShader.Size
import LiveShader.Uniform.Table
/-!
# Camera — the perspective view of the screen quad

The quad spans the window's pixels at depth zero.  The eye stands in front of its centre, as far away as the
vertical field of view takes to cover exactly the window's height, so the quad fills the window at every size.
-/
namespace LiveShader

/-- The visible volume: the vertical field of view in degrees, and the near and far planes. -/
structure Frustum (α : Type) where
  fov : α
  near : α
  far : α

structure ViewProjection (α : Type) where
  model : Mat4 α
  view : Mat4 α
  projection : Mat4 α
  /-- The product of projection, view and model. -/
  combined : Mat4 α
  resolution : Vec2 α
  aspect : α

section

variable {α : Type} [Add α] [Sub α] [Mul α] [Div α] [Neg α] [Scalar α]

open Scalar

/-- The right-handed view from an eye to a target with the second axis up. -/
def lookAt (eye target : Vec3 α) : Mat4 α :=
  let f := (target.sub eye).normalize
  let s := (f.cross ⟨zero, one, zero⟩).normalize
  let u := s.cross f
  { c0 := ⟨s.x, u.x, -f.x, zero⟩
    c1 := ⟨s.y, u.y, -f.y, zero⟩
    c2 := ⟨s.z, u.z, -f.z, zero⟩
    c3 := ⟨-(eye.dot s), -(eye.dot u), eye.dot f, one⟩ }

/-- The perspective projection to depths from -1 to 1. -/
def perspective (fov aspect near far : α) : Mat4 α :=
  let l := one / (near - far)
  let t := one / tan (half * fov)
  { c0 := ⟨t / aspect, zero, zero, zero⟩
    c1 := ⟨zero, t, zero, zero⟩
    c2 := ⟨zero, zero, (near + far) * l, -one⟩
    c3 := ⟨zero, zero, two * near * far * l, zero⟩ }

/-- The camera for a window size; a dimension of zero counts as one. -/
def ViewProjection.ofSize (frustum : Frustum α) (size : Size) : ViewProjection α :=
  let resolution : Vec2 α := ⟨ofNat size.atLeastOne.width, ofNat size.atLeastOne.height⟩
  let aspect := resolution.x / resolution.y
  let fov := frustum.fov * degree
  let distance := resolution.y * half / tan (fov * half)
  let target : Vec3 α := ⟨resolution.x * half, resolution.y * half, zero⟩
  let eye := target.add (Vec3.scale ⟨zero, zero, one⟩ distance)
  let far := max frustum.far (distance * two)
  let model := Mat4.identity
  let view := lookAt eye target
  let projection := perspective fov aspect frustum.near far
  { model, view, projection, combined := (projection.mul view).mul model, resolution, aspect }

end

/-- Ninety degrees, from a tenth of a pixel to ten thousand pixels. -/
def Frustum.standard : Frustum Float32 := ⟨90.0, Float32.ofBits 0x3dcccccd, 10000.0⟩

def ViewProjection.values (c : ViewProjection Float32) : List (Uniform × Uniform.Value) :=
  [(.mvp, .mat4 c.combined), (.model, .mat4 c.model), (.view, .mat4 c.view), (.projection, .mat4 c.projection),
    (.resolution, .vec2 c.resolution), (.ratio, .float c.aspect)]

end LiveShader
