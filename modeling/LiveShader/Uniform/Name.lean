import LiveShader.Linear
/-!
# Uniform.Name — the uniforms of the harness and the values they hold

Every shader sees the same sixteen uniforms.  A value has a shape, and each uniform is declared with one.
-/
namespace LiveShader

/-- The uniforms that the harness declares, by meaning. -/
inductive Uniform where
  | mvp | model | view | projection
  | mouse | center | resolution
  | time | delta | ratio | zoom
  | increment | mode
  | mousePressed | keyPressed | flags
deriving DecidableEq, Repr, Inhabited

namespace Uniform

inductive Value where
  | int (n : Int)
  | float (x : Float32)
  | vec2 (v : Vec2 Float32)
  | vec3 (v : Vec3 Float32)
  | vec4 (v : Vec4 Float32)
  | mat2 (m : Mat2 Float32)
  | mat3 (m : Mat3 Float32)
  | mat4 (m : Mat4 Float32)
  | ints (ns : List Int)

/-- What kind of value a uniform is declared with; an array's length is part of it. -/
inductive Shape where
  | int | float | vec2 | vec3 | vec4 | mat2 | mat3 | mat4
  | ints (length : Nat)
deriving DecidableEq, Repr

def Value.shape : Value → Shape
  | .int _ => .int
  | .float _ => .float
  | .vec2 _ => .vec2
  | .vec3 _ => .vec3
  | .vec4 _ => .vec4
  | .mat2 _ => .mat2
  | .mat3 _ => .mat3
  | .mat4 _ => .mat4
  | .ints ns => .ints ns.length

abbrev buttonCount : Nat := 3

abbrev arrowCount : Nat := 4

abbrev flagCount : Nat := 10

/-- All uniforms, in the order in which they are declared by meaning. -/
def all : List Uniform :=
  [.mvp, .model, .view, .projection, .mouse, .center, .resolution, .time, .delta, .ratio, .zoom, .increment, .mode,
    .mousePressed, .keyPressed, .flags]

/-- An order in which to go through all uniforms. -/
structure Order where
  walk : List Uniform
  perm : walk.Perm all

/-- The order of `all`. -/
def Order.declared : Order := ⟨all, .refl _⟩

def index : Uniform → Fin 16
  | mvp => 0 | model => 1 | view => 2 | projection => 3
  | mouse => 4 | center => 5 | resolution => 6
  | time => 7 | delta => 8 | ratio => 9 | zoom => 10
  | increment => 11 | mode => 12
  | mousePressed => 13 | keyPressed => 14 | flags => 15

def glslName : Uniform → String
  | mvp => "MVP"
  | model => "M"
  | view => "V"
  | projection => "P"
  | mouse => "ivMouse"
  | center => "fvCenter"
  | resolution => "uvResolution"
  | time => "fTime"
  | delta => "fDelta"
  | ratio => "fRatio"
  | zoom => "fZoom"
  | increment => "iIncrement"
  | mode => "iMode"
  | mousePressed => "vbMousePressed"
  | keyPressed => "vbKeyPressed"
  | flags => "vbFlags"

def initial : Uniform → Value
  | mvp | model | view | projection => .mat4 (Mat4.fill 0.0)
  | mouse | center | resolution => .vec2 ⟨0.0, 0.0⟩
  | zoom => .float 1.0
  | time | delta | ratio => .float 0.0
  | increment | mode => .int 0
  | mousePressed => .ints (List.replicate buttonCount 0)
  | keyPressed => .ints (List.replicate arrowCount 0)
  | flags => .ints (List.replicate flagCount 0)

def shape (u : Uniform) : Shape := u.initial.shape

theorem mem_all (u : Uniform) : u ∈ all := by cases u <;> decide

theorem getElem_all_index (u : Uniform) : all[u.index.val]? = some u := by cases u <;> rfl

theorem index_inj {u v : Uniform} (h : u.index = v.index) : u = v := by
  have hu := getElem_all_index u
  rw [h, getElem_all_index v] at hu
  exact (Option.some.inj hu).symm

end Uniform
end LiveShader
