import LiveShader.Scalar
/-!
# Linear — vectors and matrices

Vectors of two to four components, and matrices as their columns.  Sums run from left to right.
-/
namespace LiveShader

structure Vec2 (α : Type) where
  x : α
  y : α

structure Vec3 (α : Type) where
  x : α
  y : α
  z : α

structure Vec4 (α : Type) where
  x : α
  y : α
  z : α
  w : α

structure Mat2 (α : Type) where
  c0 : Vec2 α
  c1 : Vec2 α

structure Mat3 (α : Type) where
  c0 : Vec3 α
  c1 : Vec3 α
  c2 : Vec3 α

structure Mat4 (α : Type) where
  c0 : Vec4 α
  c1 : Vec4 α
  c2 : Vec4 α
  c3 : Vec4 α

variable {α : Type}

def Vec2.toList (v : Vec2 α) : List α := [v.x, v.y]
def Vec3.toList (v : Vec3 α) : List α := [v.x, v.y, v.z]
def Vec4.toList (v : Vec4 α) : List α := [v.x, v.y, v.z, v.w]

def Mat2.toList (m : Mat2 α) : List α := m.c0.toList ++ m.c1.toList
def Mat3.toList (m : Mat3 α) : List α := m.c0.toList ++ m.c1.toList ++ m.c2.toList
def Mat4.toList (m : Mat4 α) : List α := m.c0.toList ++ m.c1.toList ++ m.c2.toList ++ m.c3.toList

section

variable [Add α] [Sub α] [Mul α] [Div α] [Scalar α]

namespace Vec2

def add (a b : Vec2 α) : Vec2 α := ⟨a.x + b.x, a.y + b.y⟩
def scale (v : Vec2 α) (k : α) : Vec2 α := ⟨v.x * k, v.y * k⟩
def shrink (v : Vec2 α) (k : α) : Vec2 α := ⟨v.x / k, v.y / k⟩

end Vec2

namespace Vec3

def add (a b : Vec3 α) : Vec3 α := ⟨a.x + b.x, a.y + b.y, a.z + b.z⟩
def sub (a b : Vec3 α) : Vec3 α := ⟨a.x - b.x, a.y - b.y, a.z - b.z⟩
def scale (v : Vec3 α) (k : α) : Vec3 α := ⟨v.x * k, v.y * k, v.z * k⟩
def dot (a b : Vec3 α) : α := a.x * b.x + a.y * b.y + a.z * b.z

def cross (a b : Vec3 α) : Vec3 α :=
  ⟨a.y * b.z - b.y * a.z, a.z * b.x - b.z * a.x, a.x * b.y - b.x * a.y⟩

def normalize (v : Vec3 α) : Vec3 α := v.scale (Scalar.one / Scalar.sqrt (v.dot v))

end Vec3

namespace Vec4

def add (a b : Vec4 α) : Vec4 α := ⟨a.x + b.x, a.y + b.y, a.z + b.z, a.w + b.w⟩
def scale (v : Vec4 α) (k : α) : Vec4 α := ⟨v.x * k, v.y * k, v.z * k, v.w * k⟩

end Vec4

namespace Mat4

/-- The image of a vector: the columns, each taken as often as the vector says. -/
def apply (m : Mat4 α) (v : Vec4 α) : Vec4 α :=
  (((m.c0.scale v.x).add (m.c1.scale v.y)).add (m.c2.scale v.z)).add (m.c3.scale v.w)

/-- The product, which applies `b` first. -/
def mul (a b : Mat4 α) : Mat4 α := ⟨a.apply b.c0, a.apply b.c1, a.apply b.c2, a.apply b.c3⟩

def fill (k : α) : Mat4 α :=
  let c : Vec4 α := ⟨k, k, k, k⟩
  ⟨c, c, c, c⟩

def identity : Mat4 α where
  c0 := ⟨Scalar.one, Scalar.zero, Scalar.zero, Scalar.zero⟩
  c1 := ⟨Scalar.zero, Scalar.one, Scalar.zero, Scalar.zero⟩
  c2 := ⟨Scalar.zero, Scalar.zero, Scalar.one, Scalar.zero⟩
  c3 := ⟨Scalar.zero, Scalar.zero, Scalar.zero, Scalar.one⟩

end Mat4

end

end LiveShader
