/-!
# Scalar — the numbers of the camera

The camera is written once over any numbers with the four operations and the few functions below.  Running it
takes single precision, each operation rounded on its own; reasoning about it may take exact numbers.
-/
namespace LiveShader

/-- What the camera needs of its numbers beyond the four operations. -/
class Scalar (α : Type) where
  zero : α
  half : α
  one : α
  two : α
  /-- One degree in radians. -/
  degree : α
  ofNat : Nat → α
  sqrt : α → α
  tan : α → α
  max : α → α → α

namespace Single

/-- The nearest single-precision number to a natural number below 2 ^ 64. -/
def ofNat (n : Nat) : Float32 := (UInt64.ofNat n).toFloat32

/-- The greater of two numbers; a number that is none gives way to the other. -/
def max (a b : Float32) : Float32 :=
  if a.isNaN then b else if b.isNaN then a else if a < b then b else a

/-- The nearest number between two bounds; one that is no number stays as it is. -/
def clamp (low high x : Float32) : Float32 :=
  let raised := if x < low then low else x
  if high < raised then high else raised

end Single

instance : Scalar Float32 where
  zero := 0.0
  half := 0.5
  one := 1.0
  two := 2.0
  degree := Float32.ofBits 0x3c8efa35
  ofNat := Single.ofNat
  sqrt := Float32.sqrt
  tan := Float32.tan
  max := Single.max

end LiveShader
