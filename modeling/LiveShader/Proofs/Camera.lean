import LiveShader.Camera
import LiveShader.Window.Quad
import Mathlib.Algebra.Order.Field.Basic
import Mathlib.Analysis.SpecialFunctions.Trigonometric.Basic
import Mathlib.Tactic.FieldSimp
import Mathlib.Tactic.Linarith
import Mathlib.Tactic.Ring
/-!
# Proofs.Camera — the quad fills the window

Over numbers without rounding the view moves the eye to the origin and turns nothing (`lookAt_apply`), and the
projection then shows each pixel of the quad where it is in the window (`seen_pixel`), whatever the size, the field of
view and the planes are (`camera_frames`).
-/
namespace LiveShader

/-- Numbers without rounding: the constants, the conversion and the order are those of a field, and roots of squares are
exact.  The tangent and the degree may be anything. -/
class ExactScalar (K : Type) [Field K] [LinearOrder K] [Scalar K] : Prop where
  zero_eq : (Scalar.zero : K) = 0
  half_eq : (Scalar.half : K) = 1 / 2
  one_eq : (Scalar.one : K) = 1
  two_eq : (Scalar.two : K) = 2
  ofNat_eq : ∀ n : Nat, (Scalar.ofNat n : K) = n
  max_eq : ∀ a b : K, Scalar.max a b = max a b
  sqrt_square : ∀ a : K, 0 ≤ a → Scalar.sqrt (a * a) = a

attribute [simp] ExactScalar.zero_eq ExactScalar.half_eq ExactScalar.one_eq ExactScalar.two_eq ExactScalar.ofNat_eq
  ExactScalar.max_eq

/-! ## Matrices -/

namespace Mat4

variable {K : Type} [Field K]

theorem apply_add (m : Mat4 K) (v w : Vec4 K) : m.apply (v.add w) = (m.apply v).add (m.apply w) := by
  simp only [apply, Vec4.add, Vec4.scale, Vec4.mk.injEq]
  refine ⟨?_, ?_, ?_, ?_⟩ <;> ring

theorem apply_scale (m : Mat4 K) (v : Vec4 K) (k : K) : m.apply (v.scale k) = (m.apply v).scale k := by
  simp only [apply, Vec4.add, Vec4.scale, Vec4.mk.injEq]
  refine ⟨?_, ?_, ?_, ?_⟩ <;> ring

/-- **A product of matrices applies one after the other.** -/
theorem apply_mul (a b : Mat4 K) (v : Vec4 K) : (a.mul b).apply v = a.apply (b.apply v) := by
  have hb : b.apply v = (((b.c0.scale v.x).add (b.c1.scale v.y)).add (b.c2.scale v.z)).add (b.c3.scale v.w) := rfl
  rw [hb]
  simp only [apply_add, apply_scale]
  rfl

theorem apply_identity [LinearOrder K] [Scalar K] [ExactScalar K] (v : Vec4 K) :
    (identity : Mat4 K).apply v = v := by
  simp [apply, identity, Vec4.add, Vec4.scale]

end Mat4

/-! ## Lengths and depths -/

section

variable {K : Type} [Field K] [LinearOrder K] [IsStrictOrderedRing K]

theorem Size.one_le_cast_atLeastOne (size : Size) :
    1 ≤ (size.atLeastOne.width : K) ∧ 1 ≤ (size.atLeastOne.height : K) := by
  have hwidth : 1 ≤ size.atLeastOne.width := Nat.le_max_right _ _
  have hheight : 1 ≤ size.atLeastOne.height := Nat.le_max_right _ _
  exact ⟨Nat.one_le_cast.2 hwidth, Nat.one_le_cast.2 hheight⟩

theorem Size.cast_atLeastOne_pos (size : Size) :
    0 < (size.atLeastOne.width : K) ∧ 0 < (size.atLeastOne.height : K) :=
  (size.one_le_cast_atLeastOne (K := K)).imp zero_lt_one.trans_le zero_lt_one.trans_le

/-- What a projection makes of a distance across from the middle, at the distance of the quad. -/
theorem across_eq {tangent width height : K} (ht : 0 < tangent) (hwidth : 0 < width) (hheight : 0 < height) (x : K) :
    (x - width / 2) / (tangent * (width / height)) / (height / (2 * tangent)) = 2 * x / width - 1 := by
  field_simp

theorem up_eq {tangent height : K} (ht : 0 < tangent) (hheight : 0 < height) (y : K) :
    (y - height / 2) / tangent / (height / (2 * tangent)) = 2 * y / height - 1 := by
  field_simp

/-- The depth at which a projection shows what is straight ahead at a distance. -/
def depth (near far distance : K) : K := ((near + far) * -distance + 2 * near * far) / (near - far) / distance

/-- **Depths**: what is before the far plane is below the greatest, and above the least just if it is behind the near
plane. -/
theorem depth_bounds {near far distance : K} (hnear : 0 < near) (hfar : near < far) (hd : 0 < distance)
    (hbefore : distance < far) : depth near far distance < 1 ∧ (-1 < depth near far distance ↔ near < distance) := by
  have hrange : 0 < (far - near) * distance := mul_pos (sub_pos.2 hfar) hd
  have hdepth : depth near far distance = ((near + far) * distance - 2 * near * far) / ((far - near) * distance) := by
    have hne : near - far ≠ 0 := (sub_neg.2 hfar).ne
    have hne' : far - near ≠ 0 := (sub_pos.2 hfar).ne'
    unfold depth
    field_simp
    ring
  have hbelow : (far - near) * distance - ((near + far) * distance - 2 * near * far) = 2 * near * (far - distance) := by
    ring
  have habove : (near + far) * distance - 2 * near * far - -1 * ((far - near) * distance) =
      2 * far * (distance - near) := by
    ring
  rw [hdepth]
  constructor
  · rw [div_lt_one hrange, ← sub_pos, hbelow]
    exact mul_pos (mul_pos two_pos hnear) (sub_pos.2 hbefore)
  · rw [lt_div_iff₀ hrange, ← sub_pos, habove, mul_pos_iff_of_pos_left (mul_pos two_pos (hnear.trans hfar)), sub_pos]

end

/-! ## The frustum -/

namespace Frustum

/-- The number that a finite single-precision number is: a sign, eight bits of exponent and twenty-three of fraction. -/
def exactSingle (x : Float32) : Rat :=
  let bits : Nat := x.toBits.toNat
  let exponent : Nat := bits / 2 ^ 23 % 2 ^ 8
  let fraction : Nat := bits % 2 ^ 23
  let sign : Rat := if bits < 2 ^ 31 then 1 else -1
  if exponent = 0 then sign * fraction / 2 ^ 149 else sign * (2 ^ 23 + fraction) * 2 ^ exponent / 2 ^ 150

/-- The standard frustum in numbers without rounding. -/
def standardIn (K : Type) [Field K] : Frustum K :=
  ⟨exactSingle standard.fov, exactSingle standard.near, exactSingle standard.far⟩

theorem exactSingle_standard : exactSingle standard.fov = 90 ∧ exactSingle standard.near = 13421773 / 134217728 ∧
    exactSingle standard.far = 10000 := by
  have hfov : standard.fov.toBits.toNat = 1119092736 := by decide
  have hnear : standard.near.toBits.toNat = 1036831949 := by decide
  have hfar : standard.far.toBits.toNat = 1176256512 := by decide
  simp only [exactSingle, hfov, hnear, hfar]
  norm_num

section

variable {K : Type} [Field K] [LinearOrder K] [IsStrictOrderedRing K]

/-- The near plane of the standard frustum is less than half a pixel away. -/
theorem standardIn_planes :
    0 < (standardIn K).near ∧ (standardIn K).near < 1 / 2 ∧ (standardIn K).near < (standardIn K).far := by
  obtain ⟨-, hnear, hfar⟩ := exactSingle_standard
  unfold standardIn
  simp only [hnear, hfar]
  norm_num

variable [Scalar K]

/-- The tangent of half the field of view. -/
def tangent (f : Frustum K) : K := Scalar.tan (f.fov * Scalar.degree / 2)

/-- How far the eye is from a quad of some height. -/
def distance (f : Frustum K) (height : K) : K := height / (2 * f.tangent)

/-- The far plane of a camera: behind the quad, however far away that is. -/
def farPlane (f : Frustum K) (height : K) : K := max f.far (f.distance height * 2)

theorem distance_pos {f : Frustum K} (ht : 0 < f.tangent) {height : K} (hheight : 0 < height) : 0 < f.distance height :=
  div_pos hheight (mul_pos two_pos ht)

end

end Frustum

/-! ## The view and the projection -/

section

variable {K : Type} [Field K] [LinearOrder K] [Scalar K] [ExactScalar K]

theorem normalize_of_dot {v : Vec3 K} {d : K} (hd : 0 < d) (hdot : v.dot v = d * d) :
    v.normalize = v.scale (1 / d) := by
  rw [Vec3.normalize, hdot, ExactScalar.sqrt_square d hd.le, ExactScalar.one_eq]

theorem normalize_ahead {d : K} (hd : 0 < d) : (⟨0, 0, -d⟩ : Vec3 K).normalize = ⟨0, 0, -1⟩ := by
  rw [normalize_of_dot hd (by simp [Vec3.dot])]
  simp [Vec3.scale, hd.ne']

variable [IsStrictOrderedRing K]

theorem normalize_first : (⟨1, 0, 0⟩ : Vec3 K).normalize = ⟨1, 0, 0⟩ := by
  rw [normalize_of_dot zero_lt_one (by simp [Vec3.dot])]
  simp [Vec3.scale]

/-- **A view straight ahead** moves the eye to the origin and turns nothing. -/
theorem lookAt_apply {x y d : K} (hd : 0 < d) (p : Vec3 K) :
    (lookAt ⟨x, y, d⟩ ⟨x, y, 0⟩).apply ⟨p.x, p.y, p.z, 1⟩ = ⟨p.x - x, p.y - y, p.z - d, 1⟩ := by
  have hahead : (⟨x, y, 0⟩ : Vec3 K).sub ⟨x, y, d⟩ = ⟨0, 0, -d⟩ := by simp [Vec3.sub]
  have hside : (⟨0, 0, -1⟩ : Vec3 K).cross ⟨0, 1, 0⟩ = ⟨1, 0, 0⟩ := by simp [Vec3.cross]
  have hup : (⟨1, 0, 0⟩ : Vec3 K).cross ⟨0, 0, -1⟩ = ⟨0, 1, 0⟩ := by simp [Vec3.cross]
  simp only [lookAt, hahead, normalize_ahead hd, ExactScalar.zero_eq, ExactScalar.one_eq, hside, normalize_first, hup]
  simp only [Mat4.apply, Vec4.add, Vec4.scale, Vec3.dot, Vec4.mk.injEq]
  refine ⟨?_, ?_, ?_, ?_⟩ <;> ring

theorem perspective_apply (fov aspect near far : K) (p : Vec3 K) :
    (perspective fov aspect near far).apply ⟨p.x, p.y, p.z, 1⟩ =
      ⟨p.x / (Scalar.tan (fov / 2) * aspect), p.y / Scalar.tan (fov / 2),
        ((near + far) * p.z + 2 * near * far) / (near - far), -p.z⟩ := by
  have hhalf : 1 / 2 * fov = fov / 2 := by ring
  simp only [perspective, ExactScalar.zero_eq, ExactScalar.one_eq, ExactScalar.two_eq, ExactScalar.half_eq, hhalf]
  simp only [Mat4.apply, Vec4.add, Vec4.scale, Vec4.mk.injEq]
  refine ⟨?_, ?_, ?_, ?_⟩
  · rw [div_mul_eq_div_div]
    ring
  all_goals ring

/-- **A camera** looks at the middle of its quad from straight ahead, then projects. -/
theorem combined_apply {f : Frustum K} (size : Size) (ht : 0 < f.tangent) (p : Vec3 K) :
    let width : K := size.atLeastOne.width
    let height : K := size.atLeastOne.height
    (ViewProjection.ofSize f size).combined.apply ⟨p.x, p.y, p.z, 1⟩ =
      ⟨(p.x - width / 2) / (f.tangent * (width / height)), (p.y - height / 2) / f.tangent,
        ((f.near + f.farPlane height) * (p.z - f.distance height) + 2 * f.near * f.farPlane height) /
          (f.near - f.farPlane height), f.distance height - p.z⟩ := by
  intro width height
  have hd : 0 < f.distance height := Frustum.distance_pos ht (Size.cast_atLeastOne_pos size).2
  have hdistance : height * (1 / 2) / Scalar.tan (f.fov * Scalar.degree * (1 / 2)) = f.distance height := by
    rw [mul_one_div, mul_one_div, div_div]
    rfl
  have heye : (⟨width * (1 / 2), height * (1 / 2), 0⟩ : Vec3 K).add (Vec3.scale ⟨0, 0, 1⟩ (f.distance height)) =
      ⟨width / 2, height / 2, f.distance height⟩ := by
    simp [Vec3.add, Vec3.scale, div_eq_mul_inv]
  simp only [ViewProjection.ofSize, ExactScalar.zero_eq, ExactScalar.one_eq, ExactScalar.two_eq, ExactScalar.half_eq,
    ExactScalar.ofNat_eq, ExactScalar.max_eq]
  rw [hdistance, heye, mul_one_div, mul_one_div, Mat4.apply_mul, Mat4.apply_mul, Mat4.apply_identity, lookAt_apply hd,
    perspective_apply _ _ _ _ ⟨p.x - width / 2, p.y - height / 2, p.z - f.distance height⟩]
  simp only [neg_sub]
  rfl

/-! ## Where the quad is seen -/

/-- Where a point is seen, along each axis of the window and in depth: its image divided by the last component. -/
def ViewProjection.seen (c : ViewProjection K) (p : Vec3 K) : Vec3 K :=
  let image := c.combined.apply ⟨p.x, p.y, p.z, 1⟩
  ⟨image.x / image.w, image.y / image.w, image.z / image.w⟩

/-- **Each pixel of the quad is seen where it is in the window**, at one depth for all. -/
theorem seen_pixel {f : Frustum K} (size : Size) (ht : 0 < f.tangent) (x y : K) :
    let width : K := size.atLeastOne.width
    let height : K := size.atLeastOne.height
    (ViewProjection.ofSize f size).seen ⟨x, y, 0⟩ =
      ⟨2 * x / width - 1, 2 * y / height - 1, depth f.near (f.farPlane height) (f.distance height)⟩ := by
  intro width height
  obtain ⟨hwidth, hheight⟩ : 0 < width ∧ 0 < height := Size.cast_atLeastOne_pos size
  have hcombined := combined_apply size ht ⟨x, y, 0⟩
  simp only at hcombined
  simp only [ViewProjection.seen, hcombined, sub_zero, zero_sub, Vec3.mk.injEq]
  exact ⟨across_eq ht hwidth hheight x, up_eq ht hheight y, rfl⟩

/-- The points that a list of coordinates holds, three for each. -/
def points : List K → List (Vec3 K)
  | x :: y :: z :: rest => ⟨x, y, z⟩ :: points rest
  | _ => []

omit [IsStrictOrderedRing K] in
theorem points_vertices (size : Size) :
    points (Window.Quad.vertices size : List K) =
      let w : K := size.width
      let h : K := size.height
      [⟨0, 0, 0⟩, ⟨w, 0, 0⟩, ⟨w, h, 0⟩, ⟨0, 0, 0⟩, ⟨0, h, 0⟩, ⟨w, h, 0⟩] := by
  simp [Window.Quad.vertices, points]

/-- **The corners of the quad are seen in the corners of the window.** -/
theorem seen_vertices {f : Frustum K} (size : Size) (ht : 0 < f.tangent) :
    (points (Window.Quad.vertices size.atLeastOne)).map (fun p =>
        (((ViewProjection.ofSize f size).seen p).x, ((ViewProjection.ofSize f size).seen p).y)) =
      [(-1, -1), (1, -1), (1, 1), (-1, -1), (-1, 1), (1, 1)] := by
  obtain ⟨hwidth, hheight⟩ := size.cast_atLeastOne_pos (K := K)
  have hleast : ∀ k : K, 2 * 0 / k - 1 = -1 := fun k => by rw [mul_zero, zero_div, zero_sub]
  have hmost : ∀ k : K, 0 < k → 2 * k / k - 1 = 1 := fun k hk => by
    rw [mul_div_cancel_right₀ _ hk.ne']
    norm_num
  rw [points_vertices]
  simp only [List.map_cons, List.map_nil, seen_pixel size ht, hleast, hmost _ hwidth, hmost _ hheight]

/-- **The quad fills the window**, at every size and for every frustum.  A pixel is seen where it is in the window, so
the corners of the quad are seen in the corners of the window.  All of it is seen below the greatest depth, and above the
least just if the quad is behind the near plane, as it always is for the standard frustum. -/
theorem camera_frames {f : Frustum K} (size : Size) (ht : 0 < f.tangent) (hnear : 0 < f.near) (hfar : f.near < f.far) :
    let c := ViewProjection.ofSize f size
    let width : K := size.atLeastOne.width
    let height : K := size.atLeastOne.height
    (∀ x y : K, (c.combined.apply ⟨x, y, 0, 1⟩).w ≠ 0 ∧
      (c.seen ⟨x, y, 0⟩).x = 2 * x / width - 1 ∧ (c.seen ⟨x, y, 0⟩).y = 2 * y / height - 1 ∧
      (c.seen ⟨x, y, 0⟩).z < 1 ∧ (-1 < (c.seen ⟨x, y, 0⟩).z ↔ f.near < height / (2 * f.tangent))) ∧
    (points (Window.Quad.vertices size.atLeastOne)).map (fun p => ((c.seen p).x, (c.seen p).y)) =
      [(-1, -1), (1, -1), (1, 1), (-1, -1), (-1, 1), (1, 1)] ∧
    (f = Frustum.standardIn K → f.tangent = 1 → f.near < height / (2 * f.tangent)) := by
  intro c width height
  obtain ⟨hwidth, hheight⟩ : 0 < width ∧ 0 < height := Size.cast_atLeastOne_pos size
  have hd : 0 < f.distance height := Frustum.distance_pos ht hheight
  have hseen : ∀ x y, c.seen ⟨x, y, 0⟩ = _ := seen_pixel size ht
  refine ⟨fun x y => ?_, seen_vertices size ht, ?_⟩
  · have hw : (c.combined.apply ⟨x, y, 0, 1⟩).w = f.distance height - 0 :=
      congrArg Vec4.w (combined_apply size ht ⟨x, y, 0⟩)
    have hplane : f.near < f.farPlane height := lt_max_of_lt_left hfar
    have hbehind : f.distance height < f.farPlane height := lt_max_of_lt_right (by linarith)
    obtain ⟨hmost, hleast⟩ := depth_bounds hnear hplane hd hbehind
    rw [hw, sub_zero, hseen]
    exact ⟨hd.ne', rfl, rfl, hmost, hleast⟩
  · rintro rfl hone
    have hheight : 1 ≤ height := size.one_le_cast_atLeastOne.2
    rw [hone, mul_one]
    exact Frustum.standardIn_planes.2.1.trans_le (div_le_div_of_nonneg_right hheight zero_le_two)

end

/-! ## Real numbers -/

noncomputable instance : Scalar ℝ where
  zero := 0
  half := 1 / 2
  one := 1
  two := 2
  degree := Real.pi / 180
  ofNat := Nat.cast
  sqrt := Real.sqrt
  tan := Real.tan
  max := max

instance : ExactScalar ℝ where
  zero_eq := rfl
  half_eq := rfl
  one_eq := rfl
  two_eq := rfl
  ofNat_eq _ := rfl
  max_eq _ _ := rfl
  sqrt_square _ := Real.sqrt_mul_self

/-- The standard frustum has a right angle for a field of view. -/
theorem tangent_standardIn : (Frustum.standardIn ℝ).tangent = 1 := by
  have hfov : (Frustum.standardIn ℝ).fov = 90 := by simp [Frustum.standardIn, Frustum.exactSingle_standard]
  have hangle : (90 : ℝ) * (Real.pi / 180) / 2 = Real.pi / 4 := by ring
  show Real.tan ((Frustum.standardIn ℝ).fov * (Real.pi / 180) / 2) = 1
  rw [hfov, hangle, Real.tan_pi_div_four]

theorem camera_frames_standard : 0 < (Frustum.standardIn ℝ).tangent ∧ 0 < (Frustum.standardIn ℝ).near ∧
    (Frustum.standardIn ℝ).near < (Frustum.standardIn ℝ).far ∧
    let seen := (ViewProjection.ofSize (Frustum.standardIn ℝ) ⟨0, 600⟩).seen ⟨1, 150, 0⟩
    seen.x = 1 ∧ seen.y = -1 / 2 ∧ -1 < seen.z ∧ seen.z < 1 := by
  have ht : 0 < (Frustum.standardIn ℝ).tangent := tangent_standardIn ▸ one_pos
  obtain ⟨hnear, -, hfar⟩ := Frustum.standardIn_planes (K := ℝ)
  obtain ⟨hpixel, -, hbehind⟩ := camera_frames ⟨0, 600⟩ ht hnear hfar
  obtain ⟨-, hx, hy, hmost, hleast⟩ := hpixel 1 150
  refine ⟨ht, hnear, hfar, hx.trans ?_, hy.trans ?_, hleast.2 (hbehind rfl tangent_standardIn), hmost⟩
  · norm_num [Size.atLeastOne]
  · norm_num [Size.atLeastOne]

end LiveShader
