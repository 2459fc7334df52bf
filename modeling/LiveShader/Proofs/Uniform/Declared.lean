import LiveShader.Machine.Log
import LiveShader.Proofs.Uniform.Locations
import LiveShader.Source.Harness
import Mathlib.Data.List.Nodup
/-!
# Proofs.Uniform.Declared — one shape for each uniform, wherever it is spelled out

The shape of a uniform is that of its initial value.  The harness declares the same one in words
(`harnessShape?_glslName`), a table refuses every value of another (`refused_set_iff`), and the call that uploads a
value is the one for its shape (`uploadText_eq`).
-/
namespace LiveShader
namespace Uniform

open Machine

/-! ## Declarations -/

/-- The shape that a type of the shading language stands for. -/
def shapeOf? (type : List Char) : Option Shape :=
  match String.ofList type with
  | "int" => some .int
  | "float" => some .float
  | "vec2" => some .vec2
  | "vec3" => some .vec3
  | "vec4" => some .vec4
  | "mat2" => some .mat2
  | "mat3" => some .mat3
  | "mat4" => some .mat4
  | _ => none

/-- What is declared behind a type: a name, or an array of integers with its length. -/
def declarator? (shape : Shape) (text : List Char) : Option (List Char × Shape) :=
  match Text.cut? ['['] text with
  | none => some (text, shape)
  | some (name, bound) =>
    if shape = .int then
      ((Text.dropLast? ']' bound).bind Text.digits?).map fun length => (name, .ints length)
    else none

/-- The name and the shape that a line declares, if it is the declaration of a uniform. -/
def declaration? (line : List Char) : Option (List Char × Shape) :=
  (Text.dropMarker? "uniform ".toList line).bind fun declaration =>
    (Text.cut? [' '] declaration).bind fun (type, rest) =>
      (shapeOf? type).bind fun shape => (Text.dropLast? ';' rest).bind (declarator? shape)

/-- The uniforms that a source declares, in order. -/
def declarations (source : List Char) : List (List Char × Shape) := (Text.lines source).filterMap declaration?

/-- **The harness declares every uniform once**, with its shape, and nothing else. -/
theorem declarations_harness :
    declarations Source.harness.toList = all.map fun u => (u.glslName.toList, u.shape) := by
  unfold Source.harness
  rw [String.toList_ofList]
  decide +kernel

/-- The shape that the harness declares for a name. -/
def harnessShape? (name : String) : Option Shape := (declarations Source.harness.toList).lookup name.toList

theorem harnessShape?_glslName (u : Uniform) : harnessShape? u.glslName = some u.shape := by
  unfold harnessShape?
  rw [declarations_harness]
  cases u <;> decide +kernel

theorem glslName_inj {u v : Uniform} (h : u.glslName = v.glslName) : u = v := by
  have hnodup : (all.map glslName).Nodup := by decide +kernel
  exact List.inj_on_of_nodup_map hnodup (mem_all u) (mem_all v) h

/-! ## Uploads -/

/-- The call that uploads a value, as the log names it, and how many numbers it is given. -/
structure UploadCall where
  name : String
  numbers : Nat
deriving DecidableEq, Repr

/-- The call for values of a shape. -/
def Shape.call : Shape → UploadCall
  | .int => ⟨"1i", 1⟩
  | .float => ⟨"1f", 1⟩
  | .vec2 => ⟨"2f", 2⟩
  | .vec3 => ⟨"3f", 3⟩
  | .vec4 => ⟨"4f", 4⟩
  | .mat2 => ⟨"mat2 false", 4⟩
  | .mat3 => ⟨"mat3 false", 9⟩
  | .mat4 => ⟨"mat4 false", 16⟩
  | .ints length => ⟨"1iv", length⟩

/-- **A value is uploaded by the call for its shape**, with as many numbers as this takes. -/
theorem uploadText_eq (v : Value) : ∃ numbers : List String, numbers.length = v.shape.call.numbers ∧
    Log.uploadText v = v.shape.call.name ++ " " ++ " ".intercalate numbers := by
  have hfloats : ∀ (xs : List Float32) (name : String), ∃ numbers : List String, numbers.length = xs.length ∧
      name ++ " " ++ Log.floats xs = name ++ " " ++ " ".intercalate numbers :=
    fun xs name => ⟨xs.map Log.bits, List.length_map _, rfl⟩
  cases v with
  | int n => exact ⟨[toString n], rfl, rfl⟩
  | float x => exact ⟨[Log.bits x], rfl, rfl⟩
  | vec2 v => exact hfloats v.toList "2f"
  | vec3 v => exact hfloats v.toList "3f"
  | vec4 v => exact hfloats v.toList "4f"
  | mat2 m => exact hfloats m.toList "mat2 false"
  | mat3 m => exact hfloats m.toList "mat3 false"
  | mat4 m => exact hfloats m.toList "mat4 false"
  | ints ns => exact ⟨ns.map toString, List.length_map _, rfl⟩

/-- A location that can be uploaded to is the one that was answered. -/
theorem Location.answer_of_index? {answer : Option Nat} {n : Nat} (h : (ofAnswer answer).index? = some n) :
    answer = some n := by
  cases answer with
  | none => cases h
  | some k =>
    by_cases hk : k ≤ limit
    · have hfits : ∀ m ∈ some k, m ≤ limit := fun m hm => by
        cases hm
        exact hk
      rwa [index?_ofAnswer hfits] at h
    · have habsent : ofAnswer (some k) = absent := if_neg hk
      rw [habsent] at h
      cases h

/-! ## Refusals -/

namespace Table

variable {t t' : Table} {p : ProgramId} {us : List Uniform} {q : Trace}

/-- **Nothing has been refused** just when nothing was before and the value is of the shape that its slot keeps. -/
theorem refused_set_iff {u : Uniform} {x : Value} :
    (t.set u x).refused = none ↔ t.refused = none ∧ t.accepts u x = true := by
  unfold set
  cases hx : t.accepts u x with
  | true => simp
  | false => cases t.refused <;> simp

/-- Values that are set one after the other, each of which is accepted in its turn and has its uniform's shape. -/
def Takes (t : Table) (values : List (Uniform × Value)) : Prop :=
  ∀ pre u x post, values = pre ++ (u, x) :: post → (t.setAll pre).accepts u x = true ∧ x.shape = u.shape

theorem Shaped.setAll {values : List (Uniform × Value)} (h : t.Shaped) (hv : ∀ p ∈ values, p.2.shape = p.1.shape) :
    (t.setAll values).Shaped := by
  induction values generalizing t with
  | nil => exact h
  | cons p values ih =>
    exact ih (h.set (hv p List.mem_cons_self)) fun p' hp' => hv p' (List.mem_cons_of_mem p hp')

/-- **A table of the right shapes takes all values of the right shapes.** -/
theorem Shaped.takes {values : List (Uniform × Value)} (h : t.Shaped) (hv : ∀ p ∈ values, p.2.shape = p.1.shape) :
    t.Takes values := by
  rintro pre u x post rfl
  have hx : x.shape = u.shape := hv (u, x) (List.mem_append_right _ List.mem_cons_self)
  have hpre : (t.setAll pre).Shaped := h.setAll fun p hp => hv p (List.mem_append_left _ hp)
  exact ⟨hpre.accepts hx, hx⟩

theorem Takes.refused {values : List (Uniform × Value)} (h : t.Takes values) (ht : t.refused = none) :
    (t.setAll values).refused = none := by
  induction values generalizing t with
  | nil => exact ht
  | cons p values ih =>
    obtain ⟨haccepts, -⟩ := h [] p.1 p.2 values rfl
    refine ih (fun pre u x post hsplit => ?_) (refused_set_iff.2 ⟨ht, haccepts⟩)
    exact h (p :: pre) u x post (by rw [hsplit]; rfl)

theorem Resolves.refused (h : Resolves p us t t' q) : t'.refused = t.refused := by
  induction h with
  | nil t => rfl
  | cons answer _ ih => exact ih

theorem Syncs.refused {s : Program.Slot} (h : Syncs t s t' q) : t'.refused = t.refused := by
  cases h with
  | current _ _ | emptied _ _ | idle _ _ => rfl
  | renewed _ hr => exact hr.refused

end Table
end Uniform
end LiveShader
