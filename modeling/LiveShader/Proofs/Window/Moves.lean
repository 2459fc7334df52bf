import LiveShader.Proofs.Machine.Canvas
import LiveShader.Proofs.Uniform.Locations
import LiveShader.Window.Viewer
/-!
# Proofs.Window.Moves — what a viewer keeps through whatever it does

A viewer is `Sound` after a past when its slot tracks the links in it, its table's locations are those of the link the
table names, and its camera is the one of the size that the surface was last given.  Every move keeps this, so it holds
at every moment of a session.
-/
namespace LiveShader
namespace Window

open Machine
open Ledger (Along)
open LiveShader.Uniform (Reports)
open LiveShader.Uniform.Table (Assigns)

/-! ## Quiet requests -/

/-- A request that touches neither programs nor the size of the surface. -/
def isQuietRequest : Request → Bool
  | .pipeline _ => false
  | .draw _ => true
  | .screen (.resizeSurface _) => false
  | .screen _ => true

def isQuiet : Entry → Bool
  | .call c => isQuietRequest c.request
  | .event _ => true

/-- The size that an entry gives to the surface. -/
def resized? : Entry → Option Size
  | .call ⟨.screen (.resizeSurface size), _⟩ => some size
  | _ => none

/-- The size that the surface was last given. -/
def lastSize (t : Trace) : Option Size := (t.filterMap resized?).getLast?

theorem enter_of_quiet {e : Entry} (h : isQuiet e = true) (L : Ledger) : L.enter e = L := by
  match e with
  | .event _ => rfl
  | .call ⟨.draw _, _⟩ => rfl
  | .call ⟨.screen _, _⟩ => rfl
  | .call ⟨.pipeline _, _⟩ => cases h

theorem resized?_of_quiet {e : Entry} (h : isQuiet e = true) : resized? e = none := by
  match e with
  | .event _ => rfl
  | .call ⟨.draw _, _⟩ => rfl
  | .call ⟨.pipeline _, _⟩ => rfl
  | .call ⟨.screen r, _⟩ => cases r <;> first | rfl | cases h

theorem resized?_of_object {e : Entry} (h : Program.isObjectCall e = true) : resized? e = none := by
  match e with
  | .event _ => cases h
  | .call ⟨.draw _, _⟩ => cases h
  | .call ⟨.screen _, _⟩ => cases h
  | .call ⟨.pipeline _, _⟩ => rfl

theorem after_of_quiet : ∀ {t : Trace} (L : Ledger), t.all isQuiet = true → L.after t = L
  | [], _, _ => rfl
  | e :: t, L, h => by
    rw [List.all_cons, Bool.and_eq_true] at h
    rw [Ledger.after_cons, enter_of_quiet h.1, after_of_quiet L h.2]

theorem lastSize_append {t : Trace} (h : ∀ e ∈ t, resized? e = none) (past : Trace) :
    lastSize (past ++ t) = lastSize past := by
  unfold lastSize
  rw [List.filterMap_append, List.filterMap_eq_nil_iff.2 h, List.append_nil]

/-- An upload goes to the current program, to a location that the last link of that program reports. -/
def Located (report : Nat → String → Option Nat) (L : Ledger) : Entry → Prop
  | .call ⟨.pipeline (.setUniform location _), _⟩ =>
    ∃ x ∈ L.programs, L.current = some x.id ∧ ∃ n, x.link = some n ∧
      ∃ u : Uniform, report n u.glslName = some location
  | _ => True

section

variable {report : Nat → String → Option Nat}

theorem located_of_quiet {e : Entry} (h : isQuiet e = true) (L : Ledger) : Located report L e := by
  match e with
  | .event _ => trivial
  | .call ⟨.draw _, _⟩ => trivial
  | .call ⟨.screen _, _⟩ => trivial
  | .call ⟨.pipeline _, _⟩ => cases h

theorem located_of_object {e : Entry} (h : Program.isObjectCall e = true) (L : Ledger) : Located report L e := by
  match e with
  | .event _ => trivial
  | .call ⟨.draw _, _⟩ => trivial
  | .call ⟨.screen _, _⟩ => trivial
  | .call ⟨.pipeline r, _⟩ => cases r <;> trivial

theorem along_of_all {R : Ledger → Entry → Prop} {t : Trace} (h : ∀ e ∈ t, ∀ L, R L e) (L : Ledger) : Along R L t := by
  rw [Ledger.along_iff]
  rintro pre e post rfl
  exact h e (List.mem_append_right _ List.mem_cons_self) _

end

/-! ## Soundness -/

namespace Viewer

/-- **What a viewer may rely on** after a past. -/
structure Sound (report : Nat → String → Option Nat) (order : Uniform.Order) (past : Trace) (v : Viewer) : Prop where
  tracks : v.programs.Tracks (ledger past)
  cached : v.uniforms.Cached report
  shaped : v.uniforms.Shaped
  ordered : v.uniforms.order = order
  sized : v.quad.isSome = true → (lastSize past).isSome = true
  camera : ∀ size, lastSize past = some size →
    ∀ p ∈ (ViewProjection.ofSize .standard size).values, v.uniforms.value p.1 = p.2

/-- A move from one viewer to another that keeps soundness and uploads to current locations only, as long as the driver
reports locations. -/
def Keeps (report : Nat → String → Option Nat) (order : Uniform.Order) (v w : Viewer) (t : Trace) : Prop :=
  ∀ past, Sound report order past v → Along (Reports report) (ledger past) t →
    Along (Located report) (ledger past) t ∧ Sound report order (past ++ t) w

section

variable {report : Nat → String → Option Nat} {order : Uniform.Order} {u v w : Viewer} {s t : Trace}

theorem Sound.congr {past : Trace} (h : Sound report order past v) (hp : w.programs = v.programs)
    (hu : w.uniforms = v.uniforms) (hq : w.quad.isSome = true → v.quad.isSome = true) : Sound report order past w := by
  refine ⟨?_, ?_, ?_, ?_, fun hw => h.sized (hq hw), ?_⟩
  · rw [hp]; exact h.tracks
  · rw [hu]; exact h.cached
  · rw [hu]; exact h.shaped
  · rw [hu]; exact h.ordered
  · rw [hu]; exact h.camera

theorem Sound.quiet {past : Trace} (h : Sound report order past v) (ht : t.all isQuiet = true) :
    Sound report order (past ++ t) v := by
  have hsize : lastSize (past ++ t) = lastSize past :=
    lastSize_append (fun e he => resized?_of_quiet (List.all_eq_true.1 ht e he)) past
  refine ⟨?_, h.cached, h.shaped, h.ordered, ?_, ?_⟩
  · rw [ledger_append, after_of_quiet _ ht]; exact h.tracks
  · rw [hsize]; exact h.sized
  · rw [hsize]; exact h.camera

theorem Keeps.same (hp : w.programs = v.programs) (hu : w.uniforms = v.uniforms)
    (hq : w.quad.isSome = true → v.quad.isSome = true) : Keeps report order v w [] := by
  intro past h _
  rw [List.append_nil]
  exact ⟨trivial, h.congr hp hu hq⟩

theorem Keeps.trans (hs : Keeps report order u v s) (ht : Keeps report order v w t) :
    Keeps report order u w (s ++ t) := by
  intro past h hr
  rw [Ledger.along_append] at hr
  obtain ⟨hlocated, hv⟩ := hs past h hr.1
  obtain ⟨hlocated', hw⟩ := ht _ hv (by rw [ledger_append]; exact hr.2)
  rw [ledger_append] at hlocated'
  rw [List.append_assoc] at hw
  exact ⟨(Ledger.along_append s t _).2 ⟨hlocated, hlocated'⟩, hw⟩

theorem Keeps.quiet (ht : t.all isQuiet = true) : Keeps report order v v t :=
  fun _ h _ => ⟨along_of_all (fun e he => located_of_quiet (List.all_eq_true.1 ht e he)) _, h.quiet ht⟩

theorem Keeps.performed {files : Files.Tree} {op : Program.Slot.Operation}
    {r : Except Program.BuildError Unit × Program.Slot} (h : Program.Slot.Performs v.programs files op r t) :
    Keeps report order v { v with programs := r.2 } t := by
  intro past hv _
  have hobjects : ∀ e ∈ t, Program.isObjectCall e = true := List.all_eq_true.1 h.all_objects
  have hsize : lastSize (past ++ t) = lastSize past :=
    lastSize_append (fun e he => resized?_of_object (hobjects e he)) past
  refine ⟨along_of_all (fun e he => located_of_object (hobjects e he)) _, ?_, hv.cached, hv.shaped, hv.ordered, ?_, ?_⟩
  · rw [ledger_append]; exact h.tracks hv.tracks
  · rw [hsize]; exact hv.sized
  · rw [hsize]; exact hv.camera

end

end Viewer
end Window
end LiveShader
