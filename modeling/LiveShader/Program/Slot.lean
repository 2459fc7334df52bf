import LiveShader.Program.Build
import LiveShader.Uniform.Table
/-!
# Program.Slot — the one program that frames are rendered with

A slot is empty or holds a linked program.  Every failure empties it and releases what it held.  It counts the links
that succeeded, so that whoever resolved uniform locations can tell whether they still hold.
-/
namespace LiveShader
namespace Program

open Machine Source

/-- A place for one linked program, the name last loaded into it, and the number of links that succeeded. -/
structure Slot where
  recipe : Recipe
  active : Option Linked := none
  shaderName : Option String := none
  /-- Counted in 64 bits by a running slot and without a bound here: fewer than 2^64 links are assumed. -/
  generation : Nat := 0

variable {σ : Type}

namespace Slot

def isLoaded (s : Slot) : Bool := s.active.isSome

theorem isLoaded_of_active {s : Slot} {l : Linked} (hl : s.active = some l) : s.isLoaded = true := by
  rw [isLoaded, hl]
  rfl

theorem isLoaded_of_empty {s : Slot} (hl : s.active = none) : s.isLoaded = false := by
  rw [isLoaded, hl]
  rfl

/-- Empties the slot; a program in it stops being current before it is released. -/
def teardown (s : Slot) : Run σ Slot := do
  match s.active with
  | none => return s
  | some linked =>
    pipeline (.useProgram none)
    linked.release
    return { s with active := none }

/-- Replaces what is in the slot by a full build of a shader. -/
def load (s : Slot) (name : String) : Run σ (Except BuildError Unit × Slot) := do
  let s ← s.teardown
  match ← build s.recipe name with
  | .ok linked =>
    return (.ok (), { s with active := some linked, shaderName := some name, generation := s.generation + 1 })
  | .error e => return (.error e, { s with shaderName := some name })

def reload (s : Slot) : Run σ (Except BuildError Unit × Slot) := do
  match s.shaderName with
  | none => return (.error .noShaderSelected, s)
  | some name => s.load name

/-- Exchanges the fragment stage of a linked program and links it again. -/
def exchangeFragment (linked : Linked) (fragment : ShaderId) : Run σ (Except BuildError Linked) := do
  pipeline (.detachShader linked.program linked.fragment)
  pipeline (.deleteShader linked.fragment)
  pipeline (.attachShader linked.program fragment)
  let exchanged := { linked with fragment }
  match ← linkStages linked.program with
  | .ok () => return .ok exchanged
  | .error e =>
    exchanged.release
    return .error e

/-- Compiles the fragment stage of the current shader again and links the program it is in; an empty slot is loaded
anew. -/
def hotSwap (s : Slot) : Run σ (Except BuildError Unit × Slot) := do
  match s.shaderName, s.active with
  | none, _ => return (.error .noShaderSelected, s)
  | some name, none => s.load name
  | some name, some linked =>
    match ← buildFragment s.recipe name with
    | .error e =>
      linked.release
      return (.error e, { s with active := none })
    | .ok fragment =>
      match ← exchangeFragment linked fragment with
      | .error e => return (.error e, { s with active := none })
      | .ok exchanged => return (.ok (), { s with active := some exchanged, generation := s.generation + 1 })

def bind (s : Slot) : Run σ Bool := do
  match s.active with
  | none => return false
  | some linked =>
    pipeline (.useProgram (some linked.program))
    return true

def unbind : Run σ Unit := pipeline (.useProgram none)

end Slot
end Program
end LiveShader
