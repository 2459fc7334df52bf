import LiveShader.Program.Slot
/-!
# Uniform.Upload — locations of the current program, and values on their way to it
-/
namespace LiveShader
namespace Uniform

open Machine

variable {σ : Type}

/-- Uploads a value, unless its location is absent. -/
def upload (location : Location) (value : Value) : Run σ Unit :=
  match location.index? with
  | none => return ()
  | some n => pipeline (.setUniform n value)

namespace Table

def resolveEach (program : ProgramId) : List Uniform → Table → Run σ Table
  | [], t => return t
  | u :: rest, t => do
    let answer ← pipeline (.uniformLocation program u.glslName)
    resolveEach program rest (t.place u (.ofAnswer answer))

def resolve (t : Table) (program : ProgramId) : Run σ Table := resolveEach program t.order.walk t

/-- Brings the locations in line with the program in a slot: new ones after every link, none without a program. -/
def sync (t : Table) (slot : Program.Slot) : Run σ Table := do
  match slot.active with
  | some linked =>
    if t.resolvedFor = some slot.generation then return t
    else
      let t ← t.resolve linked.program
      return { t with resolvedFor := some slot.generation }
  | none => return if t.resolvedFor.isSome then t.invalidate else t

def pushEach (t : Table) : List Uniform → Run σ Unit
  | [] => return ()
  | u :: rest => do
    upload (t.location u) (t.value u)
    pushEach t rest

/-- Uploads the value of every uniform that the current program has. -/
def push (t : Table) : Run σ Unit := t.pushEach t.order.walk

end Table
end Uniform
end LiveShader
