import LiveShader.Machine.Run
import LiveShader.Program.Error
/-!
# Program.Build — from a shader name to a linked program

The source is assembled before any object is made, and whatever fails, every object made on the way is released
again: a program before its stages, the later stage before the earlier.
-/
namespace LiveShader
namespace Program

open Machine Source

structure Linked where
  program : ProgramId
  vertex : ShaderId
  fragment : ShaderId
deriving DecidableEq, Repr

variable {σ : Type}

/-- Releases a program, then its stages. -/
def Linked.release (l : Linked) : Run σ Unit := do
  pipeline (.deleteProgram l.program)
  pipeline (.deleteShader l.vertex)
  pipeline (.deleteShader l.fragment)

def compileStage (stage : Stage) (source : String) : Run σ (Except BuildError ShaderId) := do
  match ← pipeline (.createShader stage) with
  | .error message => return .error (.create (.shader stage) message)
  | .ok shader =>
    match ← pipeline (.compileShader shader source) with
    | true => return .ok shader
    | false =>
      let log ← pipeline (.shaderLog shader)
      pipeline (.deleteShader shader)
      return .error (.compile stage log)

/-- Links a program; the error has the driver's text. -/
def linkStages (program : ProgramId) : Run σ (Except BuildError Unit) := do
  match ← pipeline (.linkProgram program) with
  | true => return .ok ()
  | false =>
    let log ← pipeline (.programLog program)
    return .error (.link log)

/-- Makes a program out of two stages, or releases them. -/
def linkNew (vertex fragment : ShaderId) : Run σ (Except BuildError Linked) := do
  match ← pipeline .createProgram with
  | .error message =>
    pipeline (.deleteShader fragment)
    pipeline (.deleteShader vertex)
    return .error (.create .program message)
  | .ok program =>
    pipeline (.attachShader program vertex)
    pipeline (.attachShader program fragment)
    match ← linkStages program with
    | .ok () => return .ok ⟨program, vertex, fragment⟩
    | .error e =>
      pipeline (.deleteProgram program)
      pipeline (.deleteShader fragment)
      pipeline (.deleteShader vertex)
      return .error e

def buildFrom (vertexText fragmentText : String) : Run σ (Except BuildError Linked) := do
  match ← compileStage .vertex vertexText with
  | .error e => return .error e
  | .ok vertex =>
    match ← compileStage .fragment fragmentText with
    | .error e =>
      pipeline (.deleteShader vertex)
      return .error e
    | .ok fragment => linkNew vertex fragment

def build (recipe : Recipe) (name : String) : Run σ (Except BuildError Linked) := do
  match ← withFiles fun files => recipe.assemble files name with
  | .error e => return .error (.source e)
  | .ok source => buildFrom (vertexSource recipe.version) source

/-- Makes the fragment stage of a shader name and touches no program. -/
def buildFragment (recipe : Recipe) (name : String) : Run σ (Except BuildError ShaderId) := do
  match ← withFiles fun files => recipe.assemble files name with
  | .error e => return .error (.source e)
  | .ok source => compileStage .fragment source

end Program
end LiveShader
