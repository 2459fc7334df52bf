import LiveShader.Machine.Request
import LiveShader.Text.Line
/-!
# Simulator.State — a scripted machine

The simulator stands in for the window system and the drawing library.  Handles count up from one; a request fails
when its fail point is armed.  Linking gathers the uniforms that the attached sources declare.
-/
namespace LiveShader
namespace Simulator

open Machine

inductive FailPoint where
  | eventLoop | display | window | context | surface | current | swapInterval | swapBuffers | run
  | createShader | createProgram | compileVertex | compileFragment | link | createVertexArray | createBuffer
deriving DecidableEq, Repr

namespace FailPoint

def all : List FailPoint :=
  [eventLoop, display, window, context, surface, current, swapInterval, swapBuffers, run, createShader, createProgram,
    compileVertex, compileFragment, link, createVertexArray, createBuffer]

def name : FailPoint → String
  | eventLoop => "event_loop"
  | display => "display"
  | window => "window"
  | context => "context"
  | surface => "surface"
  | current => "current"
  | swapInterval => "swap_interval"
  | swapBuffers => "swap_buffers"
  | run => "run"
  | createShader => "create_shader"
  | createProgram => "create_program"
  | compileVertex => "compile_vertex"
  | compileFragment => "compile_fragment"
  | link => "link"
  | createVertexArray => "create_vertex_array"
  | createBuffer => "create_buffer"

def ofName? (name : String) : Option FailPoint := all.find? (·.name == name)

def message (p : FailPoint) : String := "simulated " ++ p.name ++ " failure"

end FailPoint

structure Shader where
  id : ShaderId
  stage : Stage
  source : String := ""

/-- A program object: its stages in the order of attachment, and what its last link left. -/
structure LinkedProgram where
  id : ProgramId
  attached : List ShaderId := []
  linked : Bool := false
  uniforms : List String := []

structure State where
  nextHandle : Nat := 1
  shaders : List Shader := []
  programs : List LinkedProgram := []
  bound : Option ProgramId := none
  windowSize : Size := ⟨0, 0⟩
  syncResize : Bool := false
  /-- The sample counts of the configurations on offer. -/
  samples : List Nat := [0]
  /-- Names that links leave out. -/
  stripped : List String := []
  /-- The location of the first uniform of every program. -/
  locationBase : Nat := 0
  errors : List Nat := []
  /-- How often each armed point has still to fail. -/
  armed : List (FailPoint × Nat) := []
  clock : Instant := 0

namespace State

/-- Lets a point fail the next few times. -/
def arm (s : State) (point : FailPoint) (times : Nat) : State :=
  { s with armed := (point, times) :: s.armed.filter (·.1 != point) }

def fails (s : State) (point : FailPoint) : Bool × State :=
  match s.armed.lookup point with
  | some (n + 1) => (true, s.arm point n)
  | _ => (false, s)

def shader? (s : State) (id : ShaderId) : Option Shader := s.shaders.find? (·.id == id)

def program? (s : State) (id : ProgramId) : Option LinkedProgram := s.programs.find? (·.id == id)

def attachedSources (s : State) (p : LinkedProgram) : List String :=
  p.attached.filterMap fun id => (s.shader? id).map (·.source)

def changeProgram (s : State) (id : ProgramId) (f : LinkedProgram → LinkedProgram) : State :=
  { s with programs := s.programs.map fun p => if p.id = id then f p else p }

end State

def words (cs : List Char) : List (List Char) :=
  let (open_, done) := cs.foldr (fun c (word, rest) =>
    if Text.isBlank c then ([], if word.isEmpty then rest else word :: rest) else (c :: word, rest)) ([], [])
  if open_.isEmpty then done else open_ :: done

def declared? (line : List Char) : Option String :=
  (Text.dropMarker? "uniform ".toList (Text.trimChars line)).bind fun rest =>
    let declaration := (rest.reverse.dropWhile (· == ';')).reverse
    (words declaration).getLast?.map fun word => String.ofList (word.takeWhile (· != '['))

/-- The names of the uniforms that sources declare, in order of first mention, without those left out. -/
def uniformNames (stripped : List String) (sources : List String) : List String :=
  let names := sources.flatMap fun source => (Text.lines source.toList).filterMap declared?
  names.foldl (fun seen name => if stripped.contains name || seen.contains name then seen else seen ++ [name]) []

end Simulator
end LiveShader
