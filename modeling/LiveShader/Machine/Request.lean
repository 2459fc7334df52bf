import LiveShader.Clock
import LiveShader.GlVersion
import LiveShader.Size
import LiveShader.Uniform.Name
import LiveShader.Window.Event
/-!
# Machine.Request — what the program asks of the machine, and the answers

Everything outside the program but its files is reached by requests: the shader compiler, the drawing commands, the
window with its surface, and the clock.  Each request has its own type of answer.  A host is a machine: it answers
any request and keeps a state of its own.  A trace is the record of one run: every request with its answer, and
every event delivered, in order.
-/
namespace LiveShader
namespace Machine

inductive Stage where
  | vertex
  | fragment
deriving DecidableEq, Repr

def Stage.name : Stage → String
  | vertex => "vertex"
  | fragment => "fragment"

structure ShaderId where
  number : Nat
deriving DecidableEq, Repr

structure ProgramId where
  number : Nat
deriving DecidableEq, Repr

structure VertexArrayId where
  number : Nat
deriving DecidableEq, Repr

structure BufferId where
  number : Nat
deriving DecidableEq, Repr

/-- Requests about shaders, programs and their uniforms. -/
inductive PipelineRequest where
  | createShader (stage : Stage)
  /-- Hands over a source, compiles it and asks for the status. -/
  | compileShader (shader : ShaderId) (source : String)
  | shaderLog (shader : ShaderId)
  | deleteShader (shader : ShaderId)
  | createProgram
  | attachShader (program : ProgramId) (shader : ShaderId)
  | detachShader (program : ProgramId) (shader : ShaderId)
  /-- Links a program and asks for the status. -/
  | linkProgram (program : ProgramId)
  | programLog (program : ProgramId)
  | deleteProgram (program : ProgramId)
  /-- Makes a program current, or none. -/
  | useProgram (program : Option ProgramId)
  | uniformLocation (program : ProgramId) (name : String)
  /-- Uploads a value to the current program. -/
  | setUniform (location : Nat) (value : Uniform.Value)

/-- The answers: a handle or the reason why there is none, a status, a text, a location. -/
abbrev PipelineRequest.Answer : PipelineRequest → Type
  | .createShader _ => Except String ShaderId
  | .compileShader _ _ => Bool
  | .shaderLog _ => String
  | .createProgram => Except String ProgramId
  | .linkProgram _ => Bool
  | .programLog _ => String
  | .uniformLocation _ _ => Option Nat
  | .deleteShader _ | .attachShader _ _ | .detachShader _ _ | .deleteProgram _ | .useProgram _ | .setUniform _ _ => Unit

/-- A fixed capability that frames rely on. -/
inductive Capability where
  | depthTest
  | multisample
deriving DecidableEq, Repr

inductive DrawRequest where
  | enable (capability : Capability)
  | clearColor (color : Vec4 Float32)
  /-- The viewport from the origin. -/
  | viewport (size : Size)
  | clear
  /-- Empties the queue of error codes. -/
  | drainErrors
  | createVertexArray
  | deleteVertexArray (array : VertexArrayId)
  | bindVertexArray (array : Option VertexArrayId)
  | createBuffer
  | deleteBuffer (buffer : BufferId)
  | bindBuffer (buffer : Option BufferId)
  | bufferData (vertices : List Float32)
  /-- Lays out attribute 0 as three packed numbers per vertex. -/
  | describeVertices
  | enableVertices
  | drawTriangles

abbrev DrawRequest.Answer : DrawRequest → Type
  | .drainErrors => List Nat
  | .createVertexArray => Except String VertexArrayId
  | .createBuffer => Except String BufferId
  | .enable _ | .clearColor _ | .viewport _ | .clear | .deleteVertexArray _ | .bindVertexArray _ | .deleteBuffer _
  | .bindBuffer _ | .bufferData _ | .describeVertices | .enableVertices | .drawTriangles => Unit

/-- Requests about the window, its surface and context, the event loop and the clock. -/
inductive ScreenRequest where
  | openEventLoop
  /-- The sample counts of the framebuffer configurations on offer. -/
  | findConfigs
  /-- Settles on one of them. -/
  | chooseConfig (index samples : Nat)
  | createWindow (title : String) (size : Size)
  | createContext (version : GlVersion)
  | createSurface (size : Size)
  | makeCurrent
  | loadFunctions
  | setTitle (title : String)
  | setVisible (visible : Bool)
  | requestRedraw
  | setFullscreen (fullscreen : Bool)
  | innerSize
  /-- Asks for a window size, which may be applied at once. -/
  | requestSize (size : Size)
  | resizeSurface (size : Size)
  | swapInterval (policy : SyncPolicy)
  | swapBuffers
  | dropSurface
  | dropContext
  | dropWindow
  | runLoop
  | exitLoop
  /-- Lets the loop sleep until the next event. -/
  | waitForEvents
  | now

abbrev ScreenRequest.Answer : ScreenRequest → Type
  | .openEventLoop | .createContext _ | .createSurface _ | .makeCurrent | .swapInterval _ | .swapBuffers
  | .runLoop => Except String Unit
  | .findConfigs => Except String (List Nat)
  | .createWindow _ _ => Bool
  | .innerSize => Size
  | .requestSize _ => Option Size
  | .now => Instant
  | .chooseConfig _ _ | .loadFunctions | .setTitle _ | .setVisible _ | .requestRedraw | .setFullscreen _
  | .resizeSurface _ | .dropSurface | .dropContext | .dropWindow | .exitLoop | .waitForEvents => Unit

inductive Request where
  | pipeline (request : PipelineRequest)
  | draw (request : DrawRequest)
  | screen (request : ScreenRequest)

abbrev Request.Answer : Request → Type
  | .pipeline request => request.Answer
  | .draw request => request.Answer
  | .screen request => request.Answer

/-- A machine: an answer to every request, depending on a state and changing it. -/
abbrev Host (σ : Type) := (request : Request) → σ → request.Answer × σ

/-- A request that was answered. -/
structure Call where
  request : Request
  answer : request.Answer

/-- One entry of a trace: a call made, or an event delivered. -/
inductive Entry where
  | call (call : Call)
  | event (event : Window.Event)

/-- The calls and events of a run, in order. -/
abbrev Trace := List Entry

end Machine
end LiveShader
