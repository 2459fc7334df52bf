import LiveShader.Files.Access
import LiveShader.Machine.Request
/-!
# Machine.Run — programs that make requests

A program runs on a host, with files and a trace.  All it can do besides computing is to make a request, which is
entered in the trace with its answer, and to read or change the files.
-/
namespace LiveShader
namespace Machine

/-- What a program works on: the state of its host, the files and what has happened so far. -/
structure World (σ : Type) where
  host : σ
  files : Files.Tree
  /-- The trace, latest entry first. -/
  past : Trace := []

/-- What has happened so far, in order. -/
def World.trace {σ : Type} (world : World σ) : Trace := world.past.reverse

/-- A program over a host whose states are `σ`. -/
abbrev Run (σ : Type) := ReaderT (Host σ) (StateM (World σ))

variable {σ : Type}

/-- Makes a request and enters it in the trace with its answer. -/
def ask (request : Request) : Run σ request.Answer := fun host world =>
  let (answer, state) := host request world.host
  (answer, { world with host := state, past := .call ⟨request, answer⟩ :: world.past })

def pipeline (request : PipelineRequest) : Run σ request.Answer := ask (.pipeline request)

def draw (request : DrawRequest) : Run σ request.Answer := ask (.draw request)

def screen (request : ScreenRequest) : Run σ request.Answer := ask (.screen request)

def deliver (event : Window.Event) : Run σ Unit := fun _ world =>
  ((), { world with past := .event event :: world.past })

def withFiles {α : Type} (step : Files.Tree → α × Files.Tree) : Run σ α := fun _ world =>
  let (result, files) := step world.files
  (result, { world with files })

/-- A change of the machine from outside: of its host's state and of the files, but not of what has happened. -/
structure Interlude (σ : Type) where
  host : σ → σ := id
  files : Files.Tree → Files.Tree := id

def interlude (change : Interlude σ) : Run σ Unit := fun _ world =>
  ((), { world with host := change.host world.host, files := change.files world.files })

def Run.on {α : Type} (program : Run σ α) (host : Host σ) (world : World σ) : α × World σ := program host world

@[simp] theorem trace_ask (request : Request) (host : Host σ) (world : World σ) :
    ((ask request).on host world).2.trace = world.trace ++ [.call ⟨request, (host request world.host).1⟩] := by
  simp [Run.on, ask, World.trace]

@[simp] theorem trace_deliver (event : Window.Event) (host : Host σ) (world : World σ) :
    ((deliver event).on host world).2.trace = world.trace ++ [.event event] := by
  simp [Run.on, deliver, World.trace]

@[simp] theorem trace_interlude (change : Interlude σ) (host : Host σ) (world : World σ) :
    ((interlude change).on host world).2.trace = world.trace := rfl

end Machine
end LiveShader
