import LiveShader.Camera
import LiveShader.Display
import LiveShader.Uniform.Upload
import LiveShader.Window.Open
import LiveShader.Window.Quad
/-!
# Window.Viewer — the window that shows a shader

The viewer owns the program slot, the quad and everything the uniforms are made of.  All that depends on the
window's size is renewed together in `resize`; a frame is drawn only with a program and a quad.
-/
namespace LiveShader
namespace Window

open Machine

structure Options where
  title : String := "Shader Playground"
  windowSize : Size := ⟨1280, 720⟩
  store : Store := {}
  version : GlVersion := .minimum
  sync : SyncPolicy := .vsync
  /-- Go fullscreen when the window is shown for the first time. -/
  fullscreen : Bool := false
  /-- The file that gets a copy of every assembled source. -/
  dumpPath : Option String := none
deriving DecidableEq, Repr

def Options.withWindowSize (o : Options) (size : Size) : Options := { o with windowSize := size.atLeastOne }

/-- A window with what it shows. -/
structure Viewer where
  programs : Program.Slot
  quad : Option Quad
  uniforms : Uniform.Table
  input : InputState
  clock : FrameClock
  display : DisplayState
  sync : SyncPolicy
  shift : Bool
  startFullscreen : Bool
  title : String

namespace Viewer

variable {σ : Type}

/-- Opens a viewer, hidden and without a program; its uniform table goes through the uniforms in the given order. -/
def opened (o : Options) (order : Uniform.Order := .declared) : Run σ (Except OpenError Viewer) := do
  match ← openWindow o.title o.windowSize o.version with
  | .error e => return .error e
  | .ok () =>
    let now ← screen .now
    return .ok
      { programs := { recipe := ⟨o.store, o.version, o.dumpPath⟩ }
        quad := none
        uniforms := .initial order
        input := .initial
        clock := .startingAt now
        display := .initial o.windowSize
        sync := o.sync
        shift := false
        startFullscreen := o.fullscreen
        title := o.title }

/-- Builds the shader that the next run shows. -/
def loadShader (v : Viewer) (name : String) : Run σ (Except Program.BuildError Unit × Viewer) := do
  let (result, programs) ← v.programs.load name
  return (result, { v with programs })

def unload (v : Viewer) : Run σ Viewer := do
  return { v with programs := ← v.programs.teardown }

def dropQuad (v : Viewer) : Run σ Viewer := do
  match v.quad with
  | none => return v
  | some quad =>
    quad.release
    return { v with quad := none }

def maxViewport : Nat := 2147483647

def setViewport (size : Size) : Run σ Unit :=
  draw (.viewport ⟨min size.width maxViewport, min size.height maxViewport⟩)

/-- Takes a new window size; one with a zero dimension changes nothing. -/
def resize (v : Viewer) (size : Size) : Run σ Viewer := do
  if size.isEmpty then return v
  else
    screen (.resizeSurface size)
    setViewport size
    let camera := ViewProjection.ofSize .standard size
    let v ← dropQuad { v with uniforms := v.uniforms.setAll camera.values }
    return { v with quad := ← Quad.make size }

/-- Goes fullscreen or back to the remembered size. -/
def toggleFullscreen (v : Viewer) : Run σ Viewer := do
  let current ← screen .innerSize
  let (transition, display) := v.display.toggle current
  let v := { v with display }
  match transition with
  | .enterFullscreen =>
    screen (.setFullscreen true)
    return v
  | .leaveFullscreen restore =>
    screen (.setFullscreen false)
    match ← screen (.requestSize restore) with
    | some applied => v.resize applied
    | none => return v

/-- Sets the swap interval; a refusal is no failure. -/
def applySync (v : Viewer) : Run σ Unit := do
  let _ ← screen (.swapInterval v.sync)

def titleFor (v : Viewer) : String :=
  match v.programs.shaderName with
  | some name => v.title ++ " - " ++ name
  | none => v.title

def beginRun (v : Viewer) : Run σ Viewer := do
  screen (.setTitle v.titleFor)
  screen (.setVisible true)
  let v ← if v.startFullscreen then toggleFullscreen { v with startFullscreen := false } else pure v
  v.applySync
  let size ← screen .innerSize
  let v ← v.resize size
  let now ← screen .now
  screen .requestRedraw
  return { v with clock := .startingAt now }

def endRun : Run σ Unit := screen (.setVisible false)

/-- The values of one frame: input and time. -/
def frameValues (input : InputState) (sample : TimeSample) : List (Uniform × Uniform.Value) :=
  input.values ++ [(.time, .float sample.seconds), (.delta, .float sample.deltaMillis)]

/-- Uploads and draws, if there is a program and a quad. -/
def paint (v : Viewer) : Run σ Unit := do
  match v.quad with
  | none => return ()
  | some quad =>
    match ← v.programs.bind with
    | false => return ()
    | true =>
      v.uniforms.push
      quad.paint
      Program.Slot.unbind

def renderFrame (v : Viewer) : Run σ Viewer := do
  let now ← screen .now
  let (sample, clock) := v.clock.sampleAt now
  let input := v.input.advance sample.deltaSeconds
  let uniforms ← (v.uniforms.setAll (frameValues input sample)).sync v.programs
  let v := { v with clock, input, uniforms }
  draw .clear
  v.paint
  let _ ← screen .swapBuffers
  let _ ← draw .drainErrors
  return v

/-- Does what a key stands for; the second component tells whether the loop is left. -/
def act (v : Viewer) (action : KeyAction) : Run σ (Viewer × Bool) := do
  match action with
  | .exit =>
    screen .exitLoop
    return (v, true)
  | .hotSwap =>
    let (_, programs) ← v.programs.hotSwap
    return ({ v with programs }, false)
  | .fullReload =>
    let (_, programs) ← v.programs.reload
    return ({ v with programs }, false)
  | .toggleSync =>
    let v := { v with sync := v.sync.toggled }
    v.applySync
    return (v, false)
  | .resetInput => return ({ v with input := v.input.reset }, false)
  | .toggleFullscreen => return (← v.toggleFullscreen, false)
  | .toggleFlag i => return ({ v with input := v.input.toggleFlag i }, false)
  | .zoomIn => return ({ v with input := v.input.zoomBy 1.0 v.shift }, false)
  | .zoomOut => return ({ v with input := v.input.zoomBy (-1.0) v.shift }, false)
  | .cycleMode => return ({ v with input := v.input.cycleMode }, false)
  | .increment => return ({ v with input := v.input.stepIncrement 1 }, false)
  | .decrement => return ({ v with input := v.input.stepIncrement (-1) }, false)
  | .pan _ => return (v, false)

/-- A key without an action does nothing.  Arrows follow their key; any other action takes a press, and one that was
not held unless the action repeats. -/
def handleKey (v : Viewer) (key : Key) (pressed held : Bool) : Run σ (Viewer × Bool) := do
  match key.action? v.shift with
  | none => return (v, false)
  | some (.pan direction) => return ({ v with input := v.input.setArrow direction pressed }, false)
  | some action => if !pressed || (held && !action.repeats) then return (v, false) else v.act action

/-- The travel of a wheel in pixels that counts as one notch. -/
def pixelsPerNotch : Float := 120.0

def handleWindowEvent (v : Viewer) (event : WindowEvent) : Run σ (Viewer × Bool) := do
  match event with
  | .closeRequested =>
    screen .exitLoop
    return (v, true)
  | .resized size => return (← v.resize size, false)
  | .modifiersChanged shift => return ({ v with shift }, false)
  | .keyboard (some key) pressed held => v.handleKey key pressed held
  | .keyboard none _ _ => return (v, false)
  | .cursorMoved x y =>
    let size ← screen .innerSize
    return ({ v with input := v.input.setCursor x.toFloat32 y.toFloat32 size.height }, false)
  | .mouseButton (some slot) pressed => return ({ v with input := v.input.setButton slot pressed }, false)
  | .mouseButton none _ => return (v, false)
  | .wheelLines _ y => return ({ v with input := v.input.zoomBy y v.shift }, false)
  | .wheelPixels _ y => return ({ v with input := v.input.zoomBy (y / pixelsPerNotch).toFloat32 v.shift }, false)
  | .redrawRequested => return (← v.renderFrame, false)
  | .unhandled => return (v, false)

/-- Handles one event of the loop; events of other windows have no effect. -/
def handleEvent (v : Viewer) (event : Event) : Run σ (Viewer × Bool) := do
  match event with
  | .window event => v.handleWindowEvent event
  | .foreign _ => return (v, false)
  | .aboutToWait =>
    screen .requestRedraw
    screen .waitForEvents
    return (v, false)
  | .unhandled => return (v, false)

/-- What comes next while the loop runs: an event, or a change of the machine from outside. -/
inductive Happening (σ : Type) where
  | event (event : Event)
  | change (change : Interlude σ)

/-- Handles what happens until the loop is left or nothing more comes.  The window system is assumed to deliver nothing
after the event that leaves the loop. -/
def loop (v : Viewer) : List (Happening σ) → Run σ Viewer
  | [] => return v
  | .change change :: rest => do
    interlude change
    loop v rest
  | .event event :: rest => do
    deliver event
    match ← v.handleEvent event with
    | (v, true) => return v
    | (v, false) => loop v rest

def runFailure (message : String) : String := "render loop failed: " ++ message

/-- Shows the window, handles what happens and hides it again.  The window system is assumed to report an error of the
event loop before the first event or not at all. -/
def run (v : Viewer) (happenings : List (Happening σ)) : Run σ (Except String Unit × Viewer) := do
  let v ← v.beginRun
  match ← screen .runLoop with
  | .error message =>
    endRun
    return (.error (runFailure message), v)
  | .ok () =>
    let v ← v.loop happenings
    endRun
    return (.ok (), v)

/-- Releases program and quad, then surface, context and window. -/
def close (v : Viewer) : Run σ Unit := do
  let v ← v.unload
  let _ ← v.dropQuad
  screen .dropSurface
  screen .dropContext
  screen .dropWindow

end Viewer
end Window
end LiveShader
