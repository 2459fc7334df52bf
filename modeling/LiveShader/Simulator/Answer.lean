import LiveShader.Simulator.State
/-!
# Simulator.Answer — how the simulator answers requests
-/
namespace LiveShader
namespace Simulator

open Machine

/-- Makes an object with the next handle unless its point fails. -/
def create (point : FailPoint) (s : State) {α : Type} (handle : Nat → α) (add : α → State → State) :
    Except String α × State :=
  match s.fails point with
  | (true, s) => (.error point.message, s)
  | (false, s) => (.ok (handle s.nextHandle), add (handle s.nextHandle) { s with nextHandle := s.nextHandle + 1 })

def attempt (point : FailPoint) (s : State) : Except String Unit × State :=
  match s.fails point with
  | (true, s) => (.error point.message, s)
  | (false, s) => (.ok (), s)

def answerPipeline : (r : PipelineRequest) → State → r.Answer × State
  | .createShader stage, s =>
    create .createShader s ShaderId.mk fun id s => { s with shaders := s.shaders ++ [{ id, stage }] }
  | .compileShader id source, s =>
    let stage := ((s.shader? id).map (·.stage)).getD .vertex
    let (failed, s) := s.fails (match stage with | .vertex => .compileVertex | .fragment => .compileFragment)
    (!failed, { s with shaders := s.shaders.map fun x => if x.id = id then { x with source } else x })
  | .shaderLog id, s => ("0:1(1): error: shader " ++ toString id.number ++ " rejected", s)
  | .deleteShader id, s => ((), { s with shaders := s.shaders.filter (·.id != id) })
  | .createProgram, s =>
    create .createProgram s ProgramId.mk fun id s => { s with programs := s.programs ++ [{ id }] }
  | .attachShader p id, s => ((), s.changeProgram p fun x => { x with attached := x.attached ++ [id] })
  | .detachShader p id, s => ((), s.changeProgram p fun x => { x with attached := x.attached.filter (· != id) })
  | .linkProgram p, s =>
    let (failed, s) := s.fails .link
    (!failed, s.changeProgram p fun x =>
      { x with linked := !failed, uniforms := uniformNames s.stripped (s.attachedSources x) })
  | .programLog p, s => ("error: program " ++ toString p.number ++ " failed to link", s)
  | .deleteProgram p, s => ((), { s with programs := s.programs.filter (·.id != p) })
  | .useProgram p, s => ((), { s with bound := p })
  | .uniformLocation p name, s =>
    ((s.program? p).bind fun x =>
      if x.linked then (x.uniforms.findIdx? (· == name)).map (s.locationBase + ·) else none, s)
  | .setUniform _ _, s => ((), s)

def answerDraw : (r : DrawRequest) → State → r.Answer × State
  | .drainErrors, s =>
    (s.errors.takeWhile (· != 0), { s with errors := (s.errors.dropWhile (· != 0)).drop 1 })
  | .createVertexArray, s => create .createVertexArray s VertexArrayId.mk fun _ s => s
  | .createBuffer, s => create .createBuffer s BufferId.mk fun _ s => s
  | .enable _, s | .clearColor _, s | .viewport _, s | .clear, s | .deleteVertexArray _, s | .bindVertexArray _, s
  | .deleteBuffer _, s | .bindBuffer _, s | .bufferData _, s | .describeVertices, s | .enableVertices, s
  | .drawTriangles, s => ((), s)

def answerScreen : (r : ScreenRequest) → State → r.Answer × State
  | .openEventLoop, s => attempt .eventLoop s
  | .findConfigs, s =>
    match s.fails .display with
    | (true, s) => (.error FailPoint.display.message, s)
    | (false, s) => (if s.samples.isEmpty then .error "no configs" else .ok s.samples, s)
  | .createWindow _ size, s =>
    match s.fails .window with
    | (true, s) => (false, s)
    | (false, s) => (true, { s with windowSize := size })
  | .createContext _, s => attempt .context s
  | .createSurface _, s => attempt .surface s
  | .makeCurrent, s => attempt .current s
  | .swapInterval _, s => attempt .swapInterval s
  | .swapBuffers, s => attempt .swapBuffers s
  | .runLoop, s => attempt .run s
  | .innerSize, s => (s.windowSize, s)
  | .requestSize size, s => if s.syncResize then (some size, { s with windowSize := size }) else (none, s)
  | .now, s => (s.clock, s)
  | .chooseConfig _ _, s | .loadFunctions, s | .setTitle _, s | .setVisible _, s | .requestRedraw, s
  | .setFullscreen _, s | .resizeSurface _, s | .dropSurface, s | .dropContext, s | .dropWindow, s | .exitLoop, s
  | .waitForEvents, s => ((), s)

def host : Host State := fun request s =>
  match request with
  | .pipeline r => answerPipeline r s
  | .draw r => answerDraw r s
  | .screen r => answerScreen r s

end Simulator
end LiveShader
