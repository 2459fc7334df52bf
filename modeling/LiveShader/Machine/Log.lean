import LiveShader.Machine.Request
/-!
# Machine.Log — a trace as lines of text

Each call that succeeded is a line or two; requests that only ask, and those that fail, leave none.  Numbers of the
drawing library are written in hexadecimal, and single-precision numbers as their bits.  A run of uploads is put in
the order of locations.
-/
namespace LiveShader
namespace Machine
namespace Log

/-- Hexadecimal digits, padded with zeros. -/
def hex (width n : Nat) : String :=
  let digits := Nat.toDigits 16 n
  String.ofList (List.replicate (width - digits.length) '0' ++ digits)

def hexCode (n : Nat) : String := "0x" ++ hex 4 n

/-- The bits of a number, the same for all that are none. -/
def bits (x : Float32) : String := if x.isNaN then "nan" else hex 8 x.toBits.toNat

def floats (xs : List Float32) : String := " ".intercalate (xs.map bits)

def integers (ns : List Int) : String := " ".intercalate (ns.map toString)

def uploadText : Uniform.Value → String
  | .int n => "1i " ++ toString n
  | .float x => "1f " ++ bits x
  | .vec2 v => "2f " ++ floats v.toList
  | .vec3 v => "3f " ++ floats v.toList
  | .vec4 v => "4f " ++ floats v.toList
  | .mat2 m => "mat2 false " ++ floats m.toList
  | .mat3 m => "mat3 false " ++ floats m.toList
  | .mat4 m => "mat4 false " ++ floats m.toList
  | .ints ns => "1iv " ++ integers ns

def stageCode : Stage → String
  | .vertex => hexCode 0x8b31
  | .fragment => hexCode 0x8b30

def capabilityCode : Capability → String
  | .depthTest => hexCode 0x0b71
  | .multisample => hexCode 0x809d

/-- A handle, or zero for none. -/
def handle (n : Option Nat) : String := toString (n.getD 0)

/-- A line; that of an upload is kept with its location. -/
inductive Line where
  | plain (text : String)
  | upload (location : Nat) (text : String)

def plain (texts : List String) : List Line := texts.map .plain

def pipelineLines : (r : PipelineRequest) → r.Answer → List Line
  | .createShader stage, .ok id => plain ["gl.create_shader " ++ stageCode stage ++ " -> " ++ toString id.number]
  | .createShader _, .error _ => []
  | .compileShader id source, status =>
    let lines := source.toList.count '\n'
    plain ["gl.shader_source " ++ toString id.number ++ " bytes=" ++ toString source.utf8ByteSize ++ " lines=" ++
        toString lines,
      "gl.compile " ++ toString id.number ++ " " ++ toString (status : Bool)]
  | .shaderLog _, _ => []
  | .deleteShader id, _ => plain ["gl.delete_shader " ++ toString id.number]
  | .createProgram, .ok id => plain ["gl.create_program -> " ++ toString id.number]
  | .createProgram, .error _ => []
  | .attachShader p s, _ => plain ["gl.attach " ++ toString p.number ++ " " ++ toString s.number]
  | .detachShader p s, _ => plain ["gl.detach " ++ toString p.number ++ " " ++ toString s.number]
  | .linkProgram p, status => plain ["gl.link " ++ toString p.number ++ " " ++ toString (status : Bool)]
  | .programLog _, _ => []
  | .deleteProgram p, _ => plain ["gl.delete_program " ++ toString p.number]
  | .useProgram p, _ => plain ["gl.use_program " ++ handle (p.map (·.number))]
  | .uniformLocation _ _, _ => []
  | .setUniform location value, _ =>
    [.upload location ("gl.uniform " ++ toString location ++ " " ++ uploadText value)]

def drawLines : (r : DrawRequest) → r.Answer → List Line
  | .enable capability, _ => plain ["gl.enable " ++ capabilityCode capability]
  | .clearColor color, _ => plain ["gl.clear_color " ++ floats color.toList]
  | .viewport size, _ => plain ["gl.viewport 0 0 " ++ toString size.width ++ " " ++ toString size.height]
  | .clear, _ => plain ["gl.clear " ++ hexCode 0x4100]
  | .drainErrors, codes => plain ((codes : List Nat).map fun code => "gl.get_error " ++ toString code)
  | .createVertexArray, .ok id => plain ["gl.create_vertex_array -> " ++ toString id.number]
  | .createVertexArray, .error _ => []
  | .deleteVertexArray id, _ => plain ["gl.delete_vertex_array " ++ toString id.number]
  | .bindVertexArray id, _ => plain ["gl.bind_vertex_array " ++ handle (id.map (·.number))]
  | .createBuffer, .ok id => plain ["gl.create_buffer -> " ++ toString id.number]
  | .createBuffer, .error _ => []
  | .deleteBuffer id, _ => plain ["gl.delete_buffer " ++ toString id.number]
  | .bindBuffer id, _ => plain ["gl.bind_buffer " ++ hexCode 0x8892 ++ " " ++ handle (id.map (·.number))]
  | .bufferData vertices, _ =>
    plain ["gl.buffer_data " ++ hexCode 0x8892 ++ " " ++ hexCode 0x88e4 ++ " " ++ floats vertices]
  | .describeVertices, _ => plain ["gl.vertex_attrib_pointer 0 3 " ++ hexCode 0x1406 ++ " false 12 0"]
  | .enableVertices, _ => plain ["gl.enable_vertex_attrib 0"]
  | .drawTriangles, _ => plain ["gl.draw_arrays 4 0 6"]

def screenLines : (r : ScreenRequest) → r.Answer → List Line
  | .chooseConfig index samples, _ =>
    plain ["display.config alpha=8 depth=24 picked=" ++ toString index ++ " samples=" ++ toString samples]
  | .createWindow title size, true => plain ["window.create " ++ size.display ++ " visible=false " ++ title]
  | .createContext version, .ok () => plain ["context.create Core " ++ version.display]
  | .createSurface size, .ok () => plain ["surface.create " ++ size.display]
  | .loadFunctions, _ => plain ["gl.load true false"]
  | .setTitle title, _ => plain ["window.title " ++ title]
  | .setVisible visible, _ => plain ["window.visible " ++ toString visible]
  | .requestRedraw, _ => plain ["window.request_redraw"]
  | .setFullscreen fullscreen, _ => plain ["window.fullscreen " ++ toString fullscreen]
  | .requestSize size, _ => plain ["window.request_size " ++ size.display]
  | .resizeSurface size, _ => plain ["surface.resize " ++ size.display]
  | .swapInterval policy, .ok () =>
    plain ["surface.interval " ++ (match policy with | .vsync => "1" | .immediate => "0")]
  | .swapBuffers, .ok () => plain ["surface.swap"]
  | .dropSurface, _ => plain ["surface.drop"]
  | .dropContext, _ => plain ["context.drop"]
  | .dropWindow, _ => plain ["window.drop"]
  | .exitLoop, _ => plain ["loop.exit"]
  | .waitForEvents, _ => plain ["loop.control_flow Wait"]
  | _, _ => []

def callLines (c : Call) : List Line :=
  match c with
  | ⟨.pipeline request, answer⟩ => pipelineLines request answer
  | ⟨.draw request, answer⟩ => drawLines request answer
  | ⟨.screen request, answer⟩ => screenLines request answer

/-- Whether an upload goes before another: by location, then by text. -/
def uploadBefore (a b : Nat × String) : Bool := a.1 < b.1 || (a.1 == b.1 && decide (a.2 ≤ b.2))

def sortRun (run : List (Nat × String)) : List String := (run.mergeSort uploadBefore).map (·.2)

/-- The texts of lines behind a run of uploads. -/
def arrange : List (Nat × String) → List Line → List String
  | run, [] => sortRun run
  | run, .upload location text :: rest => arrange (run ++ [(location, text)]) rest
  | run, .plain text :: rest => sortRun run ++ text :: arrange [] rest

/-- The texts of the calls in a trace; events leave none. -/
def render (trace : Trace) : List String :=
  arrange [] (trace.flatMap fun entry =>
    match entry with
    | .call c => callLines c
    | .event _ => [])

/-- A trace cut at each of its events, which are left out. -/
def segments : Trace → List Trace
  | [] => [[]]
  | .event _ :: rest => [] :: segments rest
  | .call c :: rest =>
    match segments rest with
    | [] => [[.call c]]
    | first :: later => (.call c :: first) :: later

end Log
end Machine
end LiveShader
