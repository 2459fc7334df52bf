import LiveShader.Machine.Run
/-!
# Window.Open — a hidden window with a surface and a drawing context

Of the framebuffer configurations on offer the first with the most samples is taken.  What was made before a
failure is dropped again: the surface, then the window.  A context that never became current holds nothing to drop.
-/
namespace LiveShader
namespace Window

open Machine

/-- The first candidate with the most samples. -/
def mostSamples {β : Type} (samples : β → Nat) : List β → Option β
  | [] => none
  | c :: cs => some (cs.foldl (fun best c => if samples best < samples c then c else best) c)

inductive OpenError where
  | eventLoop (message : String)
  | display (message : String)
  | noWindow
  | context (version : GlVersion) (message : String)
  | surface (message : String)
  | current (message : String)
deriving DecidableEq, Repr

def OpenError.message : OpenError → String
  | .eventLoop message => "failed to create event loop: " ++ message
  | .display message => "failed to create GL display: " ++ message
  | .noWindow => "display builder did not create a window"
  | .context version message => "failed to create OpenGL " ++ version.display ++ " context: " ++ message
  | .surface message => "failed to create window surface: " ++ message
  | .current message => "failed to make GL context current: " ++ message

def noConfigs : String := "no configs"

variable {σ : Type}

def chooseConfig : Run σ (Except OpenError Unit) := do
  match ← screen .findConfigs with
  | .error message => return .error (.display message)
  | .ok counts =>
    match mostSamples (·.1) counts.zipIdx with
    | none => return .error (.display noConfigs)
    | some (samples, index) =>
      screen (.chooseConfig index samples)
      return .ok ()

def attachContext (version : GlVersion) : Run σ (Except OpenError Unit) := do
  match ← screen (.createContext version) with
  | .error message =>
    screen .dropWindow
    return .error (.context version message)
  | .ok () =>
    let size ← screen .innerSize
    match ← screen (.createSurface size.atLeastOne) with
    | .error message =>
      screen .dropWindow
      return .error (.surface message)
    | .ok () =>
      match ← screen .makeCurrent with
      | .error message =>
        screen .dropSurface
        screen .dropWindow
        return .error (.current message)
      | .ok () =>
        screen .loadFunctions
        return .ok ()

/-- The state of the drawing library that every frame relies on. -/
def prepareDrawing : Run σ Unit := do
  draw (.enable .depthTest)
  draw (.enable .multisample)
  draw (.clearColor ⟨0.0, 0.0, 0.0, 1.0⟩)

def openWindow (title : String) (size : Size) (version : GlVersion) : Run σ (Except OpenError Unit) := do
  match ← screen .openEventLoop with
  | .error message => return .error (.eventLoop message)
  | .ok () =>
    match ← chooseConfig with
    | .error e => return .error e
    | .ok () =>
      match ← screen (.createWindow title size) with
      | false => return .error .noWindow
      | true =>
        match ← attachContext version with
        | .error e => return .error e
        | .ok () =>
          prepareDrawing
          return .ok ()

end Window
end LiveShader
