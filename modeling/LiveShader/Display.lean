import LiveShader.Size
/-!
# Display — windowed and fullscreen mode

Going fullscreen remembers the size of the window, coming back hands it out again.
-/
namespace LiveShader

inductive WindowMode where
  | windowed
  | fullscreen
deriving DecidableEq, Repr

inductive DisplayTransition where
  | enterFullscreen
  | leaveFullscreen (restore : Size)
deriving DecidableEq, Repr

/-- The mode of a window, and the size to come back to. -/
structure DisplayState where
  mode : WindowMode
  windowedSize : Size
deriving DecidableEq, Repr

namespace DisplayState

def initial (size : Size) : DisplayState := ⟨.windowed, size⟩

/-- Changes the mode of a window that has some size now; a size with a zero dimension is not remembered. -/
def toggle (d : DisplayState) (current : Size) : DisplayTransition × DisplayState :=
  match d.mode with
  | .windowed => (.enterFullscreen, ⟨.fullscreen, if current.isEmpty then d.windowedSize else current⟩)
  | .fullscreen => (.leaveFullscreen d.windowedSize, { d with mode := .windowed })

end DisplayState
end LiveShader
