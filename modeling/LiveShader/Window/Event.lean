import LiveShader.Input.Key
import LiveShader.Size
/-!
# Window.Event — what happens to a window
-/
namespace LiveShader
namespace Window

inductive WindowEvent where
  | closeRequested
  | resized (size : Size)
  | modifiersChanged (shift : Bool)
  /-- A key went down or up, or is held; a key that cannot be identified is none. -/
  | keyboard (key : Option Key) (pressed held : Bool)
  | cursorMoved (x y : Float)
  /-- A button went down or up; one that shaders do not see is none. -/
  | mouseButton (slot : Option MouseSlot) (pressed : Bool)
  | wheelLines (x y : Float32)
  | wheelPixels (x y : Float)
  | redrawRequested
  | unhandled

inductive Event where
  | window (event : WindowEvent)
  /-- An event of some other window. -/
  | foreign (event : WindowEvent)
  | aboutToWait
  | unhandled

end Window
end LiveShader
