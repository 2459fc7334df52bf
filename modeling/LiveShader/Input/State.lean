import LiveShader.Uniform.Table
/-!
# Input.State — what keyboard and mouse have done so far

The state that shaders see: the cursor, the buttons and arrow keys held, ten flags, a mode, a counter, the zoom and
the centre of the view.
-/
namespace LiveShader

inductive Direction where
  | up | down | left | right
deriving DecidableEq, Repr

namespace Direction

def all : List Direction := [up, down, left, right]

def index : Direction → Fin Uniform.arrowCount
  | up => 0 | down => 1 | left => 2 | right => 3

/-- The step of the centre that a key stands for. -/
def vector : Direction → Vec2 Float32
  | up => ⟨0.0, 1.0⟩
  | down => ⟨0.0, -1.0⟩
  | left => ⟨-1.0, 0.0⟩
  | right => ⟨1.0, 0.0⟩

end Direction

inductive MouseSlot where
  | left | right | middle
deriving DecidableEq, Repr

def MouseSlot.index : MouseSlot → Fin Uniform.buttonCount
  | left => 0 | right => 1 | middle => 2

structure InputState where
  /-- The cursor in pixels from the lower left corner. -/
  mouse : Vec2 Float32
  buttons : Vector Bool Uniform.buttonCount
  arrows : Vector Bool Uniform.arrowCount
  flags : Vector Bool Uniform.flagCount
  mode : Nat
  increment : Int
  zoom : Float32
  center : Vec2 Float32

namespace InputState

def modeCount : Nat := 3

/-- The zoom factor of a wheel notch or a key, and the finer one with Shift. -/
def zoomStep (fine : Bool) : Float32 := if fine then Float32.ofBits 0x3f8147ae else Float32.ofBits 0x3f8ccccd

def minZoom : Float32 := Float32.ofBits 0x358637bd

def maxZoom : Float32 := 1000000.0

/-- The way the centre goes in a second at zoom one. -/
def panSpeed : Float32 := 0.5

/-- Nothing held, nothing counted. -/
def initial : InputState where
  mouse := ⟨0.0, 0.0⟩
  buttons := Vector.replicate _ false
  arrows := Vector.replicate _ false
  flags := Vector.replicate _ false
  mode := 0
  increment := 0
  zoom := 1.0
  center := ⟨0.0, 0.0⟩

/-- Takes a cursor position counted from the upper left corner of a window of some height. -/
def setCursor (s : InputState) (x y : Float32) (height : Nat) : InputState :=
  { s with mouse := ⟨x, Single.ofNat height - y⟩ }

def setButton (s : InputState) (button : MouseSlot) (pressed : Bool) : InputState :=
  { s with buttons := s.buttons.set button.index pressed }

def setArrow (s : InputState) (direction : Direction) (pressed : Bool) : InputState :=
  { s with arrows := s.arrows.set direction.index pressed }

/-- Flag number `i`; there is none past the last. -/
def flag (s : InputState) (i : Nat) : Bool := s.flags[i]?.getD false

def toggleFlag (s : InputState) (i : Nat) : InputState :=
  { s with flags := s.flags.setIfInBounds i (!s.flag i) }

def cycleMode (s : InputState) : InputState := { s with mode := (s.mode + 1) % modeCount }

/-- The nearest integer of 32 bits. -/
def saturate (n : Int) : Int := max (-2147483648) (min 2147483647 n)

/-- Moves the counter and stops it at the ends of 32 bits. -/
def stepIncrement (s : InputState) (step : Int) : InputState := { s with increment := saturate (s.increment + step) }

/-- Zooms by a number of notches; a negative number zooms out. -/
def zoomBy (s : InputState) (notches : Float32) (fine : Bool) : InputState :=
  { s with zoom := Single.clamp minZoom maxZoom (s.zoom * Float32.pow (zoomStep fine) notches) }

/-- The sum of the directions held. -/
def heading (s : InputState) : Vec2 Float32 :=
  (Direction.all.filter fun d => s.arrows[d.index]).foldl (fun v d => v.add d.vector) ⟨0.0, 0.0⟩

/-- Moves the centre for some seconds; the greater the zoom, the slower. -/
def advance (s : InputState) (seconds : Float32) : InputState :=
  { s with center := s.center.add (((s.heading.scale panSpeed).scale seconds).shrink s.zoom) }

/-- Back to the initial state, save for the cursor. -/
def reset (s : InputState) : InputState := { initial with mouse := s.mouse }

/-- A pressed entry counts one. -/
def bits (held : List Bool) : Uniform.Value := .ints (held.map fun b => if b then 1 else 0)

def values (s : InputState) : List (Uniform × Uniform.Value) :=
  [(.mouse, .vec2 s.mouse), (.center, .vec2 s.center), (.zoom, .float s.zoom), (.mode, .int s.mode),
    (.increment, .int s.increment), (.mousePressed, bits s.buttons.toList), (.keyPressed, bits s.arrows.toList),
    (.flags, bits s.flags.toList)]

end InputState
end LiveShader
