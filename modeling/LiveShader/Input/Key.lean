import LiveShader.Input.State
/-!
# Input.Key — the keys of a keyboard and what they do

Keys are told apart by their place on the keyboard.  A key stands for at most one action, F5 for another one with
Shift held; a few actions repeat while their key is held.
-/
namespace LiveShader

/-- A key by its place on the keyboard; those without an action are known by name only. -/
inductive Key where
  | escape | f5 | f8 | f9 | f11
  | digit (i : Fin 10)
  | numpad (i : Fin 10)
  | arrow (direction : Direction)
  | equal | numpadAdd | minus | numpadSubtract
  | letterM | bracketRight | bracketLeft
  | unbound (name : String)
deriving DecidableEq, Repr

inductive KeyAction where
  /-- Hide the window and return to the prompt. -/
  | exit
  /-- Compile the fragment stage again and relink. -/
  | hotSwap
  /-- Build the whole program again. -/
  | fullReload
  | toggleSync
  | resetInput
  | toggleFullscreen
  | toggleFlag (i : Fin 10)
  /-- Move the centre while the key is held. -/
  | pan (direction : Direction)
  | zoomIn
  | zoomOut
  | cycleMode
  | increment
  | decrement
deriving DecidableEq, Repr

def KeyAction.repeats : KeyAction → Bool
  | zoomIn | zoomOut | increment | decrement => true
  | _ => false

namespace Key

def action? (shift : Bool) : Key → Option KeyAction
  | escape => some .exit
  | f5 => some (if shift then .fullReload else .hotSwap)
  | f8 => some .toggleSync
  | f9 => some .resetInput
  | f11 => some .toggleFullscreen
  | digit i | numpad i => some (.toggleFlag i)
  | arrow d => some (.pan d)
  | equal | numpadAdd => some .zoomIn
  | minus | numpadSubtract => some .zoomOut
  | letterM => some .cycleMode
  | bracketRight => some .increment
  | bracketLeft => some .decrement
  | unbound _ => none

def boundNames : List (String × Key) :=
  [("Escape", escape), ("F5", f5), ("F8", f8), ("F9", f9), ("F11", f11), ("ArrowUp", arrow .up),
    ("ArrowDown", arrow .down), ("ArrowLeft", arrow .left), ("ArrowRight", arrow .right), ("Equal", equal),
    ("NumpadAdd", numpadAdd), ("Minus", minus), ("NumpadSubtract", numpadSubtract), ("KeyM", letterM),
    ("BracketRight", bracketRight), ("BracketLeft", bracketLeft)] ++
  (List.finRange 10).map (fun i => ("Digit" ++ toString i, digit i)) ++
  (List.finRange 10).map (fun i => ("Numpad" ++ toString i, numpad i))

def unboundNames : List String :=
  ["Backquote", "Backslash", "Comma", "IntlBackslash", "IntlRo", "IntlYen", "KeyA", "KeyB", "KeyC", "KeyD", "KeyE",
    "KeyF", "KeyG", "KeyH", "KeyI", "KeyJ", "KeyK", "KeyL", "KeyN", "KeyO", "KeyP", "KeyQ", "KeyR", "KeyS", "KeyT",
    "KeyU", "KeyV", "KeyW", "KeyX", "KeyY", "KeyZ", "Period", "Quote", "Semicolon", "Slash", "AltLeft", "AltRight",
    "Backspace", "CapsLock", "ContextMenu", "ControlLeft", "ControlRight", "Enter", "SuperLeft", "SuperRight",
    "ShiftLeft", "ShiftRight", "Space", "Tab", "Convert", "KanaMode", "Lang1", "Lang2", "Lang3", "Lang4", "Lang5",
    "NonConvert", "Delete", "End", "Help", "Home", "Insert", "PageDown", "PageUp", "NumLock", "NumpadBackspace",
    "NumpadClear", "NumpadClearEntry", "NumpadComma", "NumpadDecimal", "NumpadDivide", "NumpadEnter", "NumpadEqual",
    "NumpadHash", "NumpadMemoryAdd", "NumpadMemoryClear", "NumpadMemoryRecall", "NumpadMemoryStore",
    "NumpadMemorySubtract", "NumpadMultiply", "NumpadParenLeft", "NumpadParenRight", "NumpadStar", "Fn", "FnLock",
    "PrintScreen", "ScrollLock", "Pause", "BrowserBack", "BrowserFavorites", "BrowserForward", "BrowserHome",
    "BrowserRefresh", "BrowserSearch", "BrowserStop", "Eject", "LaunchApp1", "LaunchApp2", "LaunchMail",
    "MediaPlayPause", "MediaSelect", "MediaStop", "MediaTrackNext", "MediaTrackPrevious", "Power", "Sleep",
    "AudioVolumeDown", "AudioVolumeMute", "AudioVolumeUp", "WakeUp", "Meta", "Hyper", "Turbo", "Abort", "Resume",
    "Suspend", "Again", "Copy", "Cut", "Find", "Open", "Paste", "Props", "Select", "Undo", "Hiragana", "Katakana",
    "F1", "F2", "F3", "F4", "F6", "F7", "F10", "F12", "F13", "F14", "F15", "F16", "F17", "F18", "F19", "F20", "F21",
    "F22", "F23", "F24", "F25", "F26", "F27", "F28", "F29", "F30", "F31", "F32", "F33", "F34", "F35"]

def ofName? (name : String) : Option Key :=
  match boundNames.lookup name with
  | some key => some key
  | none => if unboundNames.contains name then some (unbound name) else none

end Key
end LiveShader
