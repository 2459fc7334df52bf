import LiveShader.Store.Basic
import LiveShader.Text.Blank
/-!
# Console.Prompt — what the user types between two runs, and what is shown
-/
namespace LiveShader
namespace Console

inductive PromptCommand where
  | quit
  | list
  | help
  | blank
  | load (name : String)
deriving DecidableEq, Repr

def PromptCommand.parse : Option String → PromptCommand
  | none => .quit
  | some line =>
    let word := Text.trim line
    if word = "" then .blank
    else if word = "quit" ∨ word = "exit" then .quit
    else if word = "list" then .list
    else if word = "help" then .help
    else .load word

def promptMark : String := "> "

def keyBindings : String := "Escape          back to the prompt
F5              hot-swap the fragment shader
Shift+F5        full reload
F8              toggle vsync
F9              reset zoom, pan, counters, flags and mode
F11             toggle borderless fullscreen
0-9             toggle vbFlags[n]
Arrow keys      pan while held
= / - / wheel   zoom in / out (Shift for finer steps)
M               cycle mode
] / [           increment / decrement the counter
Mouse buttons   vbMousePressed"

/-- What is shown once, before the first prompt. -/
def welcomeBanner (store : Store) : String :=
  "Shader Playground

Write fragment shaders as " ++ store.root ++ "/<name>." ++ store.shaderExtension ++ " and type <name> to run one.
Your code defines `void mainImage()` and writes `fragColor`. The harness
supplies `main`, the in/out and uniform declarations, and `#version`.
`#include <path>` inlines " ++ store.root ++ "/<path>." ++ store.includeExtension ++ ".

Type `list` for the available shaders, `help` for the keys while rendering,
and `quit` or `exit` to leave.
"

end Console
end LiveShader
