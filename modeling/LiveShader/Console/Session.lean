import LiveShader.Console.Entry
import LiveShader.Console.Prompt
import LiveShader.Console.Report
import LiveShader.Store.Listing
/-!
# Console.Session — the conversation at the prompt

Each entry is a command and each command has an answer.  A shader that cannot be loaded is answered with the reason;
only a failed run, an unreadable store or unreadable input ends the session with a report.
-/
namespace LiveShader
namespace Console

open Machine Window

/-- What commands work on: the store that is listed and the viewer that shows shaders. -/
structure Session where
  store : Store
  viewer : Viewer

variable {σ : Type}

/-- The names of the shaders in a store, one a line. -/
def listing (store : Store) (t : Files.Tree) : Except Report String :=
  match store.list t with
  | .error e => .error ⟨"failed to list shaders in " ++ store.root, [e.message]⟩
  | .ok [] => .ok ("No shaders in " ++ store.root ++ ".\n")
  | .ok names => .ok (String.join (names.map (· ++ "\n")))

def loadComplaint (name : String) : Program.BuildError → String
  | .source (.shaderNotFound _ _) => "Shader not found.\n"
  | e => "Failed to load shader '" ++ name ++ "': " ++ e.message ++ "\n"

namespace Session

def play (s : Session) (name : String) (happenings : List (Viewer.Happening σ)) :
    Run σ (Except Report String × Session) := do
  match ← s.viewer.loadShader name with
  | (.error e, viewer) => return (.ok (loadComplaint name e), { s with viewer })
  | (.ok (), viewer) =>
    match ← viewer.run happenings with
    | (.ok (), viewer) => return (.ok "", { s with viewer })
    | (.error message, viewer) => return (.error ⟨message, []⟩, { s with viewer })

def answer (s : Session) (happenings : List (Viewer.Happening σ)) :
    PromptCommand → Run σ (Except Report String × Session)
  | .quit | .blank => return (.ok "", s)
  | .help => return (.ok (keyBindings ++ "\n"), s)
  | .list => withFiles fun t => ((listing s.store t, s), t)
  | .load name => s.play name happenings

/-- What an entry comes to: an answer after which the next one is read, or the end of the session. -/
inductive Turn where
  | answered (shown : String)
  | ended (failure : Option Report)

def take (s : Session) (entry : Entry σ) : Run σ (Turn × Session) := do
  match entry.line with
  | .error cause => return (.ended (some ⟨"failed to read from stdin", [cause.message]⟩), s)
  | .ok line =>
    match PromptCommand.parse (some line) with
    | .quit => return (.ended none, s)
    | command =>
      match ← s.answer entry.happenings command with
      | (.error report, s) => return (.ended (some report), s)
      | (.ok shown, s) => return (.answered shown, s)

/-- Takes entries until one ends the session or none is left; gives what was shown and the failure. -/
def converse (s : Session) : List (Entry σ) → Run σ ((String × Option Report) × Session)
  | [] => return ((promptMark, none), s)
  | entry :: rest => do
    match ← s.take entry with
    | (.ended failure, s) => return ((promptMark, failure), s)
    | (.answered shown, s) =>
      let ((more, failure), s) ← s.converse rest
      return ((promptMark ++ shown ++ more, failure), s)

/-- Plays the shader that was asked for before the first entry. -/
def greet (s : Session) (shader : Option String) (happenings : List (Viewer.Happening σ)) :
    Run σ (Except Report String × Session) :=
  match shader with
  | none => return (.ok "", s)
  | some name => s.play name happenings

end Session
end Console
end LiveShader
