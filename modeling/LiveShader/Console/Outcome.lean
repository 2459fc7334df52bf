import LiveShader.Console.CommandLine
import LiveShader.Console.Session
/-!
# Console.Outcome — from the arguments of the program to its exit

The arguments name a task: to list the store, to print an assembled source, or to open a window and converse.  All
three run under the same settings and end in what was shown and a reason to stop.
-/
namespace LiveShader
namespace Console

open Config Machine Window

structure Environment where
  config : Option String := none
  /-- The directory of the user's configuration files, if it was moved. -/
  configHome : Option String := none
  home : Option String := none
deriving DecidableEq, Repr

def Environment.ownConfig? (e : Environment) : Option String :=
  let below (directory : String) := Path.join (Path.join directory "shader-playground") "config.toml"
  match e.configHome.filter Path.isAbsolute, e.home.filter (!·.isEmpty) with
  | some directory, _ => some (below directory)
  | none, some home => some (below (Path.join home ".config"))
  | none, none => none

inductive Ending where
  | done
  | usage (error : UsageError)
  | failed (report : Report)
deriving DecidableEq, Repr

def Ending.code : Ending → Nat
  | .done | .usage .displayHelp | .usage .displayVersion => 0
  | .failed _ => 1
  | .usage _ => 2

/-- What was shown, and why the program stops. -/
structure Outcome where
  shown : String
  ending : Ending
deriving DecidableEq, Repr

def Outcome.ofExcept : Except Report String → Outcome
  | .ok shown => ⟨shown, .done⟩
  | .error report => ⟨"", .failed report⟩

def versionText : String := "shader-playground 0.1.0\n"

def helpText : String := "Live GLSL fragment shader playground

Usage: shader-playground [OPTIONS] [SHADER] [COMMAND]

Commands:
  list        Print the shaders available in the store
  preprocess  Print the fully assembled fragment source for SHADER without opening a window
  help        Print this message or the help of the given subcommand(s)

Arguments:
  [SHADER]  Shader to load straight away (name inside the store, without extension)

Options:
      --config <FILE>             Configuration file (TOML) [env: SHADER_PLAYGROUND_CONFIG=]
      --store <DIR>               Directory holding `.frag` shaders and `.glsl` includes
      --size <WIDTHxHEIGHT>       Initial window size (e.g. `1280x720`)
      --no-vsync                  Swap buffers without waiting for vertical sync
      --fullscreen                Start in borderless fullscreen
      --gl-version <MAJOR.MINOR>  OpenGL context version, also used for the `#version` pragma (minimum 3.3)
      --dump-source <PATH>        Write every wrapped fragment source to PATH before compiling it
  -h, --help                      Print help
  -V, --version                   Print version
"

def UsageError.shown : UsageError → String
  | .displayHelp => helpText
  | .displayVersion => versionText
  | _ => ""

def settingsFor (t : Files.Tree) (own : Option String) (a : Arguments) : Except ConfigError Settings :=
  match Settings.discover t a.config own with
  | .error e => .error e
  | .ok (file, _) =>
    let settings := file.override a
    match settings.validate with
    | .error flaw => .error (.invalid flaw)
    | .ok () => .ok settings

def preprocess (settings : Settings) (name : String) (t : Files.Tree) : Except Report String × Files.Tree :=
  match settings.glVersion with
  | .error flaw => (.error (ConfigError.invalid flaw).report, t)
  | .ok version =>
    match (settings.recipe version).assemble t name with
    | (.ok source, t) => (.ok source, t)
    | (.error e, t) =>
      (.error ⟨"failed to assemble shader '" ++ name ++ "'", e.message :: (e.cause?.map (·.message)).toList⟩, t)

structure Script (σ : Type) where
  /-- What happens in the window during the run that the arguments ask for. -/
  atOnce : List (Viewer.Happening σ) := []
  entries : List (Entry σ) := []

variable {σ : Type}

def Session.opened (settings : Settings) : Run σ (Except Report Session) := do
  match settings.options with
  | .error flaw => return .error (ConfigError.invalid flaw).report
  | .ok options =>
    match ← Viewer.opened options with
    | .error e => return .error ⟨"failed to open render window", [e.message]⟩
    | .ok viewer => return .ok ⟨settings.store, viewer⟩

def Session.banner (s : Session) : String := welcomeBanner s.store ++ "\n"

/-- Plays the shader that the arguments name and converses; gives what was shown and the failure. -/
def Session.follow (s : Session) (shader : Option String) (script : Script σ) :
    Run σ ((String × Option Report) × Session) := do
  match ← s.greet shader script.atOnce with
  | (.error report, s) => return (("", some report), s)
  | (.ok shown, s) =>
    let ((more, failure), s) ← s.converse script.entries
    return ((shown ++ more, failure), s)

def Ending.ofFailure : Option Report → Ending
  | none => .done
  | some report => .failed report

/-- Opens a window, converses and closes it. -/
def interactive (settings : Settings) (shader : Option String) (script : Script σ) : Run σ Outcome := do
  match ← Session.opened settings with
  | .error report => return ⟨"", .failed report⟩
  | .ok session =>
    let ((shown, failure), session) ← session.follow shader script
    session.viewer.close
    return ⟨session.banner ++ shown, .ofFailure failure⟩

def CommandLine.perform (c : CommandLine) (settings : Settings) (script : Script σ) : Run σ Outcome :=
  match c.command with
  | some .list => withFiles fun t => (.ofExcept (listing settings.store t), t)
  | some (.preprocess name) => withFiles fun t =>
    let (result, t) := preprocess settings name t
    (.ofExcept result, t)
  | none => interactive settings c.arguments.shader script

def execute (env : Environment) (args : List String) (script : Script σ) : Run σ Outcome := do
  match CommandLine.parse args env.config with
  | .error e => return ⟨e.shown, .usage e⟩
  | .ok c =>
    match ← withFiles fun t => (settingsFor t env.ownConfig? c.arguments, t) with
    | .error e => return ⟨"", .failed e.report⟩
    | .ok settings => c.perform settings script

end Console
end LiveShader
