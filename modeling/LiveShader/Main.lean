import LiveShader.Console.Outcome
import LiveShader.Simulator.Answer
/-!
# Main — the program at a terminal

The outermost layer.  It brings the program its arguments, its environment, the lines that are typed and the files
that it may ask for, and shows what it answers.  The window is that of the simulator.
-/
namespace LiveShader
namespace Terminal

open Console

/-- Work at the terminal, with the machine and the copied files at hand. -/
abbrev Task := StateT (Machine.World Simulator.State) IO

def run {α : Type} (part : Machine.Run Simulator.State α) : Task α :=
  modifyGet fun world => part.on Simulator.host world

def alter (f : Files.Tree → Files.Tree) : Task Unit := modify fun world => { world with files := f world.files }

def say (text : String) : Task Unit := do
  let out ← IO.getStdout
  out.putStr text
  out.flush

/-- Follows a path from the top of the file system and copies the directories and links on the way; gives the path
without links, if it leads anywhere. -/
def follow? (path : String) : Task (Option String) := do
  let mut here := "/"
  for name in Path.components path do
    let next := Path.join here name
    let .ok real ← (IO.FS.realPath next).toBaseIO | return none
    let goal := real.toString
    unless name = "." ∨ name = ".." ∨ goal = next do alter (·.makeLink next goal)
    if ← real.isDir then alter (·.makeDirs goal)
    here := goal
  return some here

/-- Copies what a path leads to, with all below it and all that links on the way lead to; `seen` are the paths that
were copied before. -/
partial def copyFrom (path : String) (seen : List String) : Task (List String) := do
  let some goal ← follow? path | return seen
  if seen.contains goal then return seen
  let real ← IO.FS.realPath goal
  if ← real.isDir then
    alter (·.makeDirs goal)
    let mut seen := goal :: seen
    for entry in ← real.readDir do
      seen ← copyFrom entry.path.toString seen
    return seen
  else
    if let .ok content ← (IO.FS.readBinFile goal).toBaseIO then alter fun t => (t.makeParents goal).write goal content
    return goal :: seen

/-- Forgets all copied files but knows the working directory. -/
def forget : Task Unit := do
  let here := (← IO.currentDir).toString
  alter fun _ => Files.Tree.makeDirs { top := .dir [], workDir := Path.components here } here

def absolute (path : String) : Task String := return Path.join (← IO.currentDir).toString path

def bring (paths : List String) : Task Unit := do
  forget
  let mut seen := []
  for path in paths do
    unless path.isEmpty do seen ← copyFrom (← absolute path) seen

/-- The paths of the files that a run under some settings may read or replace. -/
def pathsOf (settings : Config.Settings) (shader : Option String) : List String :=
  settings.storeRoot :: (shader.map settings.store.shaderPath).toList ++ settings.dumpSource.toList

/-- The content of the file that gets a copy of every assembled source. -/
def dumped (settings : Config.Settings) : Task (Option ByteArray) := do
  return settings.dumpSource.bind ((← get).files.read · |>.toOption)

/-- Writes the copy of an assembled source to the file it is for, if it changed. -/
def putDump (settings : Config.Settings) (before : Option ByteArray) : Task Unit := do
  match settings.dumpSource, ← dumped settings with
  | some path, some content =>
    unless before.any (·.toList == content.toList) do let _ ← (IO.FS.writeBinFile path content).toBaseIO
  | _, _ => return ()

/-- Makes room for the file that gets a copy of every assembled source. -/
def admitDump (settings : Config.Settings) : Task Unit := do
  let some path := settings.dumpSource | return
  let some parent := Files.Tree.parent? (← absolute path) | return
  let some goal ← follow? parent | return
  alter (·.makeDirs goal)

/-- Runs a part of the program on files as they are now. -/
def freshly {α : Type} (settings : Config.Settings) (shader : Option String)
    (part : Machine.Run Simulator.State α) : Task α := do
  bring (pathsOf settings shader)
  admitDump settings
  let before ← dumped settings
  let result ← run part
  putDump settings before
  return result

def stop (ending : Ending) : Task UInt32 := do
  if let .failed report := ending then (← IO.getStderr).putStr report.render
  return ending.code.toUInt32

/-- Reads the bytes of a line with the newline that ends it. -/
partial def lineBytes (input : IO.FS.Stream) (line : List UInt8) : IO (List UInt8) := do
  match (← input.read 1).toList with
  | [] => return line.reverse
  | byte :: _ => if byte = 10 then return (byte :: line).reverse else lineBytes input (byte :: line)

def entry? : Task (Option (Entry Simulator.State)) := do
  match ← lineBytes (← IO.getStdin) [] with
  | [] => return none
  | line => return some (entryOfBytes line)

def wanted (entry : Entry Simulator.State) : Option String :=
  match entry.line.toOption.map fun line => PromptCommand.parse (some line) with
  | some (.load name) => some name
  | _ => none

partial def converse (settings : Config.Settings) (s : Session) : Task (Option Report × Session) := do
  say promptMark
  let some entry ← entry? | return (none, s)
  match ← freshly settings (wanted entry) (s.take entry) with
  | (.ended failure, s) => return (failure, s)
  | (.answered shown, s) =>
    say shown
    converse settings s

/-- Opens a window, converses and closes it. -/
def interact (settings : Config.Settings) (shader : Option String) : Task UInt32 := do
  match ← run (Session.opened settings) with
  | .error report => stop (.failed report)
  | .ok session =>
    say session.banner
    let (failure, session) ← match ← freshly settings shader (session.greet shader []) with
      | (.error report, session) => pure (some report, session)
      | (.ok shown, session) => do
        say shown
        converse settings session
    run session.viewer.close
    stop (.ofFailure failure)

def serve (env : Environment) (args : List String) : Task UInt32 := do
  match CommandLine.parse args env.config with
  | .error e =>
    say e.shown
    stop (.usage e)
  | .ok c =>
    bring (c.arguments.config.toList ++ env.ownConfig?.toList)
    match settingsFor (← get).files env.ownConfig? c.arguments with
    | .error e => stop (.failed e.report)
    | .ok settings =>
      match c.command with
      | none => interact settings c.arguments.shader
      | some command =>
        let shader := match command with
          | .list => none
          | .preprocess name => some name
        let outcome ← freshly settings shader (c.perform settings {})
        say outcome.shown
        stop outcome.ending

end Terminal
end LiveShader

/-- Runs the program with the arguments and the environment it was started with. -/
def main (args : List String) : IO UInt32 := do
  let env : LiveShader.Console.Environment :=
    { config := ← IO.getEnv "SHADER_PLAYGROUND_CONFIG"
      configHome := ← IO.getEnv "XDG_CONFIG_HOME"
      home := ← IO.getEnv "HOME" }
  (LiveShader.Terminal.serve env args).run' { host := {}, files := { top := .dir [], workDir := [] } }
