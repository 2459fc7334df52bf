import LiveShader.Files.Access
import LiveShader.Toml.Document
import LiveShader.Window.Viewer
/-!
# Config.Settings — settings from a file, from the command line, and checked

Settings start from their defaults, take what a file says, and then what the command line says.  Checked settings
are what a viewer is opened with.
-/
namespace LiveShader
namespace Config

structure Settings where
  storeRoot : String := "res/shaders"
  shaderExtension : String := "frag"
  includeExtension : String := "glsl"
  windowSize : Size := ⟨1280, 720⟩
  vsync : Bool := true
  fullscreen : Bool := false
  version : String := GlVersion.minimum.display
  dumpSource : Option String := none
deriving DecidableEq, Repr, Inhabited

structure Arguments where
  shader : Option String := none
  config : Option String := none
  store : Option String := none
  size : Option Size := none
  noVsync : Bool := false
  fullscreen : Bool := false
  version : Option GlVersion := none
  dumpSource : Option String := none
deriving DecidableEq, Repr, Inhabited

/-- Why a field does not hold what it should. -/
inductive Flaw where
  | zeroSize (size : Size)
  | emptyExtension (field : String)
  | dottedExtension (field value : String)
  | version (error : GlVersion.ParseError)
deriving DecidableEq, Repr

def Flaw.message : Flaw → String
  | .zeroSize size => "window_size must be non-zero, got " ++ size.display
  | .emptyExtension field => field ++ " must not be empty"
  | .dottedExtension field value => field ++ " must not start with a dot (got `" ++ value ++ "`)"
  | .version error => "gl_version: " ++ error.message

inductive ConfigError where
  | read (path : String) (cause : Files.AccessError)
  | parse (path : String)
  | invalid (flaw : Flaw)
deriving DecidableEq, Repr

def ConfigError.message : ConfigError → String
  | .read path cause => "failed to read config file " ++ path ++ ": " ++ cause.message
  | .parse path => "failed to parse config file " ++ path
  | .invalid flaw => "invalid configuration: " ++ flaw.message

def natOf? : Toml.Value → Option Nat
  | .integer n => if 0 ≤ n ∧ n ≤ Text.limit32 then some n.toNat else none
  | _ => none

/-- The first two items of an array as a size. -/
def sizeOf? : Toml.Value → Option Size
  | .array (w :: h :: _) => do return ⟨← natOf? w, ← natOf? h⟩
  | _ => none

def textOf? : Toml.Value → Option String
  | .string s => some s
  | _ => none

def boolOf? : Toml.Value → Option Bool
  | .boolean b => some b
  | _ => none

namespace Settings

/-- Takes one entry of a file; unknown keys and values of another kind are refused. -/
def takeEntry (s : Settings) (entry : String × Toml.Value) : Option Settings :=
  match entry.1 with
  | "store_root" => (textOf? entry.2).map fun x => { s with storeRoot := x }
  | "shader_extension" => (textOf? entry.2).map fun x => { s with shaderExtension := x }
  | "include_extension" => (textOf? entry.2).map fun x => { s with includeExtension := x }
  | "window_size" => (sizeOf? entry.2).map fun x => { s with windowSize := x }
  | "vsync" => (boolOf? entry.2).map fun x => { s with vsync := x }
  | "fullscreen" => (boolOf? entry.2).map fun x => { s with fullscreen := x }
  | "gl_version" => (textOf? entry.2).map fun x => { s with version := x }
  | "dump_source" => (textOf? entry.2).map fun x => { s with dumpSource := some x }
  | _ => none

def ofText? (text : String) : Option Settings :=
  (Toml.document? text).bind fun entries => entries.foldlM takeEntry {}

def load (t : Files.Tree) (path : String) : Except ConfigError Settings :=
  match t.readText path with
  | .error cause => .error (.read path cause)
  | .ok text =>
    match ofText? text with
    | some s => .ok s
    | none => .error (.parse path)

/-- The settings of the file asked for, else of the user's own file if there is one, else the defaults; and the
file they come from. -/
def discover (t : Files.Tree) (asked own : Option String) : Except ConfigError (Settings × Option String) :=
  match asked, own.filter t.isFile with
  | some path, _ | none, some path =>
    match load t path with
    | .ok s => .ok (s, some path)
    | .error e => .error e
  | none, none => .ok ({}, none)

def override (s : Settings) (a : Arguments) : Settings where
  storeRoot := a.store.getD s.storeRoot
  shaderExtension := s.shaderExtension
  includeExtension := s.includeExtension
  windowSize := a.size.getD s.windowSize
  vsync := s.vsync && !a.noVsync
  fullscreen := s.fullscreen || a.fullscreen
  version := (a.version.map GlVersion.display).getD s.version
  dumpSource := a.dumpSource <|> s.dumpSource

def glVersion (s : Settings) : Except Flaw GlVersion :=
  match GlVersion.parse s.version with
  | .ok v => .ok v
  | .error e => .error (.version e)

def extensionFlaw? (field value : String) : Option Flaw :=
  if Text.isAllBlank value.toList then some (.emptyExtension field)
  else if value.toList.head? = some '.' then some (.dottedExtension field value)
  else none

def flaw? (s : Settings) : Option Flaw :=
  if s.windowSize.isEmpty then some (.zeroSize s.windowSize)
  else extensionFlaw? "shader_extension" s.shaderExtension
    <|> extensionFlaw? "include_extension" s.includeExtension
    <|> (match s.glVersion with
      | .ok _ => none
      | .error flaw => some flaw)

def validate (s : Settings) : Except Flaw Unit :=
  match s.flaw? with
  | none => .ok ()
  | some flaw => .error flaw

def store (s : Settings) : Store := ⟨s.storeRoot, s.shaderExtension, s.includeExtension⟩

def recipe (s : Settings) (version : GlVersion) : Source.Recipe := ⟨s.store, version, s.dumpSource⟩

def options (s : Settings) : Except Flaw Window.Options :=
  match s.validate, s.glVersion with
  | .error flaw, _ | .ok (), .error flaw => .error flaw
  | .ok (), .ok version =>
    .ok (Window.Options.withWindowSize
      { store := s.store
        version
        sync := if s.vsync then .vsync else .immediate
        fullscreen := s.fullscreen
        dumpPath := s.dumpSource } s.windowSize)

end Settings
end Config
end LiveShader
