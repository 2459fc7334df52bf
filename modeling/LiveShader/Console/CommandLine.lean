import LiveShader.Config.Settings
import LiveShader.Text.Similarity
/-!
# Console.CommandLine — the arguments of the program

A command line is read level by level: the program's own arguments, and behind a subcommand those of the
subcommand.  An option is settled only when the next one comes, so an unknown flag behind a bad value is what is
complained about.  Three options may stand on either level; the inner one wins, and a value from the environment
gives way to both.
-/
namespace LiveShader
namespace Console

open Config (Arguments)

inductive Command where
  | list
  | preprocess (shader : String)
deriving DecidableEq, Repr

inductive UsageError where
  | unknownArgument
  | invalidValue
  | valueValidation
  | missingRequiredArgument
  | tooManyValues
  | argumentConflict
  | invalidSubcommand
  | displayHelp
  | displayVersion
deriving DecidableEq, Repr

structure CommandLine where
  command : Option Command
  arguments : Arguments
deriving DecidableEq, Repr

/-- Where arguments stand: before any subcommand, or behind one. -/
inductive Level where
  | top
  | list
  | preprocess
deriving DecidableEq, Repr

/-- An option, which takes one value. -/
inductive Opt where
  | config
  | store
  | size
  | glVersion
  | dumpSource
deriving DecidableEq, Repr

/-- A flag, which takes none. -/
inductive Flag where
  | noVsync
  | fullscreen
  | help
  | version
deriving DecidableEq, Repr

namespace Level

def option? (l : Level) (name : String) : Option Opt :=
  match name with
  | "config" => some .config
  | "store" => some .store
  | "gl-version" => some .glVersion
  | "size" => if l = top then some .size else none
  | "dump-source" => if l = top then some .dumpSource else none
  | _ => none

def flag? (l : Level) (name : String) : Option Flag :=
  match name with
  | "help" => some .help
  | "version" => if l = top then some .version else none
  | "no-vsync" => if l = top then some .noVsync else none
  | "fullscreen" => if l = top then some .fullscreen else none
  | _ => none

def letter? (l : Level) (c : Char) : Option Flag :=
  if c = 'h' then some .help else if c = 'V' ∧ l = top then some .version else none

def takesShader (l : Level) : Bool := l != list

end Level

def subcommand? : String → Option Level
  | "list" => some .list
  | "preprocess" => some .preprocess
  | _ => none

def subcommandNames : List String := ["list", "preprocess", "help"]

inductive Pending where
  | option (o : Opt) (value : Option String)
  | shader (name : String)

structure Scan where
  taken : Arguments := {}
  pending : Option Pending := none
  hasShader : Bool := false
  /-- Whether only names may follow. -/
  onlyNames : Bool := false

/-- A path, which is not empty. -/
def pathValue (value : String) : Except UsageError String :=
  if value.isEmpty then .error .invalidValue else .ok value

def parsedValue {ε α : Type} : Except ε α → Except UsageError α
  | .ok a => .ok a
  | .error _ => .error .valueValidation

/-- A value for an option that was not given before. -/
def once {α : Type} (before : Option α) (value : Except UsageError α) : Except UsageError (Option α) :=
  match before with
  | some _ => .error .argumentConflict
  | none => value.map some

def takeOption (a : Arguments) (value : String) : Opt → Except UsageError Arguments
  | .config => do return { a with config := ← once a.config (pathValue value) }
  | .store => do return { a with store := ← once a.store (pathValue value) }
  | .size => do return { a with size := ← once a.size (parsedValue (Size.parse value)) }
  | .glVersion => do return { a with version := ← once a.version (parsedValue (GlVersion.parseArgument value)) }
  | .dumpSource => do return { a with dumpSource := ← once a.dumpSource (pathValue value) }

namespace Scan

def settle (s : Scan) : Except UsageError Scan :=
  match s.pending with
  | none => .ok s
  | some (.shader name) => .ok { s with taken := { s.taken with shader := some name }, pending := none }
  | some (.option _ none) => .error .invalidValue
  | some (.option o (some value)) => do return { s with taken := ← takeOption s.taken value o, pending := none }

def takeFlag (s : Scan) (f : Flag) : Except UsageError Scan := do
  let s ← s.settle
  match f with
  | .help => .error .displayHelp
  | .version => .error .displayVersion
  | .noVsync =>
    if s.taken.noVsync then .error .argumentConflict else .ok { s with taken := { s.taken with noVsync := true } }
  | .fullscreen =>
    if s.taken.fullscreen then .error .argumentConflict
    else .ok { s with taken := { s.taken with fullscreen := true } }

/-- Reads an argument `--name` or `--name=value`. -/
def takeLong (s : Scan) (l : Level) (body : List Char) : Except UsageError Scan :=
  let (name, value) := match Text.cutAt? (· == '=') body with
    | some (name, value) => (String.ofList name, some (String.ofList value))
    | none => (String.ofList body, none)
  match l.option? name, l.flag? name, value with
  | some o, _, none => do return { ← s.settle with pending := some (.option o none) }
  | some o, _, some value => do
    let s ← s.settle
    return { s with taken := ← takeOption s.taken value o }
  | none, some f, none => s.takeFlag f
  | none, some _, some _ => .error .tooManyValues
  | none, none, _ => .error .unknownArgument

/-- Reads an argument of single letters, such as `-h`. -/
def takeLetters (s : Scan) (l : Level) : List Char → Except UsageError Scan
  | [] => .ok s
  | c :: cs =>
    match l.letter? c with
    | none => .error .unknownArgument
    | some f => do takeLetters (← s.takeFlag f) l cs

def takeName (s : Scan) (l : Level) (name : String) : Except UsageError Scan :=
  if l.takesShader && !s.hasShader then do
    return { ← s.settle with pending := some (.shader name), hasShader := true }
  else if l = .top ∧ !(s.onlyNames && subcommandNames.contains name) ∧ subcommandNames.any (Text.similar name) then
    .error .invalidSubcommand
  else .error .unknownArgument

def waits (s : Scan) : Bool :=
  match s.pending with
  | some (.option _ none) => true
  | _ => false

/-- Reads a plain argument: the value of an option that waits, else a name. -/
def takePlain (s : Scan) (l : Level) (text : String) : Except UsageError Scan :=
  match s.pending with
  | some (.option o none) => .ok { s with pending := some (.option o (some text)) }
  | _ => s.takeName l text

end Scan

/-- What asking for help on some subcommands ends in: none of them has one of its own. -/
def helpOn : List String → UsageError
  | [] => .displayHelp
  | [name] => if subcommandNames.contains name then .displayHelp else .invalidSubcommand
  | _ => .invalidSubcommand

/-- Reads arguments up to a subcommand, which is given with the arguments behind it. -/
def scan (l : Level) : Scan → List String → Except UsageError (Scan × Option (Level × List String))
  | s, [] => .ok (s, none)
  | s, arg :: rest =>
    if s.onlyNames then do scan l (← s.takeName l arg) rest
    else
      match if l = .top ∧ !s.waits then subcommand? arg else none with
      | some inner => .ok (s, some (inner, rest))
      | none =>
        if l = .top ∧ !s.waits ∧ arg = "help" then .error (helpOn rest)
        else
          match arg.toList with
          | ['-', '-'] => scan l { s with onlyNames := true } rest
          | '-' :: '-' :: body => do scan l (← s.takeLong l body) rest
          | '-' :: c :: cs => do scan l (← s.takeLetters l (c :: cs)) rest
          | _ => do scan l (← s.takePlain l arg) rest

/-- Settles a level that was read to its end; the environment may name the configuration file. -/
def finish (l : Level) (env : Option String) (s : Scan) : Except UsageError Arguments := do
  let s ← s.settle
  match s.taken.config, env with
  | none, some path => let _ ← pathValue path
  | _, _ => pure ()
  if l = .preprocess ∧ s.taken.shader = none then .error .missingRequiredArgument
  else .ok s.taken

def commandOf (l : Level) (inner : Arguments) : Option Command :=
  match l with
  | .top => none
  | .list => some .list
  | .preprocess => some (.preprocess (inner.shader.getD ""))

/-- The program's arguments, with those that the inner level may give as well. -/
def mergeLevels (outer inner : Arguments) (env : Option String) : Arguments :=
  { outer with
    config := inner.config <|> outer.config <|> env
    store := inner.store <|> outer.store
    version := inner.version <|> outer.version }

def CommandLine.parse (args : List String) (env : Option String) : Except UsageError CommandLine := do
  let (s, sub) ← scan .top {} args
  match sub with
  | none =>
    let outer ← finish .top env s
    return ⟨none, mergeLevels outer {} env⟩
  | some (l, rest) =>
    let (innerScan, _) ← scan l {} rest
    let inner ← finish l env innerScan
    let outer ← finish .top env s
    return ⟨commandOf l inner, mergeLevels outer inner env⟩

end Console
end LiveShader
