import LiveShader.Config.Settings
/-!
# Console.Report — a complaint with what is behind it

A report is shown as its message and, below that, the chain of its causes: one cause stands alone, several are
numbered from zero.  Further lines of a cause are indented as far as its first.
-/
namespace LiveShader
namespace Console

/-- What could not be done, and why, outermost cause first. -/
structure Report where
  message : String
  causes : List String := []
deriving DecidableEq, Repr

/-- A text with blanks behind each newline. -/
def indented (width : Nat) (s : String) : String :=
  String.ofList (s.toList.flatMap fun c => if c = '\n' then '\n' :: List.replicate width ' ' else [c])

/-- A cause among several, behind its number in five columns. -/
def numberedCause (number : Nat) (cause : String) : String :=
  let digits := toString number
  String.ofList (List.replicate (5 - digits.length) ' ') ++ digits ++ ": " ++ indented 7 cause

def causeList : List String → List String
  | [cause] => ["    " ++ indented 4 cause]
  | causes => causes.mapIdx numberedCause

def Report.render (r : Report) : String :=
  let behind := if r.causes.isEmpty then "" else "\nCaused by:\n" ++ String.join ((causeList r.causes).map (· ++ "\n"))
  "Error: " ++ r.message ++ "\n" ++ behind

end Console

def Config.ConfigError.report (e : Config.ConfigError) : Console.Report where
  message := e.message
  causes := match e with
    | .read _ cause => [cause.message]
    | .parse _ | .invalid _ => []

def Source.SourceError.cause? : Source.SourceError → Option Files.AccessError
  | .shaderNotFound _ _ => none
  | .flatten e => some e.cause

end LiveShader
