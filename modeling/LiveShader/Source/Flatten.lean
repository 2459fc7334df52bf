import LiveShader.Text.Line
import LiveShader.Store.Basic
/-!
# Source.Flatten — one source text out of a shader and the fragments it includes

The pass reads the shader line by line.  A line with `#include <name>` gives way to the lines of that fragment, a
line with a version pragma is dropped, any other line is kept.  Fragments are not searched for further directives:
those stay where they are, with a warning.  A directive without `<name>` leaves an empty line and a warning; one
whose fragment cannot be read ends the pass.
-/
namespace LiveShader
namespace Source

def includeMark : List Char := "#include".toList

def versionMark : List Char := "#version".toList

inductive Warning where
  /-- The directive does not name a fragment; its line was left empty. -/
  | malformedInclude (line : Nat) (directive : String)
  /-- A fragment has a directive of its own, which was left in place. -/
  | nestedInclude (line : Nat) (fragment : String)
deriving DecidableEq, Repr

def Warning.message : Warning → String
  | .malformedInclude line directive =>
    "line " ++ toString line ++ ": malformed include directive `" ++ directive ++ "` (expected #include <name>)"
  | .nestedInclude line fragment =>
    "line " ++ toString line ++ ": " ++ fragment ++ " contains an include directive that is not expanded"

/-- Why the pass ended early. -/
inductive FlattenError where
  | sourceNotFound (path : String) (cause : Files.AccessError)
  | includeNotFound (name path : String) (line : Nat) (cause : Files.AccessError)
deriving DecidableEq, Repr

def FlattenError.cause : FlattenError → Files.AccessError
  | .sourceNotFound _ cause => cause
  | .includeNotFound _ _ _ cause => cause

def FlattenError.message : FlattenError → String
  | .sourceNotFound path cause => "failed to read shader source " ++ path ++ ": " ++ cause.message
  | .includeNotFound name path line cause =>
    "include <" ++ name ++ "> on line " ++ toString line ++ " not found at " ++ path ++ ": " ++ cause.message

/-- What some lines of the shader contribute: lines of source, fragments and warnings. -/
structure Flattened where
  lines : List (List Char)
  includes : List String
  warnings : List Warning
deriving DecidableEq

namespace Flattened

def empty : Flattened := ⟨[], [], []⟩

/-- The contributions of some lines and of those that follow. -/
def append (a b : Flattened) : Flattened := ⟨a.lines ++ b.lines, a.includes ++ b.includes, a.warnings ++ b.warnings⟩

def source (f : Flattened) : String := String.ofList (Text.unlines f.lines)

end Flattened

/-- What a line of the shader is. -/
inductive LineKind where
  | directive (name : List Char)
  | malformed
  | pragma
  | code
deriving DecidableEq, Repr

/-- The fragment named by the text behind an include mark: `<name>`, not blank, blanks around it allowed. -/
def fragmentName? (rest : List Char) : Option (List Char) :=
  match Text.trimChars rest with
  | '<' :: inner =>
    (Text.dropLast? '>' inner).bind fun name => if Text.isAllBlank name then none else some name
  | _ => none

/-- An include mark decides before a version mark does. -/
def lineKind (line : List Char) : LineKind :=
  match Text.cut? includeMark line with
  | some (_, rest) =>
    match fragmentName? rest with
    | some name => .directive name
    | none => .malformed
  | none => if Text.occursIn versionMark line then .pragma else .code

/-- A fragment's line is kept unless it has a version mark and no include mark. -/
def keptInFragment (line : List Char) : Bool :=
  Text.occursIn includeMark line || !Text.occursIn versionMark line

/-- The contribution of a fragment that a directive on line `number` names. -/
def inlined (number : Nat) (path : String) (content : List Char) : Flattened where
  lines := (Text.lines content).filter keptInFragment
  includes := [path]
  warnings := ((Text.lines content).filter (Text.occursIn includeMark)).map fun _ => .nestedInclude number path

/-- The contribution of one line. -/
def flattenLine (read : String → Except Files.AccessError String) (store : Store) (number : Nat) (line : List Char) :
    Except FlattenError Flattened :=
  match lineKind line with
  | .code => .ok ⟨[line], [], []⟩
  | .pragma => .ok .empty
  | .malformed => .ok ⟨[[]], [], [.malformedInclude number (String.ofList (Text.trimChars line))]⟩
  | .directive name =>
    let identifier := String.ofList name
    let path := store.includePath identifier
    match read path with
    | .error cause => .error (.includeNotFound identifier path number cause)
    | .ok content => .ok (inlined number path content.toList)

/-- The contribution of lines that are numbered from `number`. -/
def flattenLines (read : String → Except Files.AccessError String) (store : Store) :
    Nat → List (List Char) → Except FlattenError Flattened
  | _, [] => .ok .empty
  | number, line :: rest =>
    match flattenLine read store number line with
    | .error e => .error e
    | .ok here =>
      match flattenLines read store (number + 1) rest with
      | .error e => .error e
      | .ok below => .ok (here.append below)

def flattenText (read : String → Except Files.AccessError String) (store : Store) (text : String) :
    Except FlattenError Flattened :=
  flattenLines read store 1 (Text.lines text.toList)

def flatten (read : String → Except Files.AccessError String) (store : Store) (path : String) :
    Except FlattenError Flattened :=
  match read path with
  | .error cause => .error (.sourceNotFound path cause)
  | .ok text => flattenText read store text

end Source
end LiveShader
