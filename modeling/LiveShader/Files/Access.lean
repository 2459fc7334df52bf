import LiveShader.Path
import LiveShader.Files.Tree
/-!
# Files.Access — following paths and links, and reading and writing through them

`Tree.walk` follows a path from the working directory, `..` to the directory it really stands for and a link to
its target, at most forty of them.  Everything else is reading or changing the node that the walk arrives at.

A file has no permissions, so one that can be read can be written: a write fails only where the walk does or where it
arrives at a directory.
-/
namespace LiveShader
namespace Files

inductive AccessError where
  | notFound
  | notDirectory
  | isDirectory
  | nameTooLong
  | tooManyLinks
  | nulInName
  | notText
deriving DecidableEq, Repr

def AccessError.message : AccessError → String
  | .notFound => "No such file or directory (os error 2)"
  | .notDirectory => "Not a directory (os error 20)"
  | .isDirectory => "Is a directory (os error 21)"
  | .nameTooLong => "File name too long (os error 36)"
  | .tooManyLinks => "Too many levels of symbolic links (os error 40)"
  | .nulInName => "file name contained an unexpected NUL byte"
  | .notText => "stream did not contain valid UTF-8"

/-- A directory tree and the location of the working directory in it. -/
structure Tree where
  top : Node
  workDir : Location
deriving Inhabited

/-- Where a path leads: to a node, or to a name that its directory does not have. -/
inductive Place where
  | found (location : Location) (node : Node)
  | free (directory : Location) (name : String)

/-- The outcome of following names up to the next link. -/
inductive Leg where
  | arrived (place : Place)
  | atLink (target : String) (directory : Location) (rest : List String)
  | failed (error : AccessError)

/-- The greatest number of bytes in one name. -/
def maxName : Nat := 255

def maxPath : Nat := 4096

/-- The greatest number of links followed on the way to one node. -/
def maxLinks : Nat := 40

namespace Tree

def entriesAt (t : Tree) (location : Location) : List (String × Node) :=
  match t.top.get? location with
  | some (.dir entries) => entries
  | _ => []

/-- Follows names from a directory, up to the next link that counts; the last name counts if `follow` is set. -/
def leg (t : Tree) (follow : Bool) : Location → List String → Leg
  | here, [] => .arrived (.found here (.dir (t.entriesAt here)))
  | here, name :: rest =>
    if name = "." then leg t follow here rest
    else if name = ".." then leg t follow here.dropLast rest
    else if maxName < name.utf8ByteSize then .failed .nameTooLong
    else match findEntry name (t.entriesAt here), rest with
      | none, [] => .arrived (.free here name)
      | none, _ :: _ => .failed .notFound
      | some (.dir _), rest => leg t follow (here ++ [name]) rest
      | some (.file content), [] => .arrived (.found (here ++ [name]) (.file content))
      | some (.file _), _ :: _ => .failed .notDirectory
      | some (.link target), rest =>
        if rest.isEmpty && !follow then .arrived (.found (here ++ [name]) (.link target))
        else .atLink target here rest

/-- Follows names and the links on the way, as long as links are left. -/
def walkFrom (t : Tree) (follow : Bool) : Nat → Location → List String → Except AccessError Place
  | links, here, names =>
    match t.leg follow here names with
    | .arrived place => .ok place
    | .failed error => .error error
    | .atLink target directory rest =>
      match links with
      | 0 => .error .tooManyLinks
      | links + 1 =>
        walkFrom t follow links (if Path.isAbsolute target then [] else directory) (Path.components target ++ rest)
termination_by structural links => links

/-- Follows a path; `follow` says whether a link at its end is followed too. -/
def walk (t : Tree) (path : String) (follow : Bool) : Except AccessError Place :=
  if path.toList.contains '\x00' then .error .nulInName
  else if path.isEmpty then .error .notFound
  else if maxPath ≤ path.utf8ByteSize then .error .nameTooLong
  else t.walkFrom follow maxLinks (if Path.isAbsolute path then [] else t.workDir) (Path.components path)

def node? (t : Tree) (path : String) : Option Node :=
  match t.walk path true with
  | .ok (.found _ node) => some node
  | _ => none

def isFile (t : Tree) (path : String) : Bool := (t.node? path).any (·.isFile)

def isDir (t : Tree) (path : String) : Bool := (t.node? path).any (·.isDir)

def read (t : Tree) (path : String) : Except AccessError ByteArray :=
  match t.walk path true with
  | .error error => .error error
  | .ok (.free _ _) => .error .notFound
  | .ok (.found _ (.file content)) => .ok content
  | .ok (.found _ (.dir _)) => .error .isDirectory
  | .ok (.found _ (.link _)) => .error .tooManyLinks

def readText (t : Tree) (path : String) : Except AccessError String :=
  match t.read path with
  | .error error => .error error
  | .ok content =>
    match String.fromUTF8? content with
    | some text => .ok text
    | none => .error .notText

def alter (t : Tree) (directory : Location) (f : List (String × Node) → List (String × Node)) : Tree :=
  { t with top := t.top.alterDir f directory }

/-- Sets the content of the file a path leads to, or makes that file; where no file can be there nothing changes.
Other paths see the change as far as they lead to the same location: there are no hard links. -/
def write (t : Tree) (path : String) (content : ByteArray) : Tree :=
  match t.walk path true with
  | .ok (.found location (.file _)) =>
    match location.getLast? with
    | some name => t.alter location.dropLast (putEntry name (.file content))
    | none => t
  | .ok (.free directory name) => t.alter directory (putEntry name (.file content))
  | _ => t

/-- Makes the missing directories on the way along a list of names; stops where a name is no directory. -/
def makeDirsFrom (t : Tree) (here : Location) : List String → Tree
  | [] => t
  | name :: rest =>
    if name = "." then makeDirsFrom t here rest
    else if name = ".." then makeDirsFrom t here.dropLast rest
    else if maxName < name.utf8ByteSize then t
    else match findEntry name (t.entriesAt here) with
      | none => makeDirsFrom (t.alter here (putEntry name (.dir []))) (here ++ [name]) rest
      | some (.dir _) => makeDirsFrom t (here ++ [name]) rest
      | some (.file _) => t
      | some (.link _) =>
        match t.walkFrom true maxLinks here [name] with
        | .ok (.found location (.dir _)) => makeDirsFrom t location rest
        | _ => t

/-- Whether a path can be handed over at all. -/
def pathAllowed (path : String) : Bool :=
  !path.toList.contains '\x00' && !path.isEmpty && path.utf8ByteSize < maxPath

def makeDirs (t : Tree) (path : String) : Tree :=
  if pathAllowed path then
    t.makeDirsFrom (if Path.isAbsolute path then [] else t.workDir) (Path.components path)
  else t

/-- Makes a symbolic link, where nothing stands yet. -/
def makeLink (t : Tree) (path target : String) : Tree :=
  match t.walk path false with
  | .ok (.free directory name) =>
    if pathAllowed target then t.alter directory (putEntry name (.link target)) else t
  | _ => t

def remove (t : Tree) (path : String) : Tree :=
  match t.walk path false with
  | .ok (.found _ (.dir _)) => t
  | .ok (.found location _) =>
    match location.getLast? with
    | some name => t.alter location.dropLast (eraseEntry name)
    | none => t
  | _ => t

/-- The path without its last name, for a path that has a name before it. -/
def parent? (path : String) : Option String :=
  let rest := (path.toList.reverse.dropWhile (· == '/')).dropWhile (· != '/')
  match rest with
  | [] => none
  | _ => some (String.ofList rest.reverse)

def makeParents (t : Tree) (path : String) : Tree := (parent? path).elim t t.makeDirs

end Tree
end Files
end LiveShader
