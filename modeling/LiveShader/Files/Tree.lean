/-!
# Files.Tree — a directory tree as a value

A node is a file, a symbolic link or a directory.  A location is the list of names that leads to a node from the
top of the tree, following no link.

There are no permissions and no hard links: a file that is there can be read and written, and it has one location.
-/
namespace LiveShader
namespace Files

/-- A file with its bytes, a symbolic link with its target, or a directory with its entries. -/
inductive Node where
  | file (content : ByteArray)
  | link (target : String)
  | dir (entries : List (String × Node))

instance : Inhabited Node := ⟨.dir []⟩

/-- The names from the top of the tree down to a node. -/
abbrev Location := List String

def findEntry (name : String) : List (String × Node) → Option Node
  | [] => none
  | (n, node) :: rest => if n = name then some node else findEntry name rest

/-- Sets the entry of a name, in place when there is one. -/
def putEntry (name : String) (node : Node) : List (String × Node) → List (String × Node)
  | [] => [(name, node)]
  | (n, old) :: rest => if n = name then (n, node) :: rest else (n, old) :: putEntry name node rest

def eraseEntry (name : String) (entries : List (String × Node)) : List (String × Node) :=
  entries.filter (·.1 != name)

namespace Node

def get? : Node → Location → Option Node
  | node, [] => some node
  | .dir entries, name :: rest => (findEntry name entries).bind (get? · rest)
  | _, _ :: _ => none
termination_by structural _ location => location

/-- Changes the entries of the directory at a location; where there is none, nothing changes. -/
def alterDir (f : List (String × Node) → List (String × Node)) : Location → Node → Node
  | [], .dir entries => .dir (f entries)
  | name :: rest, .dir entries =>
    match findEntry name entries with
    | some node => .dir (putEntry name (alterDir f rest node) entries)
    | none => .dir entries
  | _, node => node

def isDir : Node → Bool
  | .dir _ => true
  | _ => false

def isFile : Node → Bool
  | .file _ => true
  | _ => false

end Node

theorem findEntry_putEntry (name : String) (node : Node) (other : String) :
    ∀ entries, findEntry other (putEntry name node entries) =
      if name = other then some node else findEntry other entries
  | [] => by simp [putEntry, findEntry]
  | (n, old) :: rest => by
    have ih := findEntry_putEntry name node other rest
    by_cases h : n = name
    · subst h; by_cases ho : n = other <;> simp [putEntry, findEntry, ho]
    · by_cases ho : n = other
      · subst ho; simp [putEntry, findEntry, h, Ne.symm h]
      · simp [putEntry, findEntry, h, ho, ih]

end Files
end LiveShader
