import LiveShader.Store.Basic
/-!
# Store.Listing — the names of all shaders in a store

Every file below the root with the shader extension is listed under its path from the root without the extension.
Links are neither listed nor followed, so every tree has a finite listing.
-/
namespace LiveShader
namespace Store

open Files (Node)

/-- The files below a directory, each with the directories that lead to it. -/
def filesBelow : List (String × Node) → List (List String × String)
  | [] => []
  | (name, .file _) :: rest => ([], name) :: filesBelow rest
  | (_, .link _) :: rest => filesBelow rest
  | (name, .dir entries) :: rest =>
    (filesBelow entries).map (fun (dirs, file) => (name :: dirs, file)) ++ filesBelow rest

/-- The directories below a directory. -/
def dirsBelow : List (String × Node) → List (List String)
  | [] => []
  | (_, .file _) :: rest => dirsBelow rest
  | (_, .link _) :: rest => dirsBelow rest
  | (name, .dir entries) :: rest => [name] :: (dirsBelow entries).map (name :: ·) ++ dirsBelow rest

/-- The last name of a listed path: the file name up to its extension, save that a single dot left over is the
name of the directory above. -/
def listedStem (stem : String) : String := if stem = "." then ".." else stem

/-- The name a file is listed under, when it has the extension. -/
def listedName? (extension : String) (dirs : List String) (file : String) : Option String :=
  match Path.splitExtension? file with
  | some (stem, found) =>
    if found = extension then some ("/".intercalate (dirs ++ [listedStem stem])) else none
  | none => none

/-- The names of the shaders among the entries of a root directory, in the order of their characters. -/
def namesBelow (extension : String) (entries : List (String × Node)) : List String :=
  let names := (filesBelow entries).filterMap fun (dirs, file) => listedName? extension dirs file
  names.mergeSort fun a b => decide (a ≤ b)

/-- The names of the shaders in a store; a root that is no directory has none. -/
def list (s : Store) (t : Files.Tree) : Except Files.AccessError (List String) :=
  match t.node? s.root with
  | some (.dir entries) =>
    if (dirsBelow entries).any fun dirs => Files.maxPath ≤ (dirs.foldl Path.join s.root).utf8ByteSize
    then .error .nameTooLong
    else .ok (namesBelow s.shaderExtension entries)
  | _ => .ok []

end Store
end LiveShader
