import LiveShader.Files.Access
/-!
# Store.Basic — where shaders and fragments are kept

A store is a root directory and two file extensions: one for the shaders a user selects by name, one for the
fragments that shaders include.
-/
namespace LiveShader

/-- A root directory with the extensions of shaders and of included fragments. -/
structure Store where
  root : String := "res/shaders"
  shaderExtension : String := "frag"
  includeExtension : String := "glsl"
deriving DecidableEq, Repr, Inhabited

namespace Store

def shaderPath (s : Store) (name : String) : String :=
  Path.withExtension (Path.join s.root name) s.shaderExtension

/-- The path of the fragment with an identifier; one that starts with a slash is not below the root. -/
def includePath (s : Store) (identifier : String) : String :=
  Path.withExtension (Path.join s.root identifier) s.includeExtension

def contains (s : Store) (t : Files.Tree) (name : String) : Bool :=
  !name.isEmpty && t.isFile (s.shaderPath name)

end Store
end LiveShader
