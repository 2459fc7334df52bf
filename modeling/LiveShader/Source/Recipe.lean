import LiveShader.Source.Flatten
import LiveShader.Source.Harness
/-!
# Source.Recipe — the fragment source of a shader name

A recipe fixes the store, the version and, if asked for, the file that gets a copy of every assembled source.  The
copy is written after all reading; that it cannot be written is no failure.
-/
namespace LiveShader
namespace Source

/-- How sources are assembled. -/
structure Recipe where
  store : Store
  version : GlVersion
  dumpPath : Option String := none
deriving DecidableEq, Repr

inductive SourceError where
  | shaderNotFound (name path : String)
  | flatten (error : FlattenError)
deriving DecidableEq, Repr

def SourceError.message : SourceError → String
  | .shaderNotFound name path => "shader `" ++ name ++ "` not found at " ++ path
  | .flatten error => error.message

namespace Recipe

/-- The fragment source of a shader, before any copy of it is written. -/
def fragmentSource (r : Recipe) (t : Files.Tree) (name : String) : Except SourceError String :=
  let path := r.store.shaderPath name
  if r.store.contains t name then
    match flatten t.readText r.store path with
    | .error e => .error (.flatten e)
    | .ok flattened => .ok (wrap flattened.source r.version)
  else .error (.shaderNotFound name path)

/-- The files after an assembled source was copied to the dump path. -/
def dump (r : Recipe) (source : String) (t : Files.Tree) : Files.Tree :=
  match r.dumpPath with
  | some path => t.write path source.toUTF8
  | none => t

/-- Assembles the fragment source of a shader and writes the copy. -/
def assemble (r : Recipe) (t : Files.Tree) (name : String) : Except SourceError String × Files.Tree :=
  match r.fragmentSource t name with
  | .error e => (.error e, t)
  | .ok source => (.ok source, r.dump source t)

theorem assemble_fst (r : Recipe) (t : Files.Tree) (name : String) :
    (r.assemble t name).1 = r.fragmentSource t name := by
  unfold assemble
  cases r.fragmentSource t name <;> rfl

end Recipe
end Source
end LiveShader
