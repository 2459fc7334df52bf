import LiveShader.Machine.Request
import LiveShader.Source.Recipe
/-!
# Program.Error — why a shader name did not become a linked program
-/
namespace LiveShader
namespace Program

open Machine

inductive ObjectKind where
  | shader (stage : Stage)
  | program
deriving DecidableEq, Repr

def ObjectKind.name : ObjectKind → String
  | .shader stage => stage.name ++ " shader"
  | .program => "program"

inductive BuildError where
  | source (error : Source.SourceError)
  | compile (stage : Stage) (log : String)
  | link (log : String)
  | create (object : ObjectKind) (message : String)
  | noShaderSelected
deriving DecidableEq, Repr

def BuildError.message : BuildError → String
  | .source error => error.message
  | .compile stage log => stage.name ++ " shader failed to compile:\n" ++ log
  | .link log => "program failed to link:\n" ++ log
  | .create object message => "failed to create " ++ object.name ++ ": " ++ message
  | .noShaderSelected => "no shader has been selected"

end Program
end LiveShader
