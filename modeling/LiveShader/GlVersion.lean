import LiveShader.Text.Numeral
/-!
# GlVersion — the requested OpenGL version

A version is written `MAJOR.MINOR`, the minor number at most 9, and has to be at least 3.3.  It also selects the
`#version` pragma of every assembled source.
-/
namespace LiveShader

/-- An OpenGL version, which also selects the language version of the shaders. -/
structure GlVersion where
  major : Nat
  minor : Nat
deriving DecidableEq, Repr

namespace GlVersion

/-- The smallest version the harness compiles against. -/
def minimum : GlVersion := ⟨3, 3⟩

instance : Inhabited GlVersion := ⟨minimum⟩

def older (v w : GlVersion) : Bool := v.major < w.major || (v.major == w.major && v.minor < w.minor)

/-- The text `MAJOR.MINOR`. -/
def display (v : GlVersion) : String := toString v.major ++ "." ++ toString v.minor

/-- The pragma that opens an assembled source, such as `#version 330 core` for 3.3. -/
def directive (v : GlVersion) : String := "#version " ++ toString v.major ++ toString v.minor ++ "0 core"

inductive ParseError where
  | malformed (text : String)
  | tooOld (version : GlVersion)
deriving DecidableEq, Repr

def ParseError.message : ParseError → String
  | .malformed text => "invalid OpenGL version `" ++ text ++ "` (expected MAJOR.MINOR, e.g. 3.3)"
  | .tooOld version => "OpenGL " ++ version.display ++ " is below the supported minimum " ++ minimum.display

/-- The two numbers of a text of the form `MAJOR.MINOR`. -/
def ofChars? (cs : List Char) : Option GlVersion := do
  let (a, b) ← Text.cutAt? (· == '.') (Text.trimChars cs)
  let major ← Text.numeral? Text.limit8 a
  let minor ← Text.numeral? 9 b
  return ⟨major, minor⟩

def parse (text : String) : Except ParseError GlVersion :=
  match ofChars? text.toList with
  | none => .error (.malformed text)
  | some v => if v.older minimum then .error (.tooOld v) else .ok v

/-- A version as a value on the command line, where an error is its text. -/
def parseArgument (text : String) : Except String GlVersion := (parse text).mapError ParseError.message

end GlVersion
end LiveShader
