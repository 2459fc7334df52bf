import LiveShader.GlVersion
import LiveShader.Text.Line
/-!
# Source.Harness — the fixed text around a user's shader

The harness declares the uniforms, holds the user's code at its one mark, behind a `#line` directive that makes
driver messages count lines as the user does, and calls it from `main`.
-/
namespace LiveShader
namespace Source

/-- The mark in the harness that gives way to the user's code. -/
def codeMark : List Char := "@GLSL".toList

/-- The vertex stage: positions in pixels are passed on as `fragCoord`. -/
def vertexBody : String := "layout(location = 0) in vec3 in_Vertex;

out vec2 fragCoord;

uniform mat4 MVP;

void main()
\x7b
    fragCoord = in_Vertex.xy;
    gl_Position = MVP * vec4(in_Vertex, 1.0);
\x7d
"

/-- Declarations that every user shader shares, and the entry point that calls it. -/
def harness : String := "in vec2 fragCoord;
out vec4 fragColor;

uniform mat4 MVP;
uniform mat4 M;
uniform mat4 V;
uniform mat4 P;

uniform vec2 ivMouse;
uniform vec2 fvCenter;
uniform vec2 uvResolution;

uniform float fTime;
uniform float fDelta;
uniform float fRatio;
uniform float fZoom;

uniform int iIncrement;
uniform int iMode;

uniform int vbMousePressed[3];
uniform int vbKeyPressed[4];
uniform int vbFlags[10];

@GLSL

void main()
\x7b
    mainImage();
\x7d
"

/-- Puts a text in the place of the first code mark of a template. -/
def fillCode (template code : List Char) : List Char :=
  match Text.cut? codeMark template with
  | some (before, rest) => before ++ code ++ rest
  | none => template

def vertexSource (version : GlVersion) : String := version.directive ++ "\n" ++ vertexBody

def wrap (code : String) (version : GlVersion) : String :=
  version.directive ++ "\n" ++ String.ofList (fillCode harness.toList ("#line 1\n" ++ code).toList)

end Source
end LiveShader
