import LiveShader.Text.Numeral
/-!
# Size — window sizes in pixels

A size is typed as two numerals around an `x` or `X`, blanks allowed around each, neither of them zero.
-/
namespace LiveShader

/-- A width and a height in pixels.  A window has 32 bits for each; there is no bound here, so what holds of all sizes
covers larger ones too. -/
structure Size where
  width : Nat
  height : Nat
deriving DecidableEq, Repr, Inhabited

namespace Size

/-- Whether a dimension is zero. -/
def isEmpty (s : Size) : Bool := s.width == 0 || s.height == 0

def atLeastOne (s : Size) : Size := ⟨max s.width 1, max s.height 1⟩

/-- The text `WIDTHxHEIGHT`. -/
def display (s : Size) : String := toString s.width ++ "x" ++ toString s.height

inductive ParseError where
  | malformed (text : String)
  | badWidth (text : String)
  | badHeight (text : String)
  | zero
deriving DecidableEq, Repr

def ParseError.message : ParseError → String
  | .malformed text => "invalid size '" ++ text ++ "'; expected WIDTHxHEIGHT"
  | .badWidth text => "invalid width '" ++ text ++ "'"
  | .badHeight text => "invalid height '" ++ text ++ "'"
  | .zero => "window size must be greater than zero"

def parse (text : String) : Except ParseError Size :=
  let trimmed := Text.trimChars text.toList
  match Text.cutAt? (fun c => c == 'x' || c == 'X') trimmed with
  | none => .error (.malformed (String.ofList trimmed))
  | some (a, b) =>
    let w := Text.trimChars a
    let h := Text.trimChars b
    match Text.numeral? Text.limit32 w, Text.numeral? Text.limit32 h with
    | none, _ => .error (.badWidth (String.ofList w))
    | some _, none => .error (.badHeight (String.ofList h))
    | some width, some height =>
      let size : Size := ⟨width, height⟩
      if size.isEmpty then .error .zero else .ok size

end Size
end LiveShader
