import LiveShader.Text.Line
import LiveShader.Window.Viewer
/-!
# Console.Entry — what comes in at the prompt

Input is read line by line.  Input that is text has the lines of that text; other input is read up to the first line
that is no text.
-/
namespace LiveShader
namespace Console

/-- One attempt to read a line, and what happens in the window if the line starts a run. -/
structure Entry (σ : Type) where
  line : Except Files.AccessError String
  happenings : List (Window.Viewer.Happening σ) := []

variable {σ : Type}

def Entry.ofLine (line : List Char) : Entry σ := ⟨.ok (String.ofList line), []⟩

def entriesOfText (text : String) : List (Entry σ) := (Text.lines text.toList).map .ofLine

/-- The lines of bytes, with the newlines that end them. -/
def byteLines : List UInt8 → List (List UInt8)
  | [] => []
  | b :: bs =>
    if b = 10 then [b] :: byteLines bs
    else
      match byteLines bs with
      | [] => [[b]]
      | l :: ls => (b :: l) :: ls

def entryOfBytes (line : List UInt8) : Entry σ :=
  match String.fromUTF8? ⟨line.toArray⟩ with
  | some text => .ofLine ((Text.lines text.toList).headD [])
  | none => ⟨.error .notText, []⟩

def entriesOf (input : ByteArray) : List (Entry σ) :=
  match String.fromUTF8? input with
  | some text => entriesOfText text
  | none => (byteLines input.toList).map entryOfBytes

end Console
end LiveShader
