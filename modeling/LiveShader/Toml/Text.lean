import LiveShader.Text.Line
/-!
# Toml.Text — blanks, comments, strings and bare keys of TOML

Every reader takes the characters still to be read and gives what it read with the rest, or nothing when the text
is not of its form.
-/
namespace LiveShader
namespace Toml

/-- A reader of the front of a text. -/
abbrev Reader (α : Type) := List Char → Option (α × List Char)

/-- Whether a character may stand in a comment or in a string: no control character but the tab. -/
def isText (c : Char) : Bool := c == '\t' || (0x20 ≤ c.toNat && c.toNat != 0x7f)

def isSpace (c : Char) : Bool := c == ' ' || c == '\t'

def skipSpaces (cs : List Char) : List Char := cs.dropWhile isSpace

def newline? : List Char → Option (List Char)
  | '\n' :: r => some r
  | '\r' :: '\n' :: r => some r
  | _ => none

def skipComment : List Char → List Char
  | '#' :: r => r.dropWhile isText
  | cs => cs

/-- The end of an expression: blanks, a comment, and a newline or the end of the text. -/
def endOfLine? (cs : List Char) : Option (List Char) :=
  match skipComment (skipSpaces cs) with
  | [] => some []
  | rest => newline? rest

def hexDigit? (c : Char) : Option Nat :=
  if '0' ≤ c ∧ c ≤ '9' then some (c.toNat - 48)
  else if 'a' ≤ c ∧ c ≤ 'f' then some (c.toNat - 87)
  else if 'A' ≤ c ∧ c ≤ 'F' then some (c.toNat - 55)
  else none

def hexChar? (digits : List Char) : Option Char :=
  (digits.foldlM (fun n c => (hexDigit? c).map (16 * n + ·)) 0).bind fun n =>
    if n.isValidChar then some (Char.ofNat n) else none

def shortEscape? : Char → Option Char
  | 'b' => some '\x08'
  | 't' => some '\t'
  | 'n' => some '\n'
  | 'f' => some '\x0c'
  | 'r' => some '\r'
  | '\x22' => some '\x22'
  | '\\' => some '\\'
  | _ => none

def consRead (c : Char) : Option (List Char × List Char) → Option (List Char × List Char)
  | some (cs, r) => some (c :: cs, r)
  | none => none

def consEscape (c? : Option Char) (tail : Option (List Char × List Char)) : Option (List Char × List Char) :=
  match c? with
  | some c => consRead c tail
  | none => none

/-- A string with escapes on one line, behind its first quote. -/
def basicBody : Reader (List Char)
  | '\x22' :: r => some ([], r)
  | '\\' :: 'u' :: a :: b :: c :: d :: r => consEscape (hexChar? [a, b, c, d]) (basicBody r)
  | '\\' :: 'U' :: a :: b :: c :: d :: e :: f :: g :: h :: r =>
    consEscape (hexChar? [a, b, c, d, e, f, g, h]) (basicBody r)
  | '\\' :: c :: r => consEscape (shortEscape? c) (basicBody r)
  | c :: r => if isText c && c != '\\' then consRead c (basicBody r) else none
  | [] => none

/-- A string without escapes on one line, behind its first quote. -/
def literalBody : Reader (List Char)
  | '\x27' :: r => some ([], r)
  | c :: r => if isText c then consRead c (literalBody r) else none
  | [] => none

/-- Whether blanks lead to a newline. -/
def endsLine (cs : List Char) : Bool := (newline? (skipSpaces cs)).isSome

/-- A string with escapes over several lines, behind its first three quotes.  A backslash at the end of a line drops
all blanks and newlines up to the next character, which is what `trimming` stands for.  Up to two quotes may stand
right before the closing three. -/
def linesBody : Bool → Reader (List Char)
  | true, ' ' :: r => linesBody true r
  | true, '\t' :: r => linesBody true r
  | true, '\n' :: r => linesBody true r
  | true, '\r' :: '\n' :: r => linesBody true r
  | _, '\x22' :: '\x22' :: '\x22' :: '\x22' :: '\x22' :: r => some (['\x22', '\x22'], r)
  | _, '\x22' :: '\x22' :: '\x22' :: '\x22' :: r => some (['\x22'], r)
  | _, '\x22' :: '\x22' :: '\x22' :: r => some ([], r)
  | _, '\\' :: 'u' :: a :: b :: c :: d :: r => consEscape (hexChar? [a, b, c, d]) (linesBody false r)
  | _, '\\' :: 'U' :: a :: b :: c :: d :: e :: f :: g :: h :: r =>
    consEscape (hexChar? [a, b, c, d, e, f, g, h]) (linesBody false r)
  | _, '\\' :: c :: r =>
    if endsLine (c :: r) then linesBody true (c :: r) else consEscape (shortEscape? c) (linesBody false r)
  | _, '\r' :: '\n' :: r => consRead '\n' (linesBody false r)
  | _, c :: r => if (isText c || c == '\n') && c != '\\' then consRead c (linesBody false r) else none
  | _, [] => none

/-- A string without escapes over several lines, behind its first three quotes. -/
def literalLinesBody : Reader (List Char)
  | '\x27' :: '\x27' :: '\x27' :: '\x27' :: '\x27' :: r => some (['\x27', '\x27'], r)
  | '\x27' :: '\x27' :: '\x27' :: '\x27' :: r => some (['\x27'], r)
  | '\x27' :: '\x27' :: '\x27' :: r => some ([], r)
  | '\r' :: '\n' :: r => consRead '\n' (literalLinesBody r)
  | c :: r => if isText c || c == '\n' then consRead c (literalLinesBody r) else none
  | [] => none

/-- The text behind a newline that opens a string of several lines. -/
def skipFirstNewline (cs : List Char) : List Char := (newline? cs).getD cs

def shortString? : Reader (List Char)
  | '\x22' :: r => basicBody r
  | '\x27' :: r => literalBody r
  | _ => none

def string? : Reader (List Char)
  | '\x22' :: '\x22' :: '\x22' :: r => linesBody false (skipFirstNewline r)
  | '\x27' :: '\x27' :: '\x27' :: r => literalLinesBody (skipFirstNewline r)
  | cs => shortString? cs

def isBare (c : Char) : Bool := c.isAlphanum || c == '_' || c == '-'

def key? (cs : List Char) : Option (String × List Char) :=
  match cs.takeWhile isBare with
  | [] => (shortString? cs).map fun (name, r) => (String.ofList name, r)
  | name => some (String.ofList name, cs.dropWhile isBare)

end Toml
end LiveShader
