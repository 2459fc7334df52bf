import LiveShader.Toml.Number
/-!
# Toml.Document — values and documents of TOML

A document is a list of keys with values.  Headers of tables and dotted keys at the top have no place in a list of
plain settings and are refused.
-/
namespace LiveShader
namespace Toml

/-- A value.  Numbers with a fraction, moments and tables are told apart from the rest, but not from each other. -/
inductive Value where
  | string (text : String)
  | integer (n : Int)
  | boolean (b : Bool)
  | array (items : List Value)
  | other

/-- How deep values may be nested, and how many keys a dotted key may have. -/
def maxDepth : Nat := 79

/-- Drops blanks, newlines and comments; `comment` tells whether the text begins inside of a comment. -/
def skipFrom : Bool → List Char → List Char
  | _, '\n' :: r => skipFrom false r
  | _, '\r' :: '\n' :: r => skipFrom false r
  | true, c :: r => if isText c then skipFrom true r else c :: r
  | false, '#' :: r => skipFrom true r
  | false, c :: r => if isSpace c then skipFrom false r else c :: r
  | _, [] => []

/-- Drops what may stand between the items of an array: blanks, newlines and comments. -/
def skipBlank (cs : List Char) : List Char := skipFrom false cs

/-- A value without parts that starts with a sign or a digit. -/
def number? (cs : List Char) : Option (Value × List Char) :=
  match moment? cs with
  | some r => some (.other, r)
  | none =>
    match float? cs with
    | some r => some (.other, r)
    | none => (integer? cs).map fun (n, r) => (.integer n, r)

def scalar? : Reader Value
  | 't' :: 'r' :: 'u' :: 'e' :: r => some (.boolean true, r)
  | 'f' :: 'a' :: 'l' :: 's' :: 'e' :: r => some (.boolean false, r)
  | cs =>
    match string? cs with
    | some (text, r) => some (.string (String.ofList text), r)
    | none => number? cs

/-- The keys of a dotted key, at most so many of them, blanks allowed around the dots. -/
def dottedKey? : Nat → Reader (List String)
  | 0, _ => none
  | limit + 1, cs =>
    (key? (skipSpaces cs)).bind fun (k, r) =>
      match skipSpaces r with
      | '.' :: r => (dottedKey? limit r).map fun (ks, r) => (k :: ks, r)
      | r => some ([k], r)

/-- Whether one of two dotted keys goes on where the other ends. -/
def clash (a b : List String) : Bool := a.isPrefixOf b || b.isPrefixOf a

/-- Whether no two dotted keys of an inline table clash. -/
def keysApart : List (List String) → Bool
  | [] => true
  | k :: ks => !ks.any (clash k) && keysApart ks

mutual

/-- A value, with fuel for the characters and a bound for the nesting. -/
def value? : Nat → Nat → Reader Value
  | 0, _, _ => none
  | fuel + 1, depth, cs =>
    match cs with
    | '[' :: r =>
      match depth with
      | 0 => none
      | depth + 1 => (items? fuel depth r).map fun (vs, r) => (.array vs, r)
    | '\x7b' :: r =>
      match depth with
      | 0 => none
      | depth + 1 =>
        match skipSpaces r with
        | '\x7d' :: r => some (.other, r)
        | r =>
          match entries? fuel depth r with
          | some (ks, r) => if keysApart ks then some (.other, r) else none
          | none => none
    | cs => scalar? cs

/-- The items of an array, behind its bracket; a comma may stand behind the last one. -/
def items? : Nat → Nat → Reader (List Value)
  | 0, _, _ => none
  | fuel + 1, depth, cs =>
    match skipBlank cs with
    | ']' :: r => some ([], r)
    | cs =>
      match value? fuel depth cs with
      | none => none
      | some (v, r) =>
        match skipBlank r with
        | ',' :: r => (items? fuel depth r).map fun (vs, r) => (v :: vs, r)
        | ']' :: r => some ([v], r)
        | _ => none

/-- The keys of an inline table, behind its brace; it stands on one line. -/
def entries? : Nat → Nat → Reader (List (List String))
  | 0, _, _ => none
  | fuel + 1, depth, cs =>
    match dottedKey? maxDepth cs with
    | none => none
    | some (k, r) =>
      match expect? '=' r with
      | none => none
      | some r =>
        match value? fuel depth (skipSpaces r) with
        | none => none
        | some (_, r) =>
          match skipSpaces r with
          | ',' :: r => (entries? fuel depth r).map fun (ks, r) => (k :: ks, r)
          | '\x7d' :: r => some ([k], r)
          | _ => none

end

/-- A key with its value on a line of its own, with fuel for the value. -/
def setting? (fuel : Nat) (cs : List Char) : Option ((String × Value) × List Char) := do
  let (k, r) ← key? cs
  let r ← expect? '=' (skipSpaces r)
  let (v, r) ← value? fuel maxDepth (skipSpaces r)
  return ((k, v), ← endOfLine? r)

/-- The settings of a text, with fuel for each value and for the lines. -/
def settings? (fuel : Nat) : Nat → List Char → Option (List (String × Value))
  | 0, _ => some []
  | lines + 1, cs =>
    match skipSpaces cs with
    | [] => some []
    | cs =>
      match endOfLine? cs with
      | some r => settings? fuel lines r
      | none =>
        match setting? fuel cs with
        | some (entry, r) => (settings? fuel lines r).map (entry :: ·)
        | none => none

def distinct : List (String × Value) → Bool
  | [] => true
  | (k, _) :: rest => !rest.any (·.1 == k) && distinct rest

/-- The settings of a document; a byte order mark may stand in front. -/
def document? (text : String) : Option (List (String × Value)) :=
  let cs := match text.toList with
    | '\ufeff' :: r => r
    | cs => cs
  (settings? (2 * cs.length + 2) (cs.length + 1) cs).bind fun entries => if distinct entries then some entries else none

end Toml
end LiveShader
