/-!
# Path — slash-separated path names

Paths are kept as the text they were given; names are joined and extensions appended as text, without
normalisation.
-/
namespace LiveShader
namespace Path

def isAbsolute (p : String) : Bool := p.toList.head? == some '/'

/-- `name` below `base`: an absolute name stands for itself, and one slash separates the two. -/
def join (base name : String) : String :=
  if isAbsolute name then name
  else if base.toList.getLast?.all (· == '/') then base ++ name
  else base ++ "/" ++ name

/-- Appends a dot and an extension as text, so that a dotted name keeps its dots. -/
def withExtension (p extension : String) : String := p ++ "." ++ extension

/-- The pieces of a text between slashes. -/
def pieces : List Char → List (List Char)
  | [] => [[]]
  | c :: cs =>
    if c = '/' then [] :: pieces cs
    else match pieces cs with
      | [] => [[c]]
      | p :: ps => (c :: p) :: ps

/-- The names on a path in order.  A final slash asks for a directory, which a last name `.` does as well. -/
def components (p : String) : List String :=
  let names := (pieces p.toList).filter (!·.isEmpty)
  (if p.toList.getLast? = some '/' then names ++ [['.']] else names).map String.ofList

/-- The texts before and after the last dot of a file name; a dot in front of the name does not count. -/
def splitExtension? (name : String) : Option (String × String) :=
  let tail := name.toList.reverse
  match tail.dropWhile (· != '.') with
  | [] => none
  | _ :: stem =>
    if stem.isEmpty || name == ".." then none
    else some (String.ofList stem.reverse, String.ofList (tail.takeWhile (· != '.')).reverse)

end Path
end LiveShader
