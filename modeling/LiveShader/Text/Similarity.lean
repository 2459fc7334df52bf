/-!
# Text.Similarity — how alike two words are

The similarity of Jaro: characters match when they are equal and not further apart than half the longer word, and
matching characters that stand in another order count for less.
-/
namespace LiveShader
namespace Text

/-- The first place among some positions of a word that holds a character and is still free. -/
def freePlace? (c : Char) (low high : Nat) (word : List Char) (taken : List Nat) : Option Nat :=
  (List.range word.length).find? fun j => low ≤ j && j < high && word[j]? == some c && !taken.contains j

/-- Pairs up the characters of two words: for each character of the first, the place it takes in the second. -/
def pairs (reach : Nat) (b : List Char) : Nat → List Char → List Nat → List (Char × Nat)
  | _, [], _ => []
  | i, c :: cs, taken =>
    match freePlace? c (i - reach) (i + reach + 1) b taken with
    | some j => (c, j) :: pairs reach b (i + 1) cs (j :: taken)
    | none => pairs reach b (i + 1) cs taken

def similarity (a b : String) : Float :=
  let x := a.toList
  let y := b.toList
  if x.isEmpty && y.isEmpty then 1.0
  else
    let found := pairs (max x.length y.length / 2 - 1) y 0 x []
    let places := found.map (·.2)
    let inOrder := (places.mergeSort fun i j => decide (i ≤ j)).filterMap (y[·]?)
    let swapped := ((found.map (·.1)).zip inOrder).countP fun (c, d) => c != d
    let n := found.length.toFloat
    if found.isEmpty then 0.0
    else (n / x.length.toFloat + n / y.length.toFloat + (found.length - swapped / 2).toFloat / n) / 3.0

/-- Whether one word may have been meant for the other. -/
def similar (a b : String) : Bool := 0.7 < similarity a b

end Text
end LiveShader
